import NameBinding.Proofs.NearestAncestors
import NameBinding.Proofs.Openings

/-!
The moments at which names are looked up: the scope in which a name stands, and the state in which
the pass comes to it. Whatever the pass reports about the name of an expression, it reports at one
of these moments, by what it has found up to then.
-/

namespace NameBinding

/-- The name of an expression is looked up next. -/
structure Moment where
  /-- The scope in which the expression stands. -/
  scope : ScopeId
  pass : Pass
  expr : ExprId

/-- Looking the name up ends in the fault. -/
def Moment.Reports (p : Program) (m : Moment) (f : Fault) : Prop :=
  (m.pass.bindOwn p m.scope m.expr).faults = m.pass.faults ++ [f]

lemma Pass.faults_note (st : Pass) (x : Entry) :
    (st.note x).faults = st.faults ++ x.fault?.toList := by
  cases h : x.fault? <;> simp [Pass.faults, Pass.note, h]

namespace Script

variable {p : Program} {scope : ScopeId} {st : Pass} {m : Moment} {f : Fault}

/-- The moments of a script that is run in a scope, in their order. -/
def moments (p : Program) : Script → ScopeId → Pass → List Moment
  | skip, _, _ | meet _, _, _ | enter _, _, _ => []
  | seq a b, scope, st => a.moments p scope st ++ b.moments p scope (a.run p scope st)
  | bind e, scope, st => [⟨scope, st, e⟩]
  | within key body, scope, st => body.moments p ⟨st.scopes.size⟩ (st.openFor scope key)

/-- The moments of scripts that are run one after the other. -/
def momentsAll (p : Program) : List (ScopeId × Script) → Pass → List Moment
  | [], _ => []
  | x :: xs, st => x.2.moments p x.1 st ++ momentsAll p xs (x.2.run p x.1 st)

/-- The pass takes steps to each moment, as it does to the end of the script. -/
lemma steps_of_mem_moments (c : Script) (hsize : p.scopes.size ≤ st.scopes.size)
    (hscope : scope.index < st.scopes.size) (hnew : p.scopes.size ≤ scope.index ∨ c.entered = [])
    (hm : m ∈ c.moments p scope st) : Pass.Steps p st m.pass := by
  induction c generalizing scope st with
  | skip | meet _ | enter _ => cases hm
  | bind e =>
    obtain rfl := List.mem_singleton.mp hm
    exact .refl
  | seq a b iha ihb =>
    have hfirst : p.scopes.size ≤ scope.index ∨ a.entered = [] :=
      hnew.imp id fun h => (List.append_eq_nil_iff.mp h).1
    have hsecond : p.scopes.size ≤ scope.index ∨ b.entered = [] :=
      hnew.imp id fun h => (List.append_eq_nil_iff.mp h).2
    rcases List.mem_append.mp hm with hm | hm
    · exact iha hsize hscope hfirst hm
    · have hrun := a.run_steps hsize hscope hfirst
      have hle := hrun.size_le
      exact hrun.trans (ihb (by omega) (by omega) hsecond hm)
  | within key body ih =>
    have hsize' : (st.openFor scope key).scopes.size = st.scopes.size + 1 := by
      rw [Pass.scopes_openFor, ScopeTree.size_addChild]
    have hbody : Pass.Steps p (st.openFor scope key) m.pass :=
      ih (by omega) (by rw [hsize']; exact Nat.lt_succ_self _) (.inl hsize) hm
    exact hbody.head (.opened st key hscope)

lemma steps_of_mem_momentsAll {scripts : List (ScopeId × Script)}
    (hsize : p.scopes.size ≤ st.scopes.size)
    (h : ∀ x ∈ scripts, x.1.index < p.scopes.size ∧ x.2.entered = [])
    (hm : m ∈ momentsAll p scripts st) : Pass.Steps p st m.pass := by
  induction scripts generalizing st with
  | nil => cases hm
  | cons x xs ih =>
    obtain ⟨hscope, hentered⟩ := h x List.mem_cons_self
    have hlt : x.1.index < st.scopes.size := by omega
    rcases List.mem_append.mp hm with hm | hm
    · exact x.2.steps_of_mem_moments hsize hlt (.inr hentered) hm
    · have hrun := x.2.run_steps hsize hlt (.inr hentered)
      have hrest := ih (hsize.trans hrun.size_le) (fun y hy => h y (List.mem_cons_of_mem x hy)) hm
      exact hrun.trans hrest

/-- What is done at a moment is part of the run. -/
lemma journal_of_mem_moments (c : Script) (hm : m ∈ c.moments p scope st) :
    (m.pass.bindOwn p m.scope m.expr).journal.toList <+: (c.run p scope st).journal.toList := by
  induction c generalizing scope st with
  | skip | meet _ | enter _ => cases hm
  | bind e =>
    obtain rfl := List.mem_singleton.mp hm
    exact List.prefix_refl _
  | seq a b iha ihb =>
    rcases List.mem_append.mp hm with hm | hm
    · exact (iha hm).trans (journal_prefix_run b scope _)
    · exact ihb hm
  | within key body ih =>
    rw [run, Pass.journal_closeFor]
    exact ih hm

lemma journal_of_mem_momentsAll {scripts : List (ScopeId × Script)}
    (hm : m ∈ momentsAll p scripts st) :
    (m.pass.bindOwn p m.scope m.expr).journal.toList <+: (runAll p scripts st).journal.toList := by
  induction scripts generalizing st with
  | nil => cases hm
  | cons x xs ih =>
    rcases List.mem_append.mp hm with hm | hm
    · exact (x.2.journal_of_mem_moments hm).trans (journal_prefix_runAll xs _)
    · exact ih hm

/-- A fault was there before, or refuses a declaration, or is reported at one of the moments. -/
def Accounts (p : Program) (st : Pass) (ms : List Moment) (f : Fault) : Prop :=
  f ∈ st.faults ∨ (∃ e, f.cause = .build e) ∨ ∃ m ∈ ms, m.Reports p f

lemma Accounts.append {mid : Pass} {ms ms' : List Moment}
    (h : f ∈ mid.faults → Accounts p st ms f) (h' : Accounts p mid ms' f) :
    Accounts p st (ms ++ ms') f := by
  rcases h' with hf | hbuild | ⟨m, hm, hreports⟩
  · rcases h hf with hf | hbuild | ⟨m, hm, hreports⟩
    · exact .inl hf
    · exact .inr (.inl hbuild)
    · exact .inr (.inr ⟨m, List.mem_append_left _ hm, hreports⟩)
  · exact .inr (.inl hbuild)
  · exact .inr (.inr ⟨m, List.mem_append_right _ hm, hreports⟩)

lemma faults_run (c : Script) (hf : f ∈ (c.run p scope st).faults) :
    Accounts p st (c.moments p scope st) f := by
  induction c generalizing scope st with
  | skip => exact .inl hf
  | meet e =>
    rw [run, Pass.faults_note] at hf
    exact .inl (by simpa [Entry.fault?] using hf)
  | bind e =>
    have hreport : ∀ b, st.bindOwn p scope e = st.settle e b →
        Accounts p st [⟨scope, st, e⟩] f := by
      intro b hb
      rw [run, hb, Pass.faults_settle, List.mem_append, Option.mem_toList] at hf
      rcases hf with hf | hf
      · exact .inl hf
      · refine .inr (.inr ⟨⟨scope, st, e⟩, List.mem_singleton_self _, ?_⟩)
        rw [Moment.Reports, hb, Pass.faults_settle, hf]
        rfl
    obtain ⟨_, _, -, h⟩ | ⟨_, _, _, -, h⟩ | ⟨-, h⟩ := Pass.bindOwn_cases p scope st e
    · exact hreport _ h
    · exact hreport _ h
    · rw [run, h] at hf
      exact .inl hf
  | enter v =>
    rw [run] at hf
    obtain ⟨-, h⟩ | ⟨sym, -, ⟨t, -, h⟩ | ⟨w, -, h⟩⟩ := Pass.declare_cases p scope st v
    · rw [h] at hf
      exact .inl hf
    · rw [h] at hf
      exact .inl hf
    · rw [h, Pass.faults_note, List.mem_append, Option.mem_toList] at hf
      rcases hf with hf | hf
      · exact .inl hf
      · obtain rfl := Option.some.inj hf
        exact .inr (.inl ⟨_, rfl⟩)
  | seq a b iha ihb => exact .append iha (ihb hf)
  | within key body ih =>
    -- opening and leaving a scope notes nothing
    have hbody : f ∈ (body.run p ⟨st.scopes.size⟩ (st.openFor scope key)).faults := by
      simpa [run, Pass.faults] using hf
    rcases ih hbody with hf | hf | hf
    · exact .inl (by simpa [Pass.faults] using hf)
    · exact .inr (.inl hf)
    · exact .inr (.inr hf)

lemma faults_runAll {scripts : List (ScopeId × Script)} (hf : f ∈ (runAll p scripts st).faults) :
    Accounts p st (momentsAll p scripts st) f := by
  induction scripts generalizing st with
  | nil => exact .inl hf
  | cons x xs ih => exact .append x.2.faults_run (ih hf)

end Script

/-- The moments at which the names of the program are looked up, in their order. -/
def Program.moments (p : Program) : List Moment := Script.momentsAll p p.scripts (Pass.start p)

variable {p : Program} {m : Moment} {f : Fault}

lemma Program.Listed.steps_of_mem_moments (hp : p.Listed) (hm : m ∈ p.moments) :
    Pass.Steps p (Pass.start p) m.pass :=
  Script.steps_of_mem_momentsAll (by simp)
    (fun _ hx => ⟨hp.lt_of_mem_scripts hx, Script.entered_of_mem_scripts hx⟩) hm

lemma Program.journal_of_mem_moments (hm : m ∈ p.moments) :
    (m.pass.bindOwn p m.scope m.expr).journal.toList <+: (Pass.run p).journal.toList := by
  rw [Pass.run_eq]
  refine (Script.journal_of_mem_momentsAll hm).trans ?_
  exact Array.toList_push ▸ List.prefix_append _ _

lemma Pass.ofBase_of_mem_faults (hf : f ∈ (Pass.start p).faults) : f.cause.OfBase := by
  obtain ⟨x, hx, hfault⟩ := List.mem_filterMap.mp hf
  have hbase := (Pass.onlyBases_start p).journal x hx
  cases x with
  | fault g =>
    obtain rfl := Option.some.inj hfault
    exact hbase
  | name e b => exact hbase.elim
  | _ => cases hfault

/-- Every fault of the pass is about a base class, or about a declaration, or it was reported at the
moment when a name was looked up. -/
lemma Pass.accounts_run (hf : f ∈ (Pass.run p).faults) :
    Script.Accounts p (Pass.start p) p.moments f := by
  have hfinish : f ∈ (Pass.finish p).faults := by
    rw [Pass.run_eq, Pass.faults_note] at hf
    simpa [Entry.fault?] using hf
  exact Script.faults_runAll hfinish

/-! ### What is reported at a moment -/

lemma Pass.lexical_eq_failed {st : Pass} {scope : ScopeId} {r : Reference} {line : Line}
    (h : st.lexical p scope r line = .failed f) :
    f = ⟨.unknownName (p.text r.name), line, (st.scopes.namesInReach scope).map p.text⟩ := by
  unfold Pass.lexical at h
  split at h
  · cases h
  · split at h
    · cases h
    · exact (Binding.failed.inj h).symm

lemma Pass.selected_eq_failed {st : Pass} {object : ExprId} {r : Reference} {line : Line}
    (h : st.selected p object r line = .failed f) :
    (∃ what, f = ⟨.noMembers (p.text r.name) what, line, []⟩) ∨
    ∃ t, st.owner p object = .type t ∧
      f = ⟨.unknownMember (p.symbolText t) (p.text r.name), line,
        ((st.lineageScopes p t).flatMap st.scopes.names).map p.text⟩ := by
  unfold Pass.selected at h
  split at h
  · cases h
  · split at h
    · cases h
    · exact .inl ⟨_, (Binding.failed.inj h).symm⟩
    · next t howner =>
      split at h
      · cases h
      · exact .inr ⟨t, howner, (Binding.failed.inj h).symm⟩

/-- At a moment a plain name is not found, or what a member is selected from has none, or has none
of that name. -/
lemma Moment.Reports.cases (h : m.Reports p f) :
    (∃ r line, p.expr? m.expr = some (.ident r line) ∧
      f = ⟨.unknownName (p.text r.name), line,
        (m.pass.scopes.namesInReach m.scope).map p.text⟩) ∨
    ∃ object r line, p.expr? m.expr = some (.select object r line) ∧
      ((∃ what, f = ⟨.noMembers (p.text r.name) what, line, []⟩) ∨
        ∃ t, m.pass.owner p object = .type t ∧
          f = ⟨.unknownMember (p.symbolText t) (p.text r.name), line,
            ((m.pass.lineageScopes p t).flatMap m.pass.scopes.names).map p.text⟩) := by
  have hfailed : ∀ b, m.pass.bindOwn p m.scope m.expr = m.pass.settle m.expr b → b = .failed f := by
    intro b hb
    rw [Moment.Reports, hb, Pass.faults_settle, List.append_cancel_left_eq] at h
    cases b with
    | failed g =>
      obtain rfl : g = f := by simpa [Entry.fault?] using h
      rfl
    | _ => cases h
  obtain ⟨r, line, he, hb⟩ | ⟨object, r, line, he, hb⟩ | ⟨-, hb⟩ :=
    Pass.bindOwn_cases p m.scope m.pass m.expr
  · exact .inl ⟨r, line, he, Pass.lexical_eq_failed (hfailed _ hb)⟩
  · exact .inr ⟨object, r, line, he, Pass.selected_eq_failed (hfailed _ hb)⟩
  · rw [Moment.Reports, hb] at h
    simp at h

end NameBinding
