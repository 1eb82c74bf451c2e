import NameBinding.Proofs.BoundTables
import NameBinding.Proofs.FreeBases
import NameBinding.Proofs.ScopeLayers

/-!
Resolving the program of a result again. Every name is bound by then, so the pass looks nothing up:
it only opens the scopes once more, behind those of the first time. The two passes go in step, and
what the first has in a scope, the second has in one that comes as many scopes later as the first
pass opened.
-/

namespace NameBinding

/-! ### Scopes that come later -/

/-- Where a scope is found if all scopes from the `n`th on come `d` later. -/
def ScopeId.moved (n d : Nat) (s : ScopeId) : ScopeId := if n ≤ s.index then ⟨s.index + d⟩ else s

/-- The same scope, with a parent that may have moved. -/
def Scope.moved (n d : Nat) (sc : Scope) : Scope :=
  { sc with parent := sc.parent.map (ScopeId.moved n d) }

section Moved

variable {n d : Nat} {s r : ScopeId}

lemma ScopeId.moved_of_le (h : n ≤ s.index) : s.moved n d = ⟨s.index + d⟩ := if_pos h

lemma ScopeId.moved_of_lt (h : s.index < n) : s.moved n d = s := if_neg (by omega)

lemma ScopeId.moved_inj (hs : n ≤ s.index) (hr : n ≤ r.index) :
    s.moved n d = r.moved n d ↔ s = r := by
  obtain ⟨i⟩ := s
  obtain ⟨j⟩ := r
  rw [moved_of_le hs, moved_of_le hr, ScopeId.mk.injEq, ScopeId.mk.injEq, Nat.add_right_cancel_iff]

end Moved

namespace Pass

/-! ### Two passes in step -/

/-- What the first state has from the `n`th scope on, the second has `d` scopes later. The second
has bound nothing and met no fault. -/
structure Repeats (n d : Nat) (st st' : Pass) : Prop where
  size : st'.scopes.size = st.scopes.size + d
  scopes : ∀ s : ScopeId, n ≤ s.index →
    st'.scopes.scope? (s.moved n d) = (st.scopes.scope? s).map (Scope.moved n d)
  recorded : ∀ key, st'.scopeAt? key = (st.scopeAt? key).map (ScopeId.moved n d)
  references : st'.bindings.references = .empty
  baseClasses : st'.bindings.baseClasses = .empty
  journal : ∀ x ∈ st'.journal.toList, x.fault? = none

variable {p : Program} {b : Bindings} {n d : Nat} {st st' mid : Pass} {scope : ScopeId}

/-- In the first state only scopes and records count. -/
lemma Repeats.left (h : Repeats n d st st') (hscopes : mid.scopes = st.scopes)
    (hrecorded : ∀ key, mid.scopeAt? key = st.scopeAt? key) : Repeats n d mid st' := by
  refine ⟨?_, ?_, ?_, h.references, h.baseClasses, h.journal⟩
  · rw [hscopes, h.size]
  · rw [hscopes]
    exact h.scopes
  · intro key
    rw [hrecorded, h.recorded]

lemma Repeats.note (h : Repeats n d st st') {x : Entry} (hx : x.fault? = none) :
    Repeats n d st (st'.note x) := by
  refine ⟨h.size, h.scopes, fun key => ?_, h.references, h.baseClasses, fun y hy => ?_⟩
  · rw [← h.recorded key]
    cases key <;> rfl
  · have hnote : (st'.note x).journal.toList = st'.journal.toList ++ [x] := Array.toList_push
    rw [hnote, List.mem_append, List.mem_singleton] at hy
    rcases hy with hy | rfl
    · exact h.journal y hy
    · exact hx

/-- The next scope that the one opens comes `d` later in the other. -/
lemma Repeats.next (h : Repeats n d st st') (hn : n ≤ st.scopes.size) :
    (⟨st.scopes.size⟩ : ScopeId).moved n d = ⟨st'.scopes.size⟩ := by
  rw [ScopeId.moved, if_pos hn, h.size]

/-- A name that is bound already is not looked up. -/
lemma bindOwn_of_bound {e : ExprId} (h : ∀ ref, p.reference? e = some ref → ref.isBound = true)
    (st : Pass) (scope : ScopeId) :
    st.bindOwn p scope e = st ∨ st.bindOwn p scope e = st.note (.name e .kept) := by
  obtain ⟨ref, l, he, hrun⟩ | ⟨o, ref, l, he, hrun⟩ | ⟨-, hrun⟩ := bindOwn_cases p scope st e
  · have hbound := h ref (by simp [Program.reference?, he, Expr.reference?])
    right
    rw [hrun, lexical, if_pos hbound]
    rfl
  · have hbound := h ref (by simp [Program.reference?, he, Expr.reference?])
    right
    rw [hrun, selected, if_pos hbound]
    rfl
  · exact .inl hrun

lemma Repeats.add (h : Repeats n d st st') (hscope : n ≤ scope.index) {m : Name} {v : SymbolId}
    {t : ScopeTree} (hadd : st.scopes.add scope m v = .ok t) :
    ∃ t', st'.scopes.add (scope.moved n d) m v = .ok t' ∧
      Repeats n d { st with scopes := t } { st' with scopes := t' } := by
  have hfree : st'.scopes.declared? (scope.moved n d) m = none := by
    have hnone := ScopeTree.declared?_eq_none_of_add hadd
    unfold ScopeTree.declared? at hnone ⊢
    rw [h.scopes scope hscope, Option.bind_map]
    exact hnone
  obtain ⟨t', hadd'⟩ := ScopeTree.exists_add v hfree
  refine ⟨t', hadd', ?_, fun s hs => ?_, fun key => ?_, h.references, h.baseClasses, h.journal⟩
  · rw [ScopeTree.size_add hadd', ScopeTree.size_add hadd, h.size]
  · simp only [ScopeTree.scope?_add hadd', ScopeTree.scope?_add hadd, ScopeId.moved_inj hs hscope,
      h.scopes s hs]
    split
    · rw [Option.map_map, Option.map_map]
      rfl
    · rfl
  · have hrecorded := h.recorded key
    cases key <;> exact hrecorded

lemma Repeats.openFor (h : Repeats n d st st') (hn : n ≤ st.scopes.size) (scope : ScopeId)
    (key : ScopeKey) : Repeats n d (st.openFor scope key) (st'.openFor (scope.moved n d) key) := by
  refine ⟨?_, fun s hs => ?_, fun k => ?_, ?_, ?_, ?_⟩
  · rw [scopes_openFor, scopes_openFor, ScopeTree.size_addChild, ScopeTree.size_addChild, h.size]
    omega
  · have hat : (s.moved n d).index = st'.scopes.size ↔ s.index = st.scopes.size := by
      rw [ScopeId.moved_of_le hs, h.size]
      exact Nat.add_right_cancel_iff
    simp only [scopes_openFor, ScopeTree.scope?_addChild, hat, h.scopes s hs]
    split <;> rfl
  · rw [scopeAt?_openFor, scopeAt?_openFor, h.recorded]
    split
    · rw [Option.map_some, h.next hn]
    · rfl
  · rw [references_openFor, h.references]
  · rw [baseClasses_openFor, h.baseClasses]
  · rw [journal_openFor]
    exact h.journal

lemma Repeats.closeFor (h : Repeats n d st st') (inner : ScopeId) (key : ScopeKey) :
    Repeats n d (st.closeFor inner key) (st'.closeFor (inner.moved n d) key) := by
  refine ⟨?_, ?_, fun k => ?_, ?_, ?_, ?_⟩
  · rw [scopes_closeFor, scopes_closeFor, h.size]
  · rw [scopes_closeFor, scopes_closeFor]
    exact h.scopes
  · rw [scopeAt?_closeFor, scopeAt?_closeFor, h.recorded]
    split <;> rfl
  · rw [references_closeFor, h.references]
  · rw [baseClasses_closeFor, h.baseClasses]
  · rw [journal_closeFor]
    exact h.journal

/-- What could be entered once can be entered again. -/
lemma Repeats.declare (h : Repeats n d st st') (hscope : n ≤ scope.index) {v : SymbolId}
    (hquiet : ∀ x ∈ (st.declare p scope v).journal.toList, x.fault? = none) :
    Repeats n d (st.declare p scope v) (st'.declare (p.bind b) (scope.moved n d) v) := by
  obtain ⟨hv, hrun⟩ | ⟨sym, hv, ⟨t, ht, hrun⟩ | ⟨w, -, hrun⟩⟩ := declare_cases p scope st v
  · have hv' : (p.bind b).symbol? v = none := by rw [Program.symbol?_bind, hv]; rfl
    have hrun' : st'.declare (p.bind b) (scope.moved n d) v = st' := by
      simp only [Pass.declare, hv']
    rwa [hrun, hrun']
  · obtain ⟨t', ht', hnext⟩ := h.add hscope ht
    obtain ⟨sym', hv', hname⟩ :
        ∃ sym', (p.bind b).symbol? v = some sym' ∧ sym'.name = sym.name := by
      refine ⟨_, by rw [Program.symbol?_bind, hv]; rfl, ?_⟩
      obtain ⟨_, _, k⟩ := sym
      cases b.baseClasses.get? v <;> cases k <;> rfl
    have hrun' : st'.declare (p.bind b) (scope.moved n d) v = { st' with scopes := t' } := by
      simp only [Pass.declare, hv', hname, ht']
    rwa [hrun, hrun']
  · have hfault := hquiet _ (by rw [hrun, Pass.note, Array.toList_push]; exact List.mem_concat_self)
    simp [Entry.fault?] at hfault

/-- **Two passes in step.** If all names are bound by `b`, a script that meets no fault in `p` does
the same again in the program that has them bound. -/
theorem Repeats.run (hbound : ∀ e ref, (p.bind b).reference? e = some ref → ref.isBound = true)
    (c : Script) (h : Repeats p.scopes.size d st st') (hat : StandsAt p scope st)
    (hnew : p.scopes.size ≤ scope.index ∨ c.entered = [])
    (hquiet : ∀ x ∈ (c.run p scope st).journal.toList, x.fault? = none) :
    Repeats p.scopes.size d (c.run p scope st)
      (c.run (p.bind b) (scope.moved p.scopes.size d) st') := by
  induction c generalizing scope st st' with
  | skip => exact h
  | seq a c iha ihc =>
    have ha := iha h hat (hnew.imp id fun h => (List.append_eq_nil_iff.mp h).1)
      fun x hx => hquiet x ((Script.journal_prefix_run c scope _).subset hx)
    exact ihc ha (Script.standsAt_run a hat) (hnew.imp id fun h => (List.append_eq_nil_iff.mp h).2)
      hquiet
  | meet e =>
    have hleft : Repeats p.scopes.size d (st.note (.expr e)) st' :=
      h.left rfl fun key => by cases key <;> rfl
    exact hleft.note rfl
  | bind e =>
    have hleft : Repeats p.scopes.size d (st.bindOwn p scope e) st' :=
      h.left (scopes_bindOwn st scope e) (scopeAt?_bindOwn st p scope e)
    rw [Script.run, Script.run]
    rcases bindOwn_of_bound (hbound e) st' (scope.moved p.scopes.size d) with hrun | hrun
    · rwa [hrun]
    · rw [hrun]
      exact hleft.note rfl
  | enter v => exact h.declare (hnew.resolve_right (by simp [Script.entered])) hquiet
  | within key body ih =>
    have hbody := ih (h.openFor hat.size scope key) (Script.standsAt_openFor hat key)
      (.inl hat.size) (by simpa [Script.run] using hquiet)
    have hclosed := hbody.closeFor ⟨st.scopes.size⟩ key
    rw [h.next hat.size] at hclosed
    exact hclosed

lemma Repeats.runAll (hbound : ∀ e ref, (p.bind b).reference? e = some ref → ref.isBound = true)
    {scripts : List (ScopeId × Script)}
    (hscripts : ∀ x ∈ scripts, x.1.index < p.scopes.size ∧ x.2.entered = [])
    (h : Repeats p.scopes.size d st st') (hat : StandsAt p ScopeTree.global st)
    (hquiet : ∀ x ∈ (Script.runAll p scripts st).journal.toList, x.fault? = none) :
    Repeats p.scopes.size d (Script.runAll p scripts st)
      (Script.runAll (p.bind b) scripts st') := by
  induction scripts generalizing st st' with
  | nil => exact h
  | cons x xs ih =>
    obtain ⟨hlt, hentered⟩ := hscripts x (by simp)
    have hx : StandsAt p x.1 st := ⟨hat.rooted, hat.size, hlt.trans_le hat.size⟩
    have hfirst := h.run hbound x.2 hx (.inr hentered)
      fun y hy => hquiet y ((Script.journal_prefix_runAll xs _).subset hy)
    rw [ScopeId.moved_of_lt hlt] at hfirst
    exact ih (fun y hy => hscripts y (by simp [hy])) hfirst
      ((Script.grows_run x.2 hx).standsAt hat) hquiet

/-! ### The start of the second pass -/

lemma foldl_eq_self {f : Pass → SymbolId → Pass} {xs : List SymbolId} (h : ∀ s ∈ xs, f st s = st) :
    xs.foldl f st = st := by
  induction xs with
  | nil => rfl
  | cons s xs ih =>
    rw [List.foldl_cons, h s (by simp), ih fun y hy => h y (by simp [hy])]

/-- Where all bases are bound and no class inherits from itself, the first part has nothing to do.
-/
lemma start_of_bound
    (hbases : ∀ s ∈ p.classes, ∀ base, (p.symbol? s).bind (·.baseClass?) = some base →
      base.reference.isBound = true)
    (hcycle : ∀ s ∈ p.classes, p.isOwnAncestor {} s = false) :
    start p = ({ scopes := p.scopes } : Pass).note (.basesDone 0) := by
  have hbind : ∀ s ∈ p.classes, bindBase p { scopes := p.scopes } s = { scopes := p.scopes } := by
    intro s hs
    unfold bindBase
    split
    · rfl
    · next base hbase => rw [if_pos (hbases s hs base hbase)]
  have hcheck : ∀ s ∈ p.classes,
      checkCycle p { scopes := p.scopes } s = { scopes := p.scopes } := by
    intro s hs
    rw [checkCycle, hcycle s hs, if_neg (by simp)]
  rw [start, bases]
  simp only [foldl_eq_self hbind, foldl_eq_self hcheck]
  rfl

end Pass

/-! ### The result of the second time -/

section Again

variable {p : Program} {o : Options} {r : BoundProgram}

/-- Bindings that bind nothing can only bring another tree of scopes. -/
lemma Program.bind_of_empty {b : Bindings} (hreferences : b.references = .empty)
    (hbases : b.baseClasses = .empty) :
    p.bind b = { p with scopes := b.scopes.getD p.scopes } := by
  have hexprs : (p.bind b).exprs = p.exprs := by
    refine Array.ext Array.size_mapIdx fun i _ _ => ?_
    simp [bind, hreferences]
  have hsymbols : (p.bind b).symbols = p.symbols := by
    refine Array.ext Array.size_mapIdx fun i _ _ => ?_
    simp [bind, hbases]
  calc p.bind b = { p with
        exprs := (p.bind b).exprs
        symbols := (p.bind b).symbols
        scopes := b.scopes.getD p.scopes } := rfl
    _ = _ := by rw [hexprs, hsymbols]

variable (hp : p.WellFormed) (hr : p.resolve o = .ok r)

section

include hr

lemma classes_of_resolve : r.program.classes = p.classes := by
  rw [program_of_resolve hr]
  rfl

lemma isBound_of_resolve {e : ExprId} {ref : Reference} (href : r.program.reference? e = some ref) :
    ref.isBound = true := by
  rw [program_of_resolve hr] at href
  exact Program.isBound_of_unbound (Program.resolve_eq_ok_iff.mp hr).2.1 href

/-- The bases of all classes at the top are bound in a result. -/
lemma isBound_base_of_resolve {s : SymbolId} (hs : s ∈ r.program.classes) {base : BaseClass}
    (hbase : (r.program.symbol? s).bind (·.baseClass?) = some base) :
    base.reference.isBound = true := by
  by_contra hfree
  have hstays : (p.bind (p.bindings o).1).hasFreeBase s = true := by
    obtain ⟨x, hx, hb⟩ := Option.bind_eq_some_iff.mp hbase
    rw [program_of_resolve hr] at hx
    simpa [Program.hasFreeBase, hx, Symbol.hasFreeBase, hb] using hfree
  rw [Program.hasFreeBase_of_unbound (Program.resolve_eq_ok_iff.mp hr).2.1] at hstays
  exact hstays.1.2 (classes_of_resolve hr ▸ hs)

lemma start_of_resolve : Pass.start r.program =
    ({ scopes := r.program.scopes } : Pass).note (.basesDone 0) := by
  refine Pass.start_of_bound (fun s hs base => isBound_base_of_resolve hr hs) fun s hs => ?_
  have hbegins := Script.journal_prefix_runAll (p := p) p.scripts (Pass.start p)
  have hcycle := Pass.isOwnAncestor_start
    (fun x hx => no_fault_of_resolve hr x (hbegins.subset hx)) (classes_of_resolve hr ▸ hs)
  have hbase : r.program.base? {} = p.base? (Pass.start p).bindings := by
    funext v
    exact baseClass?_of_resolve hr v
  have hsize : r.program.symbols.size = p.symbols.size := by
    rw [program_of_resolve hr]
    exact Array.size_mapIdx
  unfold Program.isOwnAncestor at hcycle ⊢
  rw [hbase, hsize, hcycle]

end

include hp hr

lemma keepsEnums_of_resolve : p.KeepsEnums (p.bindings o).1 := by
  intro v t ht
  obtain ⟨x, hx, henum⟩ := Option.bind_eq_some_iff.mp ht
  have hscope : x.scope? = some t.scope := by
    obtain ⟨_, _, k⟩ := x
    cases k with
    | enumType u =>
      obtain rfl := Option.some.inj henum
      rfl
    | _ => simp [Symbol.enum?] at henum
  have hlt : t.scope.index < p.scopes.size :=
    (hp.allocated.symbols v x hx).2.2.2.2.1 t.scope (by simp [hscope])
  unfold Program.members ScopeTree.symbols
  rw [← program_of_resolve hr, scopes_of_resolve hr, Pass.scope?_finish hp.listed hlt]

lemma scripts_of_resolve : r.program.scripts = p.scripts := by
  rw [program_of_resolve hr]
  exact Program.scripts_bind (keepsEnums_of_resolve hp hr)

lemma size_le_of_resolve : p.scopes.size ≤ r.program.scopes.size := by
  rw [scopes_of_resolve hr]
  exact Pass.size_le_finish hp.listed

/-- The pass over the program of a result repeats the pass that led to it. -/
lemma repeats_of_resolve : Pass.Repeats p.scopes.size (r.program.scopes.size - p.scopes.size)
    (Pass.finish p) (Pass.finish r.program) := by
  have hsize := size_le_of_resolve hp hr
  have hstart : Pass.Repeats p.scopes.size (r.program.scopes.size - p.scopes.size) (Pass.start p)
      (Pass.start r.program) := by
    rw [start_of_resolve hr]
    refine Pass.Repeats.note ⟨?_, fun s hs => ?_, fun key => ?_, rfl, rfl, by simp⟩ rfl
    · rw [Pass.scopes_start]
      exact (Nat.add_sub_of_le hsize).symm
    · have hnone : p.scopes.scope? s = none := Array.getElem?_eq_none hs
      have hnone' : r.program.scopes.scope? (s.moved p.scopes.size
          (r.program.scopes.size - p.scopes.size)) = none := by
        rw [ScopeId.moved_of_le hs]
        exact Array.getElem?_eq_none
          ((Nat.add_sub_of_le hsize).ge.trans (Nat.add_le_add_right hs _))
      rw [Pass.scopes_start, hnone, hnone']
      rfl
    · unfold Pass.scopeAt?
      rw [(Pass.onlyBases_start p).bindings]
      cases key <;> rfl
  have hrepeats := hstart.runAll (b := (p.bindings o).1)
    (fun e ref href => isBound_of_resolve hr (by rwa [program_of_resolve hr]))
    (fun x hx => ⟨hp.listed.lt_of_mem_scripts hx, Script.entered_of_mem_scripts hx⟩)
    (Pass.standsAt_start hp) (no_fault_of_resolve hr)
  rw [← program_of_resolve hr] at hrepeats
  unfold Pass.finish
  rwa [scripts_of_resolve hp hr]

lemma steps_again : Pass.Steps r.program (Pass.start r.program) (Pass.finish r.program) := by
  refine Script.runAll_steps (by simp) fun x hx => ⟨?_, Script.entered_of_mem_scripts hx⟩
  rw [scripts_of_resolve hp hr] at hx
  exact (hp.listed.lt_of_mem_scripts hx).trans_le (size_le_of_resolve hp hr)

/-- Resolving again succeeds and changes the scopes only. -/
lemma exists_again : ∃ r', r.program.resolve o = .ok r' ∧
    r'.program = { r.program with scopes := (Pass.finish r.program).scopes } ∧
    ∀ key, r'.scopeAt? key = (Pass.finish r.program).scopeAt? key := by
  have hrepeats := repeats_of_resolve hp hr
  have hbindings := r.program.bindings_fst o
  have herrors : (r.program.bindings o).2 = [] := by
    refine (Pass.errors_eq_nil_iff _ _).mpr ⟨hrepeats.journal, fun hswitches => ?_⟩
    rw [program_of_resolve hr, Program.switchFaults_bind (keepsEnums_of_resolve hp hr)]
    exact ((Pass.errors_eq_nil_iff p o).mp (Program.resolve_eq_ok_iff.mp hr).1).2 hswitches
  have hunbound : r.program.unbound (r.program.bindings o).1 = [] := by
    refine Program.unbound_eq_nil_iff.mpr
      ⟨fun s hs base hbase hfree => ?_, fun e ref href hfree => ?_⟩
    · simp [isBound_base_of_resolve hr hs hbase] at hfree
    · simp [isBound_of_resolve hr href] at hfree
  refine ⟨_, Program.resolve_eq_ok_iff.mpr ⟨herrors, hunbound, rfl⟩, ?_, fun key => ?_⟩
  · rw [hbindings]
    exact Program.bind_of_empty hrepeats.references hrepeats.baseClasses
  · rw [hbindings]
    cases key <;> rfl

end Again

/-- **Resolving again.** The program of a result can be resolved again. This binds no name and no
base class, and leaves all scopes of the result as they are. It opens as many scopes as the first
time, and each of the scopes recorded then has a copy that comes later by this number, with the same
kind and the same names and symbols in the same order, in a copy of its parent. -/
theorem resolve_again {p : Program} {o : Options} {r : BoundProgram} (hp : p.Built)
    (hr : p.resolve o = .ok r) : ∃ r', r.program.resolve o = .ok r' ∧
      r'.program = { r.program with scopes := r'.program.scopes } ∧
      (∀ e, r'.binding? e = r.binding? e) ∧ (∀ s, r'.baseClass? s = r.baseClass? s) ∧
      ∃ opened, r.program.scopes.size = p.scopes.size + opened ∧
        r'.program.scopes.size = r.program.scopes.size + opened ∧
        (∀ s : ScopeId, s.index < r.program.scopes.size →
          r'.program.scopes.scope? s = r.program.scopes.scope? s) ∧
        (∀ key, r'.scopeAt? key = (r.scopeAt? key).map fun s => ⟨s.index + opened⟩) ∧
        ∀ key s, r.scopeAt? key = some s → ∃ sc sc', r.program.scopes.scope? s = some sc ∧
          r'.program.scopes.scope? ⟨s.index + opened⟩ = some sc' ∧ sc'.kind = sc.kind ∧
          sc'.entries = sc.entries ∧
          sc'.parent = sc.parent.map (ScopeId.moved p.scopes.size opened) := by
  have hwf := hp.wellFormed
  have hrepeats := repeats_of_resolve hwf hr
  have hscopes := scopes_of_resolve hr
  obtain ⟨opened, hopened⟩ := Nat.exists_eq_add_of_le (size_le_of_resolve hwf hr)
  rw [hopened, Nat.add_sub_cancel_left] at hrepeats
  obtain ⟨r', hr', hprogram, hat⟩ := exists_again hwf hr
  have hscopes' : r'.program.scopes = (Pass.finish r.program).scopes := by rw [hprogram]
  -- what is recorded was opened by the pass
  obtain ⟨l, hl⟩ := exists_opened hwf hr
  have hnew : ∀ key s, r.scopeAt? key = some s →
      p.scopes.size ≤ s.index ∧ s.index < r.program.scopes.size := by
    intro key s hs
    rw [hl.found] at hs
    obtain ⟨x, hx, rfl⟩ := Option.map_eq_some_iff.mp hs
    exact (hl.new _).mp ⟨x, (mem_of_lastAt hx).1, rfl⟩
  have hfirst : ∀ key, (Pass.finish p).scopeAt? key = r.scopeAt? key := by
    obtain ⟨-, -, rfl⟩ := Program.resolve_eq_ok_iff.mp hr
    intro key
    rw [Program.bindings_fst]
    cases key <;> rfl
  refine ⟨r', hr', by rw [hscopes', hprogram], ?_, ?_, opened, hopened, ?_, ?_, ?_, ?_⟩
  · intro e
    rw [BoundProgram.binding?, hprogram]
    rfl
  · intro s
    rw [BoundProgram.baseClass?, hprogram]
    rfl
  · rw [hscopes', hrepeats.size, hscopes]
  · intro s hs
    rw [hscopes', (steps_again hwf hr).scope?_of_lt (by simp) hs, Pass.scopes_start]
  · intro key
    rw [hat, hrepeats.recorded, hfirst]
    cases hs : r.scopeAt? key with
    | none => rfl
    | some s => rw [Option.map_some, Option.map_some, ScopeId.moved_of_le (hnew key s hs).1]
  · intro key s hs
    obtain ⟨hge, hlt⟩ := hnew key s hs
    obtain ⟨sc, hsc⟩ := ScopeTree.scope?_of_lt hlt
    refine ⟨sc, sc.moved p.scopes.size opened, hsc, ?_, rfl, rfl, rfl⟩
    rw [hscopes', ← ScopeId.moved_of_le hge, hrepeats.scopes s hge, ← hscopes, hsc]
    rfl

/-- In the program with two loops, the `for` has its variable in the fourth scope, and in the eighth
if it is resolved again. -/
theorem loops_resolved_again : (loops false).Built ∧
    (loops false).resolve {} = .ok (loopsResult false) ∧
    ∃ r', (loopsResult false).program.resolve {} = .ok r' ∧
      (∀ e, r'.binding? e = (loopsResult false).binding? e) ∧ r'.program.scopes.size = 10 ∧
      (loopsResult false).scopeAt? (.block ⟨3⟩) = some ⟨4⟩ ∧
      r'.scopeAt? (.block ⟨3⟩) = some ⟨8⟩ ∧
      ∃ sc sc', (loopsResult false).program.scopes.scope? ⟨4⟩ = some sc ∧
        r'.program.scopes.scope? ⟨8⟩ = some sc' ∧ sc.symbols = [⟨8⟩] ∧ sc'.kind = sc.kind ∧
        sc'.entries = sc.entries ∧ sc'.parent = some ⟨7⟩ := by
  have hsteps : Program.new.build? (loopSteps false) = some (loops false) := by decide
  have hbuilt : (loops false).Built := Program.Built.new.build? hsteps
  have hr : (loops false).resolve {} = .ok (loopsResult false) := by decide
  have hsize : (loopsResult false).program.scopes.size = 6 := by decide
  have hsize₀ : (loops false).scopes.size = 2 := by decide
  have hfor : (loopsResult false).scopeAt? (.block ⟨3⟩) = some ⟨4⟩ := by decide
  obtain ⟨r', hr', -, hsame, -, opened, hopened, hsize', -, hat, hcopy⟩ := resolve_again hbuilt hr
  obtain rfl : opened = 4 := by omega
  obtain ⟨sc, sc', hsc, hsc', hkind, hentries, hparent⟩ := hcopy _ _ hfor
  have hscope : (loopsResult false).program.scopes.scope? ⟨4⟩ =
      some ⟨.block, some ⟨3⟩, OrderedMap.empty.insert ⟨9⟩ ⟨8⟩⟩ := by decide
  obtain rfl := Option.some.inj (hsc.symm.trans hscope)
  refine ⟨hbuilt, hr, r', hr', hsame, by omega, hfor, by rw [hat, hfor]; rfl, _, sc', hsc, hsc',
    rfl, hkind, hentries, ?_⟩
  rw [hparent, hsize₀]
  rfl

end NameBinding
