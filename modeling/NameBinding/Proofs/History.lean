import NameBinding.Proofs.BaseClasses

/-!
The journal as a history. Every entry was written by a step taken when the journal held the entries
before it, so that what became of a name can be told from those. Which names are looked up, and in
which order, depends on the program only.
-/

namespace NameBinding

namespace Pass

variable {p : Program} {st st' : Pass}

/-! ### The step behind an entry -/

/-- The step that wrote an entry, with the states around it. -/
lemma Steps.entry (h : Steps p st st') {before after : List Entry} {x : Entry}
    (hjournal : st'.journal.toList = before ++ x :: after)
    (hlen : st.journal.size ≤ before.length) :
    ∃ s₁ s₂, Steps p st s₁ ∧ Step p s₁ s₂ ∧ Steps p s₂ st' ∧ s₁.journal.toList = before ∧
      s₂.journal = s₁.journal.push x := by
  induction h generalizing after with
  | refl =>
    have hl := congrArg List.length hjournal
    simp only [Array.length_toList, List.length_append, List.length_cons] at hl
    omega
  | @tail mid last hsteps hstep ih =>
    obtain hsame | ⟨y, hpush⟩ := hstep.journal
    · rw [hsame] at hjournal
      obtain ⟨s₁, s₂, h₁, h₂, h₃, hb, hx⟩ := ih hjournal
      exact ⟨s₁, s₂, h₁, h₂, h₃.tail hstep, hb, hx⟩
    · rw [hpush, Array.toList_push] at hjournal
      -- the entry is the one written last, or it was there before
      rcases List.eq_nil_or_concat after with rfl | ⟨after, z, rfl⟩
      · obtain ⟨hb, hxy⟩ := List.append_inj' hjournal rfl
        obtain rfl : y = x := by simpa using hxy
        exact ⟨mid, last, hsteps, hstep, .refl, hb, hpush⟩
      · have hsplit : mid.journal.toList ++ [y] = (before ++ x :: after) ++ [z] := by
          rw [hjournal]
          simp
        obtain ⟨hmid, -⟩ := List.append_inj' hsplit rfl
        obtain ⟨s₁, s₂, h₁, h₂, h₃, hb, hx⟩ := ih hmid
        exact ⟨s₁, s₂, h₁, h₂, h₃.tail hstep, hb, hx⟩

/-- What is written of a name is what the name means in the state at that time. -/
lemma Step.name (h : Step p st st') {e : ExprId} {b : Binding}
    (hpush : st'.journal = st.journal.push (.name e b)) :
    (∃ scope r line, p.expr? e = some (.ident r line) ∧ b = st.lexical p scope r line) ∨
    ∃ object r line, p.expr? e = some (.select object r line) ∧
      b = st.selected p object r line := by
  have hpush' : ∀ x, st.journal.push x = st.journal.push (.name e b) → x = .name e b :=
    fun x hx => (Array.push_inj_right.mp hx)
  have hne : st.journal ≠ st.journal.push (.name e b) := by
    intro hx
    have hs := congrArg Array.size hx
    simp at hs
  cases h with
  | meet e' => exact absurd (hpush' _ hpush) (by simp)
  | bind scope e' =>
    obtain ⟨r, l, he, h⟩ | ⟨o, r, l, he, h⟩ | ⟨-, h⟩ := bindOwn_cases p scope st e'
    · rw [h, journal_settle] at hpush
      obtain ⟨rfl, rfl⟩ : e' = e ∧ st.lexical p scope r l = b := by simpa using hpush' _ hpush
      exact .inl ⟨scope, r, l, he, rfl⟩
    · rw [h, journal_settle] at hpush
      obtain ⟨rfl, rfl⟩ : e' = e ∧ st.selected p o r l = b := by simpa using hpush' _ hpush
      exact .inr ⟨o, r, l, he, rfl⟩
    · rw [h] at hpush
      exact absurd hpush hne
  | @declare scope v =>
    obtain ⟨-, h⟩ | ⟨sym, -, ⟨t, ht, h⟩ | ⟨w, -, h⟩⟩ := declare_cases p scope st v
    · rw [h] at hpush
      exact absurd hpush hne
    · rw [h] at hpush
      exact absurd hpush hne
    · rw [h] at hpush
      exact absurd (hpush' _ hpush) (by simp)
  | opened key => exact absurd ((journal_openFor st _ key).symm.trans hpush) hne
  | closed key => exact absurd ((journal_closeFor st _ key).symm.trans hpush) hne

end Pass

/-! ### The state told by entries -/

namespace Program

variable (p : Program)

/-- The declaration that an expression is bound to by entries, or else in the program. -/
def boundBy (entries : List Entry) (e : ExprId) : Option SymbolId :=
  (p.reference? e).bind fun r =>
    r.target?.or (entries.filterMap (Entry.target? e)).getLast?

/-- The declared type of a value as told by entries: its binding, or else the global declaration
of its name. -/
def declaredTypeBy (entries : List Entry) (v : TypedValue) : Option SymbolId :=
  (p.boundBy entries v.type).or
    ((p.reference? v.type).bind fun r => p.scopes.declared? ScopeTree.global r.name)

end Program

namespace Pass

variable {p : Program} {st : Pass}

/-- A state of the pass over the bodies. -/
structure Reached (p : Program) (st : Pass) : Prop where
  recorded : st.Recorded
  old : ∀ r : ScopeId, r.index < p.scopes.size → st.scopes.scope? r = p.scopes.scope? r
  bases : st.bindings.baseClasses = (start p).bindings.baseClasses

lemma Steps.reached (h : Steps p (start p) st) : Reached p st where
  recorded := h.keep (fun _ _ hs => hs.recorded) (recorded_start p)
  old r hr := by rw [h.scope?_of_lt (by simp) hr, scopes_start]
  bases := h.baseClasses

lemma Reached.bound? (h : Reached p st) (e : ExprId) :
    st.bound? p e = p.boundBy st.journal.toList e := by
  unfold Pass.bound? Program.boundBy
  rw [h.recorded e]

lemma Reached.declared? (h : Reached p st) {s : ScopeId} (hs : s.index < p.scopes.size) (n : Name) :
    st.scopes.declared? s n = p.scopes.declared? s n := by
  unfold ScopeTree.declared?
  rw [h.old s hs]

lemma Reached.declaredType? (h : Reached p st) (hp : p.Listed) (v : TypedValue) :
    st.declaredType? p v = p.declaredTypeBy st.journal.toList v := by
  obtain ⟨sc, hsc, -⟩ := hp.root
  unfold Pass.declaredType? Program.declaredTypeBy
  simp only [h.bound?, h.declared? (ScopeTree.lt_of_scope? hsc)]

end Pass

/-- **What became of a name** is what it means in a state that the entries before tell. -/
theorem Pass.exists_reached_of_name {p : Program} (hp : p.Listed) {before after : List Entry}
    {e : ExprId} {b : Binding}
    (hjournal : (finish p).journal.toList = before ++ .name e b :: after) :
    ∃ st, Reached p st ∧ st.journal.toList = before ∧
      ((∃ scope r line, p.expr? e = some (.ident r line) ∧ b = st.lexical p scope r line) ∨
        ∃ object r line, p.expr? e = some (.select object r line) ∧
          b = st.selected p object r line) := by
  have hsteps := steps_finish hp
  -- the first part of the pass looks up no name
  have hlen : (start p).journal.size ≤ before.length := by
    by_contra hlt
    obtain ⟨rest, hrest⟩ := hsteps.journal_prefix
    have hin : before.length < (start p).journal.toList.length := by simpa using hlt
    have hleft : ((start p).journal.toList ++ rest)[before.length]? =
      (start p).journal.toList[before.length]? := List.getElem?_append_left hin
    have hget : (start p).journal.toList[before.length]? = some (.name e b) := by
      rw [← hleft, hrest, hjournal]
      simp
    exact (onlyBases_start p).journal _ (List.mem_of_getElem? hget)
  obtain ⟨s₁, s₂, h₁, h₂, -, hbefore, hpush⟩ := hsteps.entry hjournal hlen
  exact ⟨s₁, h₁.reached, hbefore, h₂.name hpush⟩

lemma Pass.exists_reached_of_select {p : Program} (hp : p.Listed) {m object : ExprId}
    {r : Reference} {line : Line} (hm : p.expr? m = some (.select object r line))
    {before after : List Entry} {b : Binding}
    (hjournal : (finish p).journal.toList = before ++ .name m b :: after) :
    ∃ st, Reached p st ∧ st.journal.toList = before ∧ b = st.selected p object r line := by
  obtain ⟨st, hst, hbefore, ⟨_, _, _, h, -⟩ | ⟨object', r', line', h, hb⟩⟩ :=
    exists_reached_of_name hp hjournal
  · simp [hm] at h
  · obtain ⟨rfl, rfl, rfl⟩ : object = object' ∧ r = r' ∧ line = line' := by simpa [hm] using h
    exact ⟨st, hst, hbefore, hb⟩

/-! ### The names looked up -/

/-- The expression whose name an entry is about. -/
def Entry.looked? : Entry → Option ExprId
  | .name e _ => some e
  | _ => none

namespace Script

variable {p : Program}

/-- The expressions whose names a script looks up. -/
def lookups (p : Program) : Script → List ExprId
  | skip | meet _ | enter _ => []
  | seq a b => a.lookups p ++ b.lookups p
  | bind e => if (p.reference? e).isSome then [e] else []
  | within _ body => body.lookups p

@[simp] lemma lookups_each {α : Type} (f : α → Script) (xs : List α) :
    (each f xs).lookups p = xs.flatMap fun x => (f x).lookups p := by
  induction xs with
  | nil => rfl
  | cons x xs ih => simp [each, lookups, ih]

lemma lookups_expr (hp : p.Allocated) (e : ExprId) : (expr p e).lookups p =
    (p.operands e).flatMap (fun c => (expr p c).lookups p) ++
      if (p.reference? e).isSome then [e] else [] := by
  rw [expr_eq hp]
  simp [lookups, exprs]

/-- A script writes an entry for each name that it looks up. -/
lemma looked_run (c : Script) (scope : ScopeId) (st : Pass) :
    (c.run p scope st).journal.toList.filterMap Entry.looked? =
      st.journal.toList.filterMap Entry.looked? ++ c.lookups p := by
  induction c generalizing scope st with
  | skip => simp [run, lookups]
  | seq a b iha ihb => rw [run, ihb, iha, lookups, List.append_assoc]
  | meet e => simp [run, lookups, Pass.note, Entry.looked?]
  | bind e =>
    obtain ⟨r, l, he, h⟩ | ⟨o, r, l, he, h⟩ | ⟨he, h⟩ := Pass.bindOwn_cases p scope st e
    · simp [run, lookups, h, Entry.looked?, Program.reference?, he, Expr.reference?]
    · simp [run, lookups, h, Entry.looked?, Program.reference?, he, Expr.reference?]
    · simp [run, lookups, h, he]
  | enter v =>
    obtain ⟨-, h⟩ | ⟨sym, -, ⟨t, ht, h⟩ | ⟨w, -, h⟩⟩ := Pass.declare_cases p scope st v <;>
      simp [run, lookups, h, Pass.note, Entry.looked?]
  | within key body ih =>
    simp only [run, lookups, Pass.journal_closeFor]
    rw [ih, Pass.journal_openFor]

lemma looked_runAll (scripts : List (ScopeId × Script)) (st : Pass) :
    (runAll p scripts st).journal.toList.filterMap Entry.looked? =
      st.journal.toList.filterMap Entry.looked? ++ scripts.flatMap fun x => x.2.lookups p := by
  induction scripts generalizing st with
  | nil => simp
  | cons x xs ih => rw [runAll_cons, ih, looked_run, List.flatMap_cons, List.append_assoc]

end Script

/-- The expressions whose names are looked up, in the order of the pass. -/
def Program.lookups (p : Program) : List ExprId := p.scripts.flatMap fun x => x.2.lookups p

/-- **The order of the look-ups depends on the program only**. -/
theorem Pass.looked_finish (p : Program) :
    (finish p).journal.toList.filterMap Entry.looked? = p.lookups := by
  have hstart : (start p).journal.toList.filterMap Entry.looked? = [] := by
    refine List.filterMap_eq_nil_iff.mpr fun x hx => ?_
    have h := (onlyBases_start p).journal x hx
    cases x with
    | name e b => exact h.elim
    | _ => rfl
  unfold finish Program.lookups
  rw [Script.looked_runAll, hstart, List.nil_append]

/-! ### Last entries -/

/-- The last element that gives something. -/
lemma exists_last {α β : Type} {f : α → Option β} {l : List α} (h : ∃ x ∈ l, (f x).isSome) :
    ∃ l₁ x y l₂, l = l₁ ++ x :: l₂ ∧ f x = some y ∧ ∀ z ∈ l₂, f z = none := by
  induction l with
  | nil => simp at h
  | cons a l ih =>
    by_cases htail : ∃ x ∈ l, (f x).isSome
    · obtain ⟨l₁, x, y, l₂, rfl, hx, hl₂⟩ := ih htail
      exact ⟨a :: l₁, x, y, l₂, rfl, hx, hl₂⟩
    · obtain ⟨x, hx, hsome⟩ := h
      have hrest : ∀ z ∈ l, f z = none := by simpa using htail
      rcases List.mem_cons.mp hx with rfl | hx
      · obtain ⟨y, hy⟩ := Option.isSome_iff_exists.mp hsome
        exact ⟨[], x, y, l, rfl, hy, hrest⟩
      · exact absurd ⟨x, hx, hsome⟩ htail

lemma Entry.looked?_of_target? {e : ExprId} {x : Entry} {t : SymbolId} (h : x.target? e = some t) :
    x.looked? = some e := by
  cases x with
  | name e' b =>
    simp only [Entry.target?] at h
    split at h
    · next he => exact congrArg some he
    · simp at h
  | _ => simp [Entry.target?] at h

lemma Entry.exists_name_of_looked? {e : ExprId} {x : Entry} (h : x.looked? = some e) :
    ∃ b, x = .name e b := by
  cases x with
  | name e' b =>
    obtain rfl : e' = e := by simpa [Entry.looked?] using h
    exact ⟨b, rfl⟩
  | _ => simp [Entry.looked?] at h

/-- An entry that binds a name leaves it bound. -/
lemma Program.boundBy_isSome {p : Program} {entries : List Entry} {e : ExprId} {x : Entry}
    {t : SymbolId} (he : (p.reference? e).isSome) (hx : x ∈ entries) (ht : x.target? e = some t) :
    (p.boundBy entries e).isSome := by
  obtain ⟨r, hr⟩ := Option.isSome_iff_exists.mp he
  have hmem : t ∈ entries.filterMap (Entry.target? e) := List.mem_filterMap.mpr ⟨x, hx, ht⟩
  have hlast : (entries.filterMap (Entry.target? e)).getLast?.isSome := by
    rw [List.getLast?_isSome]
    exact List.ne_nil_of_mem hmem
  rw [Program.boundBy, hr, Option.bind_some, Option.isSome_or, hlast, Bool.or_true]

/-- Entries that bind no name leave all bound as they were. -/
lemma Program.boundBy_append_of_target? {p : Program} {l₁ l₂ : List Entry} {e : ExprId}
    (h : ∀ x ∈ l₂, x.target? e = none) : p.boundBy (l₁ ++ l₂) e = p.boundBy l₁ e := by
  unfold Program.boundBy
  rw [List.filterMap_append, List.filterMap_eq_nil_iff.mpr h, List.append_nil]

/-- Entries that do not look up a name leave it bound as it was. -/
lemma Program.boundBy_append {p : Program} {l₁ l₂ : List Entry} {e : ExprId}
    (h : e ∉ l₂.filterMap Entry.looked?) : p.boundBy (l₁ ++ l₂) e = p.boundBy l₁ e := by
  refine Program.boundBy_append_of_target? fun x hx => ?_
  cases ht : x.target? e with
  | none => rfl
  | some t => exact absurd (List.mem_filterMap.mpr ⟨x, hx, Entry.looked?_of_target? ht⟩) h

end NameBinding
