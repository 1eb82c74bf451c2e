import NameBinding.Proofs.Steps

/-!
What the first part of the pass leaves: base classes bound, and in the journal only entries about
base classes. From there the pass over the bodies takes its steps to the end.
-/

namespace NameBinding

/-- The causes that a base class can give. -/
def Cause.OfBase : Cause → Prop
  | .unknownBase _ _ | .baseNotAClass _ _ _ | .cyclicInheritance _ => True
  | _ => False

def Entry.OfBase : Entry → Prop
  | .base _ _ | .basesDone _ => True
  | .fault f => f.cause.OfBase
  | _ => False

/-- The class `t` is what the name of the base of `s` means at the top. -/
def Program.NamesBase (p : Program) (s t : SymbolId) : Prop :=
  ∃ b, (p.symbol? s).bind (·.baseClass?) = some b ∧ b.reference.isBound = false ∧
    p.scopes.declared? ScopeTree.global b.reference.name = some t ∧ (p.class? t).isSome

namespace Pass

variable {p : Program} {st : Pass}

/-- Nothing but base classes has been looked at. -/
structure OnlyBases (p : Program) (st : Pass) : Prop where
  scopes : st.scopes = p.scopes
  bindings : st.bindings = { baseClasses := st.bindings.baseClasses }
  journal : ∀ x ∈ st.journal.toList, x.OfBase
  named : ∀ s t, st.bindings.baseClasses.get? s = some t → p.NamesBase s t

lemma OnlyBases.note (h : OnlyBases p st) {x : Entry} (hx : x.OfBase) :
    OnlyBases p (st.note x) := by
  refine ⟨h.scopes, h.bindings, fun y hy => ?_, h.named⟩
  have hnote : (st.note x).journal.toList = st.journal.toList ++ [x] := Array.toList_push
  rw [hnote, List.mem_append, List.mem_singleton] at hy
  rcases hy with hy | rfl
  · exact h.journal y hy
  · exact hx

/-- What is to be done for a class: nothing, a base class bound, or a fault noted. -/
lemma bindBase_cases (p : Program) (st : Pass) (s : SymbolId) :
    (st.bindBase p s = st ∧
      ∀ b, (p.symbol? s).bind (·.baseClass?) = some b → b.reference.isBound = true) ∨
    (∃ b t, (p.symbol? s).bind (·.baseClass?) = some b ∧ b.reference.isBound = false ∧
      st.scopes.declared? ScopeTree.global b.reference.name = some t ∧ (p.class? t).isSome ∧
      st.bindBase p s =
        { st with bindings.baseClasses := st.bindings.baseClasses.insert s t }.note (.base s t)) ∨
    ∃ f : Fault, f.cause.OfBase ∧ st.bindBase p s = st.note (.fault f) := by
  unfold bindBase
  cases hs : (p.symbol? s).bind (·.baseClass?) with
  | none => exact .inl ⟨rfl, by simp⟩
  | some b =>
    by_cases hb : b.reference.isBound
    · refine .inl ⟨if_pos hb, fun b' hb' => ?_⟩
      obtain rfl := Option.some.inj hb'
      exact hb
    · cases ht : st.scopes.declared? ScopeTree.global b.reference.name with
      | none =>
        refine .inr (.inr ⟨⟨.unknownBase (p.symbolText s) (p.text b.reference.name), b.line,
          p.classes.map p.symbolText⟩, trivial, ?_⟩)
        simp only [if_neg hb, ht]
      | some t =>
        by_cases hc : (p.class? t).isSome
        · exact .inr (.inl ⟨b, t, rfl, Bool.eq_false_iff.mpr hb, ht, hc,
            by simp only [if_neg hb, ht, if_pos hc]⟩)
        · refine .inr (.inr ⟨⟨.baseNotAClass (p.symbolText s) (p.text b.reference.name)
            (((p.symbol? t).map (·.kind.display)).getD ""), b.line, []⟩, trivial, ?_⟩)
          simp only [if_neg hb, ht, if_neg hc]

lemma checkCycle_cases (p : Program) (st : Pass) (s : SymbolId) :
    st.checkCycle p s = st ∨
      ∃ f : Fault, f.cause.OfBase ∧ st.checkCycle p s = st.note (.fault f) := by
  unfold checkCycle
  split
  · exact .inr ⟨⟨.cyclicInheritance _, _, _⟩, trivial, rfl⟩
  · exact .inl rfl

lemma OnlyBases.bindBase (h : OnlyBases p st) (s : SymbolId) : OnlyBases p (st.bindBase p s) := by
  obtain ⟨hs, -⟩ | ⟨b, t, hb, hfree, ht, hc, hs⟩ | ⟨f, hf, hs⟩ := bindBase_cases p st s
  · rwa [hs]
  · rw [hs]
    rw [h.scopes] at ht
    have hbound : OnlyBases p
        { st with bindings.baseClasses := st.bindings.baseClasses.insert s t } := by
      refine ⟨h.scopes, by rw [h.bindings], h.journal, fun s' t' hget => ?_⟩
      rw [OrderedMap.get?_insert] at hget
      split at hget
      · next heq =>
        obtain rfl := Option.some.inj hget
        exact heq ▸ ⟨b, hb, hfree, ht, hc⟩
      · exact h.named s' t' hget
    exact hbound.note trivial
  · rw [hs]
    exact h.note hf

lemma OnlyBases.checkCycle (h : OnlyBases p st) (s : SymbolId) :
    OnlyBases p (st.checkCycle p s) := by
  obtain hs | ⟨f, hf, hs⟩ := checkCycle_cases p st s
  · rwa [hs]
  · rw [hs]
    exact h.note hf

lemma OnlyBases.foldl {f : Pass → SymbolId → Pass}
    (hf : ∀ st s, OnlyBases p st → OnlyBases p (f st s)) (xs : List SymbolId)
    (h : OnlyBases p st) : OnlyBases p (xs.foldl f st) := by
  induction xs generalizing st with
  | nil => exact h
  | cons x xs ih => exact ih (hf st x h)

lemma onlyBases_start (p : Program) : OnlyBases p (start p) := by
  have h0 : OnlyBases p { scopes := p.scopes } := ⟨rfl, rfl, by simp, by simp⟩
  have h1 := h0.foldl (fun st s h => h.bindBase s) p.classes
  have h2 := h1.foldl (fun st s h => h.checkCycle s) p.classes
  exact h2.note trivial

@[simp] lemma scopes_start (p : Program) : (start p).scopes = p.scopes := (onlyBases_start p).scopes

/-- No name of an expression has been looked up yet. -/
lemma targets_start (p : Program) (e : ExprId) :
    (start p).journal.toList.filterMap (Entry.target? e) = [] := by
  refine List.filterMap_eq_nil_iff.mpr fun x hx => ?_
  have h := (onlyBases_start p).journal x hx
  cases x with
  | name e' b => exact h.elim
  | _ => rfl

lemma recorded_start (p : Program) : (start p).Recorded := by
  intro e
  rw [targets_start, (onlyBases_start p).bindings]
  rfl

/-! ### Bases without faults -/

/-- A class has the base it asks for, in the program or by the bindings. -/
def HasBase (p : Program) (st : Pass) (s : SymbolId) : Prop :=
  ∀ b, (p.symbol? s).bind (·.baseClass?) = some b → b.reference.isBound = false →
    st.bindings.baseClasses.contains s = true

lemma journal_prefix_bindBase (p : Program) (st : Pass) (s : SymbolId) :
    st.journal.toList <+: (st.bindBase p s).journal.toList := by
  obtain ⟨hs, -⟩ | ⟨b, t, -, -, -, -, hs⟩ | ⟨f, -, hs⟩ := bindBase_cases p st s <;>
    simp [hs, Pass.note]

/-- Looking for a cycle binds nothing. -/
lemma bindings_checkCycle (p : Program) (st : Pass) (s : SymbolId) :
    (st.checkCycle p s).bindings = st.bindings := by
  obtain h | ⟨f, -, h⟩ := checkCycle_cases p st s <;> simp [h, Pass.note]

lemma journal_prefix_foldl {f : Pass → SymbolId → Pass}
    (hf : ∀ st s, st.journal.toList <+: (f st s).journal.toList) (xs : List SymbolId) (st : Pass) :
    st.journal.toList <+: (xs.foldl f st).journal.toList := by
  induction xs generalizing st with
  | nil => exact List.prefix_refl _
  | cons s xs ih => exact (hf st s).trans (ih (f st s))

/-- Bases that were found stay; and without faults a class has its base once it was looked at. -/
lemma hasBase_bindBase {s t : SymbolId} (h : t = s ∨ HasBase p st t)
    (hquiet : ∀ x ∈ (st.bindBase p s).journal.toList, x.fault? = none) :
    HasBase p (st.bindBase p s) t := by
  obtain ⟨hs, hbound⟩ | ⟨b, u, -, -, -, -, hs⟩ | ⟨f, -, hs⟩ := bindBase_cases p st s
  · rw [hs]
    rcases h with rfl | h
    · exact fun b hb hfree => absurd (hbound b hb) (by simp [hfree])
    · exact h
  · have hcontains : (st.bindBase p s).bindings.baseClasses.contains t = true ↔
        t = s ∨ st.bindings.baseClasses.contains t = true := by
      rw [hs]
      by_cases ht : t = s <;> simp [Pass.note, OrderedMap.contains, OrderedMap.get?_insert, ht]
    exact fun b' hb' hfree => hcontains.mpr (h.imp id fun h => h b' hb' hfree)
  · have hfault := hquiet (.fault f) (by simp [hs, Pass.note])
    simp [Entry.fault?] at hfault

lemma hasBase_foldl {xs : List SymbolId} {t : SymbolId} (h : t ∈ xs ∨ HasBase p st t)
    (hquiet : ∀ x ∈ (xs.foldl (bindBase p) st).journal.toList, x.fault? = none) :
    HasBase p (xs.foldl (bindBase p) st) t := by
  induction xs generalizing st with
  | nil => simpa using h
  | cons s xs ih =>
    have hs : ∀ x ∈ (st.bindBase p s).journal.toList, x.fault? = none := fun x hx =>
      hquiet x ((journal_prefix_foldl (journal_prefix_bindBase p) xs _).subset hx)
    rw [List.mem_cons, or_assoc, or_left_comm] at h
    exact ih (h.imp id fun h => hasBase_bindBase h hs) hquiet

lemma bindings_foldl_checkCycle (p : Program) (xs : List SymbolId) (st : Pass) :
    (xs.foldl (checkCycle p) st).bindings = st.bindings := by
  induction xs generalizing st with
  | nil => rfl
  | cons s xs ih => exact (ih _).trans (bindings_checkCycle p st s)

/-- Looking for cycles notes a fault for each class that is its own ancestor. -/
lemma journal_foldl_checkCycle (p : Program) (xs : List SymbolId) (st : Pass) :
    (xs.foldl (checkCycle p) st).journal.toList = st.journal.toList ++
      (xs.filter (p.isOwnAncestor st.bindings)).map fun s =>
        .fault ⟨.cyclicInheritance (p.symbolText s), p.symbolLine s, []⟩ := by
  induction xs generalizing st with
  | nil => simp
  | cons s xs ih =>
    rw [List.foldl_cons, ih, bindings_checkCycle, checkCycle]
    by_cases hs : p.isOwnAncestor st.bindings s
    · simp [hs, Pass.note]
    · simp [hs]

/-- The journal of the bases: what came of binding them, then the classes on cycles. -/
lemma journal_start (p : Program) : (start p).journal.toList =
    (p.classes.foldl (bindBase p) { scopes := p.scopes }).journal.toList ++
      ((p.classes.filter (p.isOwnAncestor (start p).bindings)).map fun s =>
        .fault ⟨.cyclicInheritance (p.symbolText s), p.symbolLine s, []⟩) ++
      [.basesDone (start p).bindings.baseClasses.size] := by
  set st := p.classes.foldl (bindBase p) { scopes := p.scopes }
  have hbindings : (start p).bindings = st.bindings := bindings_foldl_checkCycle p p.classes st
  have hjournal : (start p).journal.toList = (p.classes.foldl (checkCycle p) st).journal.toList ++
      [.basesDone (start p).bindings.baseClasses.size] := Array.toList_push
  rw [hjournal, journal_foldl_checkCycle, hbindings]

/-- Without faults no class at the top inherits from itself. -/
lemma isOwnAncestor_start (hquiet : ∀ x ∈ (start p).journal.toList, x.fault? = none) {s : SymbolId}
    (hs : s ∈ p.classes) : p.isOwnAncestor (start p).bindings s = false := by
  by_contra hcycle
  have hnoted : Entry.fault ⟨.cyclicInheritance (p.symbolText s), p.symbolLine s, []⟩ ∈
      (start p).journal.toList := by
    rw [journal_start]
    refine List.mem_append_left _ (List.mem_append_right _ (List.mem_map.mpr ⟨s, ?_, rfl⟩))
    exact List.mem_filter.mpr ⟨hs, by simpa using hcycle⟩
  have hfault := hquiet _ hnoted
  simp [Entry.fault?] at hfault

/-- Without faults every class at the top has its base when the pass over the bodies starts. -/
lemma hasBase_start (hquiet : ∀ x ∈ (start p).journal.toList, x.fault? = none) {s : SymbolId}
    (hs : s ∈ p.classes) : HasBase p (start p) s := by
  set st := p.classes.foldl (bindBase p) { scopes := p.scopes }
  have hbindings : (start p).bindings = st.bindings := bindings_foldl_checkCycle p p.classes st
  have hjournal : st.journal.toList ⊆ (start p).journal.toList := by
    rw [journal_start, List.append_assoc]
    exact List.subset_append_left ..
  have hbase := hasBase_foldl (.inl hs) fun x hx => hquiet x (hjournal hx)
  intro b hb
  rw [hbindings]
  exact hbase b hb

end Pass

/-! ### Bases and bodies -/

/-- The bases of classes are not touched any more when bodies are resolved. -/
lemma Script.baseClasses_run {p : Program} (c : Script) (scope : ScopeId) (st : Pass) :
    (c.run p scope st).bindings.baseClasses = st.bindings.baseClasses := by
  induction c generalizing scope st with
  | skip => rfl
  | seq a b iha ihb => exact (ihb scope _).trans (iha scope st)
  | meet e => rfl
  | bind e =>
    obtain ⟨_, _, -, h⟩ | ⟨_, _, _, -, h⟩ | ⟨-, h⟩ := Pass.bindOwn_cases p scope st e <;>
      simp [run, h]
  | enter v =>
    obtain ⟨-, h⟩ | ⟨sym, -, ⟨t, -, h⟩ | ⟨w, -, h⟩⟩ := Pass.declare_cases p scope st v <;>
      simp [run, h, Pass.note]
  | within key body ih => rw [run, Pass.baseClasses_closeFor, ih, Pass.baseClasses_openFor]

lemma Script.baseClasses_runAll {p : Program} (scripts : List (ScopeId × Script)) (st : Pass) :
    (runAll p scripts st).bindings.baseClasses = st.bindings.baseClasses := by
  induction scripts generalizing st with
  | nil => rfl
  | cons x xs ih => rw [runAll_cons, ih, baseClasses_run]

lemma Pass.baseClasses_finish (p : Program) :
    (finish p).bindings.baseClasses = (start p).bindings.baseClasses :=
  Script.baseClasses_runAll p.scripts (start p)

/-! ### The steps to the end -/

namespace Program

variable {p : Program}

lemma Allocated.rooted (hp : p.Allocated) : p.scopes.Rooted := by
  intro s q h
  obtain ⟨sc, hsc, hq⟩ := Option.bind_eq_some_iff.mp h
  exact (hp.scopes s sc hsc).1 q (by simp [hq])

/-- Classes and enums are resolved in scopes right under the global one. -/
lemma Listed.parent_of_mem_scripts (hp : p.Listed) {x : ScopeId × Script} (hx : x ∈ p.scripts) :
    p.scopes.parent? x.1 = some ScopeTree.global := by
  obtain ⟨s, hs, c, hc, rfl⟩ | ⟨s, hs, t, ht, rfl⟩ := scripts_cases hx
  · exact (hp.lists hs hc).parent
  · obtain ⟨t', ht', hpar⟩ := hp.enums s hs
    obtain rfl := Option.some.inj (ht.symm.trans ht')
    exact hpar

lemma Listed.lt_of_mem_scripts (hp : p.Listed) {x : ScopeId × Script} (hx : x ∈ p.scripts) :
    x.1.index < p.scopes.size := by
  obtain ⟨sc, hsc, -⟩ := Option.bind_eq_some_iff.mp (hp.parent_of_mem_scripts hx)
  exact ScopeTree.lt_of_scope? hsc

end Program

namespace Pass

variable {p : Program}

lemma steps_finish (hp : p.Listed) : Steps p (start p) (finish p) :=
  Script.runAll_steps (by simp) fun _ hx =>
    ⟨hp.lt_of_mem_scripts hx, Script.entered_of_mem_scripts hx⟩

lemma recorded_finish (hp : p.Listed) : (finish p).Recorded :=
  (steps_finish hp).keep (fun _ _ h => h.recorded) (recorded_start p)

lemma fits_finish (hp : p.Listed) : ∀ x ∈ (finish p).journal.toList, x.Fits p := by
  refine (steps_finish hp).keep (I := fun st => ∀ x ∈ st.journal.toList, x.Fits p)
    (fun _ _ h => h.fits) fun x hx => ?_
  have h := (onlyBases_start p).journal x hx
  cases x with
  | name e b => exact h.elim
  | _ => trivial

end Pass

end NameBinding
