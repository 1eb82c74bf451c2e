import NameBinding.Proofs.Reachability
import NameBinding.Proofs.Targets

/-!
What a pass without errors leaves unbound. All plain names and all base classes are bound. A member
is left unbound, and nothing is reported, if nothing is known of the type of its object: the object
is a value whose declared type is no name, or a name not bound yet that the global scope does not
declare.
-/

namespace NameBinding

/-! ### Objects of unknown type -/

namespace Program

variable {p : Program}

/-- By some entries nothing is known of the type of an object: it is bound to a value whose declared
type is unknown, or it is a member of such an object, and not bound itself. -/
inductive Untyped (p : Program) (entries : List Entry) : ExprId → Prop
  | value {object : ExprId} {t : SymbolId} {v : TypedValue} : p.boundBy entries object = some t →
    p.typedValue? t = some v → p.declaredTypeBy entries v = none → Untyped p entries object
  | member {m object : ExprId} {n : Name} {line : Line} :
    p.expr? m = some (.select object (.free n) line) → p.boundBy entries m = none →
    Untyped p entries object → Untyped p entries m

/-- Entries that bind nothing tell nothing of types. -/
lemma Untyped.append {entries rest : List Entry} {object : ExprId} (h : p.Untyped entries object)
    (hrest : ∀ x ∈ rest, ∀ e, x.target? e = none) : p.Untyped (entries ++ rest) object := by
  have hbound : ∀ e, p.boundBy (entries ++ rest) e = p.boundBy entries e := fun e =>
    boundBy_append_of_target? fun x hx => hrest x hx e
  induction h with
  | value hb hv hty =>
    refine .value ((hbound _).trans hb) hv ?_
    rw [declaredTypeBy, hbound]
    exact hty
  | member hm hb _ ih => exact .member hm ((hbound _).trans hb) ih

/-- A type that is known before any name is looked up stays known. -/
lemma not_untyped (htypes : ∀ t v, p.typedValue? t = some v → (p.declaredTypeBy [] v).isSome)
    (entries : List Entry) (object : ExprId) : ¬ p.Untyped entries object := by
  intro h
  induction h with
  | @value _ t v _ hv hnone =>
    have hsome := htypes t v hv
    simp only [declaredTypeBy, Option.or_eq_none_iff] at hnone
    obtain ⟨hbound, hglobal⟩ := hnone
    rw [declaredTypeBy, hglobal, Option.or_none, boundBy] at hsome
    rw [boundBy] at hbound
    cases href : p.reference? v.type with
    | none => simp [href] at hsome
    | some r => cases r <;> simp [href, Reference.target?] at hbound hsome
  | member _ _ _ ih => exact ih

/-- A member was looked up at a time when something was known of the type of its object. -/
def SeenTyped (p : Program) (m object : ExprId) : Prop :=
  ∃ before b after, (Pass.run p).journal.toList = before ++ .name m b :: after ∧
    ¬ p.Untyped before object

end Program

namespace Pass

variable {p : Program} {st : Pass} {object : ExprId}

/-- The owner of members is unknown if nothing is known of the type of the object. -/
lemma Reached.owner_of_untyped (h : Reached p st) (hp : p.Listed)
    (hobject : p.Untyped st.journal.toList object) : st.owner p object = .unknown := by
  unfold owner
  rw [h.bound?]
  cases hobject with
  | @value _ t v hb hv hty =>
    obtain ⟨sym, hsym, hvalue⟩ := Option.bind_eq_some_iff.mp hv
    rw [← h.declaredType? hp] at hty
    obtain ⟨-, ho⟩ | ⟨ty, hd, -⟩ := ownerOf_value p st t hvalue
    · simp [hb, hsym, ho]
    · simp [hd] at hty
  | member hm hb _ => simp [hb, Program.reference?, hm, Expr.reference?]

/-- Conversely, the object is then bound to a value of unknown type, or it is a free name. -/
lemma Reached.cases_of_owner_unknown (h : Reached p st) (hp : p.Listed)
    (hsymbol : ∀ t, p.boundBy st.journal.toList object = some t → ∃ sym, p.symbol? t = some sym)
    (hunknown : st.owner p object = .unknown) :
    p.Untyped st.journal.toList object ∨
      p.boundBy st.journal.toList object = none ∧ ∃ n, p.reference? object = some (.free n) := by
  unfold owner at hunknown
  rw [h.bound?] at hunknown
  cases hb : p.boundBy st.journal.toList object with
  | none =>
    refine .inr ⟨rfl, ?_⟩
    simp only [hb] at hunknown
    cases href : p.reference? object with
    | none => simp [href] at hunknown
    | some r =>
      cases r with
      | free n => exact ⟨n, rfl⟩
      | bound n t => simp [Program.boundBy, href, Reference.target?] at hb
  | some t =>
    left
    obtain ⟨sym, hsym⟩ := hsymbol t hb
    simp only [hb, hsym] at hunknown
    cases hvalue : sym.typedValue? with
    | some v =>
      refine .value hb (by rw [Program.typedValue?, hsym]; exact hvalue) ?_
      rw [← h.declaredType? hp]
      obtain ⟨hd, -⟩ | ⟨ty, -, ⟨-, ho⟩ | ⟨what, ho⟩⟩ := ownerOf_value p st t hvalue
      · exact hd
      · simp [ho] at hunknown
      · simp [ho] at hunknown
    | none =>
      obtain ⟨n, line, kind⟩ := sym
      cases kind <;> simp [ownerOf, Symbol.typedValue?] at hunknown hvalue

/-- What becomes of a free plain name, if not a fault. -/
lemma lexical_free {scope : ScopeId} {n : Name} {line : Line} :
    (∃ t, st.lexical p scope (.free n) line = .lexical t) ∨
      ∃ f, st.lexical p scope (.free n) line = .failed f := by
  unfold lexical
  simp only [Reference.isBound, Reference.target?, Option.isSome_none, Bool.false_eq_true, if_false]
  cases st.scopes.lookup scope (Reference.free n).name with
  | some t => exact .inl ⟨t, rfl⟩
  | none => exact .inr ⟨_, rfl⟩

/-- What becomes of a free member, if not a fault. -/
lemma selected_free {n : Name} {line : Line} :
    (st.owner p object = .unknown ∧ st.selected p object (.free n) line = .skipped) ∨
      (st.owner p object ≠ .unknown ∧
        ((∃ t x, st.selected p object (.free n) line = .member t x) ∨
          ∃ f, st.selected p object (.free n) line = .failed f)) := by
  cases howner : st.owner p object with
  | unknown =>
    refine .inl ⟨rfl, ?_⟩
    simp [selected, Reference.isBound, Reference.target?, howner]
  | nothing what =>
    refine .inr ⟨by simp, .inr ⟨⟨.noMembers (p.text n) what, line, []⟩, ?_⟩⟩
    simp [selected, Reference.isBound, Reference.target?, howner, Reference.name]
  | type t =>
    refine .inr ⟨by simp, ?_⟩
    rcases selected_of_owner howner with ⟨x, hx⟩ | hf
    · exact .inl ⟨t, x, hx⟩
    · exact .inr hf

end Pass

/-! ### A pass without faults -/

section Quiet

variable {p : Program} (hp : p.WellFormed)
  (hquiet : ∀ x ∈ (Pass.finish p).journal.toList, x.fault? = none)
  {before after : List Entry} {b : Binding}
include hp hquiet

omit hp in
lemma ne_failed {e : ExprId}
    (hjournal : (Pass.finish p).journal.toList = before ++ .name e b :: after) (f : Fault) :
    b ≠ .failed f := by
  rintro rfl
  have hfault := hquiet (.name e (.failed f)) (by rw [hjournal]; simp)
  simp [Entry.fault?] at hfault

/-- A free plain name that was looked up is bound. -/
lemma exists_lexical {e : ExprId} {n : Name} {line : Line}
    (he : p.expr? e = some (.ident (.free n) line))
    (hjournal : (Pass.finish p).journal.toList = before ++ .name e b :: after) :
    ∃ t, b = .lexical t := by
  obtain ⟨st, -, -, hname⟩ := Pass.exists_reached_of_name hp.listed hjournal
  obtain ⟨scope, r, l, h, hb⟩ | ⟨object, r, l, h, -⟩ := hname
  · obtain ⟨rfl, rfl⟩ : Reference.free n = r ∧ line = l := by simpa [he] using h
    rcases Pass.lexical_free with ⟨t, ht⟩ | ⟨f, hf⟩
    · exact ⟨t, hb.trans ht⟩
    · exact absurd (hb.trans hf) (ne_failed hquiet hjournal f)
  · simp [he] at h

/-- A free member that was looked up is bound, or its owner was unknown and it was skipped. -/
lemma exists_selected {m object : ExprId} {n : Name} {line : Line}
    (hm : p.expr? m = some (.select object (.free n) line))
    (hjournal : (Pass.finish p).journal.toList = before ++ .name m b :: after) :
    ∃ st, Pass.Reached p st ∧ st.journal.toList = before ∧
      ((st.owner p object = .unknown ∧ b = .skipped) ∨
        st.owner p object ≠ .unknown ∧ ∃ t x, b = .member t x) := by
  obtain ⟨st, hst, hbefore, hb⟩ := Pass.exists_reached_of_select hp.listed hm hjournal
  refine ⟨st, hst, hbefore, ?_⟩
  rw [hb]
  rcases Pass.selected_free with hskipped | ⟨hne, hmember | ⟨f, hf⟩⟩
  · exact .inl hskipped
  · exact .inr ⟨hne, hmember⟩
  · exact absurd (hb.trans hf) (ne_failed hquiet hjournal f)

omit hp hquiet in
/-- The entry about the object of a member comes right before that about the member. -/
lemma exists_entry_of_object (hp : p.Allocated) {m object : ExprId} {r : Reference} {line : Line}
    (hm : p.expr? m = some (.select object r line)) (hobject : (p.reference? object).isSome)
    (hjournal : (Pass.finish p).journal.toList = before ++ .name m b :: after) :
    ∃ before' b' rest, before = before' ++ .name object b' :: rest ∧
      ∀ x ∈ rest, x.looked? = none := by
  have hlookups := Pass.looked_finish p
  have hlooked : Entry.looked? (.name m b) = some m := rfl
  rw [hjournal, List.filterMap_append, List.filterMap_cons_some hlooked] at hlookups
  obtain ⟨l₀, hl₀⟩ := Program.preceded_lookups hp hm hobject _ _ hlookups.symm
  obtain ⟨l₁, l₂, rfl, -, hl₂⟩ := List.filterMap_eq_append_iff.mp hl₀
  obtain ⟨k₁, y, k₂, rfl, -, hy, hk₂⟩ := List.filterMap_eq_cons_iff.mp hl₂
  obtain ⟨b', rfl⟩ := Entry.exists_name_of_looked? hy
  exact ⟨l₁ ++ k₁, b', k₂, by simp, List.filterMap_eq_nil_iff.mp hk₂⟩

/-- A member is skipped exactly if nothing is known of the type of its object. -/
lemma skipped_iff_untyped {m object : ExprId} {n : Name} {line : Line}
    (hm : p.expr? m = some (.select object (.free n) line))
    (hjournal : (Pass.finish p).journal.toList = before ++ .name m b :: after) :
    b = .skipped ↔ p.Untyped before object := by
  -- by induction on the member: its object was looked up right before, perhaps as a member itself
  induction hk : m.index using Nat.strong_induction_on
    generalizing m object n line before after b with
  | _ k ih =>
    subst hk
    obtain ⟨st, hst, hbefore, hcases⟩ := exists_selected hp hquiet hm hjournal
    have hunknown : b = .skipped ↔ st.owner p object = .unknown := by
      rcases hcases with ⟨howner, rfl⟩ | ⟨howner, t, x, rfl⟩
      · simp [howner]
      · simp [howner]
    rw [hunknown]
    refine ⟨fun howner => ?_, fun hobject => hst.owner_of_untyped hp.listed (hbefore ▸ hobject)⟩
    have hsubset : before ⊆ (Pass.finish p).journal.toList := by
      rw [hjournal]
      exact List.subset_append_left _ _
    have hcases := hst.cases_of_owner_unknown hp.listed
      (fun t ht => Program.symbol?_of_boundBy hp (hbefore ▸ hsubset) ht) howner
    rw [hbefore] at hcases
    rcases hcases with hobject | ⟨hnone, n', hfree⟩
    · exact hobject
    · -- the entry about the object
      obtain ⟨before', b', rest, rfl, hrest⟩ :=
        exists_entry_of_object hp.allocated hm (by simp [hfree]) hjournal
      have hjournal' : (Pass.finish p).journal.toList =
          before' ++ .name object b' :: (rest ++ .name m b :: after) := by
        rw [hjournal]
        simp
      have hbound : ∀ t, b'.target? ≠ some t := by
        intro t ht
        have hsome := Program.boundBy_isSome (p := p) (e := object) (t := t) (by simp [hfree])
          (by simp : Entry.name object b' ∈ before' ++ .name object b' :: rest)
          (by simpa [Entry.target?] using ht)
        simp [hnone] at hsome
      obtain ⟨x, hx, href⟩ := Option.bind_eq_some_iff.mp hfree
      cases x with
      | ident r l =>
        obtain rfl : r = .free n' := by simpa [Expr.reference?] using href
        obtain ⟨t, rfl⟩ := exists_lexical hp hquiet hx hjournal'
        exact absurd rfl (hbound t)
      | select object' r l =>
        obtain rfl : r = .free n' := by simpa [Expr.reference?] using href
        have hlt := Script.operand_lt hp.allocated
          (by simp [Program.operands_select hm] : object ∈ p.operands m)
        have hskipped : b' = .skipped := by
          obtain ⟨-, -, -, ⟨-, h⟩ | ⟨-, t, y, rfl⟩⟩ := exists_selected hp hquiet hx hjournal'
          · exact h
          · exact absurd rfl (hbound y)
        have hobject := (ih object.index hlt hx hjournal' rfl).mp hskipped
        refine .member hx hnone (hobject.append fun y hy e => ?_)
        rcases List.mem_cons.mp hy with rfl | hy
        · simp [hskipped, Entry.target?, Binding.target?]
        · cases ht : y.target? e with
          | none => rfl
          | some t =>
            have hlooked := Entry.looked?_of_target? ht
            simp [hrest y hy] at hlooked
      | _ => simp [Expr.reference?] at href

end Quiet

/-! ### What is bound in the end -/

section Covered

variable {p : Program} {o : Options}

/-- A name is covered by the bindings if some entry binds it. -/
lemma covered_iff (hp : p.Listed) (e : ExprId) :
    (p.bindings o).1.references.contains e = true ↔
      ∃ b t, Entry.name e b ∈ (Pass.finish p).journal.toList ∧ b.target? = some t := by
  rw [Program.bindings_fst, OrderedMap.contains, Pass.recorded_finish hp e, List.getLast?_isSome]
  constructor
  · intro hne
    obtain ⟨t, ht⟩ := List.exists_mem_of_ne_nil _ hne
    obtain ⟨x, hx, htarget⟩ := List.mem_filterMap.mp ht
    obtain ⟨b, rfl⟩ := Entry.exists_name_of_looked? (Entry.looked?_of_target? htarget)
    exact ⟨b, t, hx, by simpa [Entry.target?] using htarget⟩
  · rintro ⟨b, t, hx, ht⟩
    exact List.ne_nil_of_mem (List.mem_filterMap.mpr ⟨_, hx, by simpa [Entry.target?] using ht⟩)

/-- A name that is to be looked up has an entry. -/
lemma exists_entry_of_mem_lookups {e : ExprId} (he : e ∈ p.lookups) :
    ∃ before b after, (Pass.finish p).journal.toList = before ++ .name e b :: after := by
  rw [← Pass.looked_finish] at he
  obtain ⟨x, hx, hlooked⟩ := List.mem_filterMap.mp he
  obtain ⟨b, rfl⟩ := Entry.exists_name_of_looked? hlooked
  obtain ⟨before, after, h⟩ := List.append_of_mem hx
  exact ⟨before, b, after, h⟩

/-- The entries about names are those of the pass over the bodies. -/
lemma journal_run_eq_iff {e : ExprId} {before : List Entry} {b : Binding} :
    (∃ after, (Pass.run p).journal.toList = before ++ .name e b :: after) ↔
      ∃ after, (Pass.finish p).journal.toList = before ++ .name e b :: after := by
  rw [Pass.journal_run]
  constructor
  · rintro ⟨after, h⟩
    rcases List.eq_nil_or_concat after with rfl | ⟨after, z, rfl⟩
    · simpa using (List.append_inj' h rfl).2
    · have hconcat : (Pass.finish p).journal.toList ++
          [.bodiesDone (Pass.finish p).bindings.references.size (Pass.finish p).scopes.size] =
          (before ++ .name e b :: after) ++ [z] := by simpa using h
      exact ⟨after, (List.append_inj' hconcat rfl).1⟩
  · rintro ⟨after, h⟩
    exact ⟨_, by rw [h, List.append_assoc, List.cons_append]⟩

variable (hp : p.Built) (ho : p.Orderly) (hquiet : (p.bindings o).2 = [])
include hp ho hquiet

/-- Without errors every free plain name is covered. -/
lemma covered_ident {e : ExprId} {n : Name} {line : Line}
    (he : p.expr? e = some (.ident (.free n) line)) :
    (p.bindings o).1.references.contains e = true := by
  have hwf := hp.wellFormed
  have hfree : p.reference? e = some (.free n) := by simp [Program.reference?, he, Expr.reference?]
  obtain ⟨before, b, after, hjournal⟩ := exists_entry_of_mem_lookups (ho.mem_lookups hwf hfree)
  obtain ⟨t, rfl⟩ :=
    exists_lexical hwf ((Pass.errors_eq_nil_iff p o).mp hquiet).1 he hjournal
  exact (covered_iff hwf.listed e).mpr ⟨.lexical t, t, by rw [hjournal]; simp, rfl⟩

omit ho in
/-- Without errors a free member is covered exactly if once the type of its object was known. -/
lemma covered_select_iff {m object : ExprId} {n : Name} {line : Line}
    (hm : p.expr? m = some (.select object (.free n) line)) :
    (p.bindings o).1.references.contains m = true ↔ p.SeenTyped m object := by
  have hwf := hp.wellFormed
  have hnone := ((Pass.errors_eq_nil_iff p o).mp hquiet).1
  rw [covered_iff hwf.listed]
  constructor
  · rintro ⟨b, t, hmem, htarget⟩
    obtain ⟨before, after, hjournal⟩ := List.append_of_mem hmem
    obtain ⟨after', hrun⟩ := journal_run_eq_iff.mpr ⟨after, hjournal⟩
    refine ⟨before, b, after', hrun, fun huntyped => ?_⟩
    obtain rfl := (skipped_iff_untyped hwf hnone hm hjournal).mpr huntyped
    simp [Binding.target?] at htarget
  · rintro ⟨before, b, after, hrun, htyped⟩
    obtain ⟨after', hjournal⟩ := journal_run_eq_iff.mp ⟨after, hrun⟩
    obtain ⟨-, -, -, ⟨-, rfl⟩ | ⟨-, t, x, rfl⟩⟩ := exists_selected hwf hnone hm hjournal
    · exact absurd ((skipped_iff_untyped hwf hnone hm hjournal).mp rfl) htyped
    · exact ⟨.member t x, x, by rw [hjournal]; simp, rfl⟩

omit ho in
/-- Without errors every class at the top has its base. -/
lemma covered_base {s : SymbolId} (hs : s ∈ p.classes) {b : BaseClass}
    (hb : (p.symbol? s).bind (·.baseClass?) = some b) (hfree : b.reference.isBound = false) :
    (p.bindings o).1.baseClasses.contains s = true := by
  have hsteps := Pass.steps_finish hp.wellFormed.listed
  rw [Program.bindings_fst]
  simp only [hsteps.baseClasses]
  refine Pass.hasBase_start (fun x hx => ?_) hs b hb hfree
  exact ((Pass.errors_eq_nil_iff p o).mp hquiet).1 x (hsteps.journal_prefix.subset hx)

end Covered

/-- **What a run without errors leaves unbound.** The bindings cover all free plain names and all
base classes that are free. A free member is covered exactly if it was looked up when the type of
its object was not unknown. So resolution succeeds exactly if that holds of all free members, as it
does if the declared types of all values are known before any name is looked up. -/
theorem only_members_of_untyped_unbound {p : Program} {o : Options} (hp : p.Built) (ho : p.Orderly)
    (hquiet : (p.bindings o).2 = []) :
    (∀ e n line, p.expr? e = some (.ident (.free n) line) →
      (p.bindings o).1.references.contains e = true) ∧
    (∀ s ∈ p.classes, ∀ b, (p.symbol? s).bind (·.baseClass?) = some b →
      b.reference.isBound = false → (p.bindings o).1.baseClasses.contains s = true) ∧
    (∀ m object n line, p.expr? m = some (.select object (.free n) line) →
      ((p.bindings o).1.references.contains m = true ↔ p.SeenTyped m object)) ∧
    ((∃ r, p.resolve o = .ok r) ↔ ∀ m object n line,
      p.expr? m = some (.select object (.free n) line) → p.SeenTyped m object) ∧
    ((∀ t v, p.typedValue? t = some v → (p.declaredTypeBy [] v).isSome) →
      ∃ r, p.resolve o = .ok r) := by
  have hsucceeds : (∃ r, p.resolve o = .ok r) ↔ ∀ m object n line,
      p.expr? m = some (.select object (.free n) line) → p.SeenTyped m object := by
    simp only [Program.resolve_eq_ok_iff, hquiet, true_and, exists_and_left, exists_eq, and_true,
      Program.unbound_eq_nil_iff]
    constructor
    · rintro ⟨-, hnames⟩ m object n line hm
      refine (covered_select_iff hp hquiet hm).mp (hnames m (.free n) ?_ rfl)
      simp [Program.reference?, hm, Expr.reference?]
    · refine fun hseen => ⟨fun s hs b => covered_base hp hquiet hs, fun e ref he hfree => ?_⟩
      obtain ⟨x, hx, href⟩ := Option.bind_eq_some_iff.mp he
      cases ref with
      | bound n t => simp [Reference.isBound, Reference.target?] at hfree
      | free n =>
        cases x with
        | ident r line =>
          obtain rfl : r = .free n := by simpa [Expr.reference?] using href
          exact covered_ident hp ho hquiet hx
        | select object r line =>
          obtain rfl : r = .free n := by simpa [Expr.reference?] using href
          exact (covered_select_iff hp hquiet hx).mpr (hseen e object n line hx)
        | _ => simp [Expr.reference?] at href
  refine ⟨fun e n line => covered_ident hp ho hquiet, fun s hs b => covered_base hp hquiet hs,
    fun m object n line => covered_select_iff hp hquiet, hsucceeds, fun htypes => ?_⟩
  refine hsucceeds.mpr fun m object n line hm => ?_
  have hfree : p.reference? m = some (.free n) := by simp [Program.reference?, hm, Expr.reference?]
  obtain ⟨before, b, after, hjournal⟩ :=
    exists_entry_of_mem_lookups (ho.mem_lookups hp.wellFormed hfree)
  obtain ⟨after', hrun⟩ := journal_run_eq_iff.mpr ⟨after, hjournal⟩
  exact ⟨before, b, after', hrun, Program.not_untyped htypes before object⟩

/-! ### A member of a list -/

open Operation in
/-- Class `C` has a base class with a field `length`, and selects `xs.length`, where the field `xs`
is declared as a `C`, or if `listed` as a list of `C`. -/
def lengthSteps (listed : Bool) : List Operation :=
  [declareClass "Base" ⟨1⟩ {}, declareClass "C" ⟨1⟩ { baseClass := some "Base" },
    intern "length", intern "xs", intern "m",
    addExpr (.ident (.free ⟨2⟩) ⟨2⟩), declareMember ⟨7⟩ ⟨⟨9⟩, ⟨2⟩, .field ⟨.pub, ⟨⟨0⟩, none⟩⟩⟩,
    addExpr (.ident (.free ⟨8⟩) ⟨3⟩), addExpr (.list [⟨1⟩] ⟨3⟩),
    declareMember ⟨8⟩ ⟨⟨10⟩, ⟨3⟩, .field ⟨.pub, ⟨if listed then ⟨2⟩ else ⟨1⟩, none⟩⟩⟩,
    addExpr (.ident (.free ⟨10⟩) ⟨4⟩), addExpr (.select ⟨3⟩ (.free ⟨9⟩) ⟨4⟩),
    addStmt (.returnValue (some ⟨4⟩) ⟨4⟩),
    declareMember ⟨8⟩ ⟨⟨11⟩, ⟨4⟩, .method ⟨⟨.pub, some ⟨0⟩⟩, none, .normal, false, []⟩⟩]

def lengths (listed : Bool) : Program := (Program.new.build? (lengthSteps listed)).getD .new

lemma lengths_built (listed : Bool) : (lengths listed).Built := by
  have hsteps : Program.new.build? (lengthSteps listed) = some (lengths listed) := by
    cases listed <;> decide
  exact Program.Built.new.build? hsteps

lemma lengths_orderly (listed : Bool) : (lengths listed).Orderly := by
  have hfield : (lengths listed).Reachable (.symbol ⟨9⟩) :=
    .part (.top (by cases listed <;> decide : ⟨7⟩ ∈ _)) (by cases listed <;> decide)
  have hxs : (lengths listed).Reachable (.symbol ⟨10⟩) :=
    .part (.top (by cases listed <;> decide : ⟨8⟩ ∈ _)) (by cases listed <;> decide)
  have hm : (lengths listed).Reachable (.symbol ⟨11⟩) :=
    .part (.top (by cases listed <;> decide : ⟨8⟩ ∈ _)) (by cases listed <;> decide)
  have hlength : (lengths listed).Reachable (.expr ⟨4⟩) :=
    .part (.part hm (by cases listed <;> decide : .stmt ⟨0⟩ ∈ _)) (by cases listed <;> decide)
  have hkinds : ∀ sym ∈ (lengths listed).symbols.toList, sym.enum? = none ∧
      ∀ m ∈ sym.method?.toList, m.parameters = [] := by
    cases listed <;> decide
  have hsym : ∀ v kind, (lengths listed).kind? v = some kind →
      ∃ sym ∈ (lengths listed).symbols.toList, sym.kind = kind := fun v kind hv => by
    obtain ⟨sym, hsym, hkind⟩ := Option.map_eq_some_iff.mp hv
    exact ⟨sym, Array.mem_toList_iff.mpr (Array.mem_of_getElem? hsym), hkind⟩
  refine ⟨fun ⟨i⟩ n he => ?_, fun s v hv => ?_, fun v m hv w hw => ?_, fun v t hv => ?_⟩
  · obtain ⟨x, hx, -⟩ := Option.bind_eq_some_iff.mp he
    have hsize : (lengths listed).exprs.size = 5 := by cases listed <;> decide
    have hi : i < 5 := hsize ▸ (Array.getElem?_eq_some_iff.mp hx).1
    interval_cases i
    · exact .part hfield (by cases listed <;> decide)
    · cases listed with
      | false => exact .part hxs (by decide)
      | true => exact .part (.part hxs (by decide : .expr ⟨2⟩ ∈ _)) (by decide)
    · have hnone : (lengths listed).reference? ⟨2⟩ = none := by cases listed <;> decide
      simp [hnone] at he
    · exact .part hlength (by cases listed <;> decide)
    · exact hlength
  · obtain ⟨x, hx, hdeclared⟩ := Option.bind_eq_some_iff.mp hv
    have hnone : ∀ x ∈ (lengths listed).stmts.toList, x.declared? = none := by
      cases listed <;> decide
    simp [hnone x (Array.mem_toList_iff.mpr (Array.mem_of_getElem? hx))] at hdeclared
  · obtain ⟨sym, hmem, hkind⟩ := hsym v _ hv
    have hnil := (hkinds sym hmem).2 m (by simp [Symbol.method?, hkind])
    simp [hnil] at hw
  · obtain ⟨sym, hmem, hkind⟩ := hsym v _ hv
    have hnone := (hkinds sym hmem).1
    simp [Symbol.enum?, hkind] at hnone

theorem lengths_bound :
    (lengths false).Built ∧ (lengths false).Orderly ∧ ((lengths false).bindings {}).2 = [] ∧
    ((lengths false).bindings {}).1.references.contains ⟨3⟩ = true ∧
    ((lengths false).bindings {}).1.baseClasses.contains ⟨8⟩ = true ∧
    (((lengths false).bindings {}).1.references.contains ⟨4⟩ = true ↔
      (lengths false).SeenTyped ⟨4⟩ ⟨3⟩) ∧
    ∃ r, (lengths false).resolve {} = .ok r := by
  have hquiet : ((lengths false).bindings {}).2 = [] := by decide
  have htypes : ∀ t v, (lengths false).typedValue? t = some v →
      ((lengths false).declaredTypeBy [] v).isSome := by
    intro t v hv
    obtain ⟨sym, hsym, hvalue⟩ := Option.bind_eq_some_iff.mp hv
    have hall : ∀ sym ∈ (lengths false).symbols.toList, ∀ v ∈ sym.typedValue?.toList,
        ((lengths false).declaredTypeBy [] v).isSome := by decide
    exact hall sym (Array.mem_toList_iff.mpr (Array.mem_of_getElem? hsym)) v (by simp [hvalue])
  obtain ⟨hnames, hbases, hmembers, -, hresolve⟩ :=
    only_members_of_untyped_unbound (lengths_built false) (lengths_orderly false) hquiet
  exact ⟨lengths_built false, lengths_orderly false, hquiet,
    hnames ⟨3⟩ ⟨10⟩ ⟨4⟩ (by decide), hbases ⟨8⟩ (by decide) ⟨.free ⟨7⟩, ⟨1⟩⟩ (by decide) rfl,
    hmembers ⟨4⟩ ⟨3⟩ ⟨9⟩ ⟨4⟩ (by decide), hresolve htypes⟩

/-- The member of a list is left unbound, though the run reports no error. -/
theorem listed_length_unbound :
    (lengths true).Built ∧ (lengths true).Orderly ∧ ((lengths true).bindings {}).2 = [] ∧
    (lengths true).expr? ⟨4⟩ = some (.select ⟨3⟩ (.free ⟨9⟩) ⟨4⟩) ∧
    ((lengths true).bindings {}).1.references.contains ⟨4⟩ = false ∧
    (lengths true).resolve {} = .error ⟨lengths true, [.ofBuild (.unbound "length" ⟨4⟩)]⟩ :=
  ⟨lengths_built true, lengths_orderly true, by decide, by decide, by decide, by decide⟩

end NameBinding
