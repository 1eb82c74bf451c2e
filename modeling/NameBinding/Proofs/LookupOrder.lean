import NameBinding.Proofs.History
import NameBinding.Proofs.Sites

/-!
The order of look-ups around a member. The name of an object is looked up right before the member
that is selected from it; where no expression stands in two places, it is looked up at no other
time.
-/

namespace NameBinding

/-! ### Neighbours in a list -/

/-- Every `a` is followed by a `b`. -/
def Followed (a b : ExprId) (l : List ExprId) : Prop :=
  ∀ l₁ l₂, l = l₁ ++ a :: l₂ → ∃ l₃, l₂ = b :: l₃

/-- Every `b` comes right after an `a`. -/
def Preceded (a b : ExprId) (l : List ExprId) : Prop :=
  ∀ l₁ l₂, l = l₁ ++ b :: l₂ → ∃ l₀, l₁ = l₀ ++ [a]

section Neighbours

variable {a b : ExprId} {l l' : List ExprId}

/-- An element of two lists put together is an element of one of them, in its place. -/
lemma split_append {x : ExprId} {l₁ l₂ : List ExprId} (h : l ++ l' = l₁ ++ x :: l₂) :
    (∃ l₃, l = l₁ ++ x :: l₃ ∧ l₂ = l₃ ++ l') ∨ ∃ l₀, l' = l₀ ++ x :: l₂ ∧ l₁ = l ++ l₀ := by
  rcases List.append_eq_append_iff.mp h with ⟨l₀, hl₁, hl'⟩ | ⟨l₃, hl, hl₂⟩
  · exact .inr ⟨l₀, hl', hl₁⟩
  · cases l₃ with
    | nil => exact .inr ⟨[], by simpa using hl₂.symm, by simpa using hl.symm⟩
    | cons y l₃ =>
      obtain ⟨rfl, rfl⟩ : x = y ∧ l₂ = l₃ ++ l' := by simpa using hl₂
      exact .inl ⟨l₃, hl, rfl⟩

lemma Followed.append (h : Followed a b l) (h' : Followed a b l') : Followed a b (l ++ l') := by
  intro l₁ l₂ heq
  rcases split_append heq with ⟨l₃, hl, rfl⟩ | ⟨l₀, hl', -⟩
  · obtain ⟨l₄, rfl⟩ := h l₁ l₃ hl
    exact ⟨l₄ ++ l', rfl⟩
  · exact h' l₀ l₂ hl'

lemma Preceded.append (h : Preceded a b l) (h' : Preceded a b l') : Preceded a b (l ++ l') := by
  intro l₁ l₂ heq
  rcases split_append heq with ⟨l₃, hl, -⟩ | ⟨l₀, hl', rfl⟩
  · exact h l₁ l₃ hl
  · obtain ⟨l₄, rfl⟩ := h' l₀ l₂ hl'
    exact ⟨l ++ l₄, (List.append_assoc _ _ _).symm⟩

lemma followed_of_not_mem (h : a ∉ l) : Followed a b l := by
  rintro l₁ l₂ rfl
  simp at h

lemma preceded_of_not_mem (h : b ∉ l) : Preceded a b l := by
  rintro l₁ l₂ rfl
  simp at h

lemma Followed.flatMap {α : Type} {f : α → List ExprId} {xs : List α}
    (h : ∀ x ∈ xs, Followed a b (f x)) : Followed a b (xs.flatMap f) := by
  induction xs with
  | nil => exact followed_of_not_mem (by simp)
  | cons x xs ih =>
    rw [List.flatMap_cons]
    exact (h x (by simp)).append (ih fun y hy => h y (by simp [hy]))

lemma Preceded.flatMap {α : Type} {f : α → List ExprId} {xs : List α}
    (h : ∀ x ∈ xs, Preceded a b (f x)) : Preceded a b (xs.flatMap f) := by
  induction xs with
  | nil => exact preceded_of_not_mem (by simp)
  | cons x xs ih =>
    rw [List.flatMap_cons]
    exact (h x (by simp)).append (ih fun y hy => h y (by simp [hy]))

end Neighbours

/-! ### Objects and members -/

namespace Script

variable {p : Program} {m object : ExprId} {r : Reference} {line : Line}

lemma index_le_of_mem_lookups (hp : p.Allocated) {e x : ExprId} (hx : x ∈ (expr p e).lookups p) :
    x.index ≤ e.index := by
  induction hk : e.index using Nat.strong_induction_on generalizing e with
  | _ k ih =>
    subst hk
    rw [lookups_expr hp, List.mem_append] at hx
    rcases hx with hx | hx
    · obtain ⟨c, hc, hxc⟩ := List.mem_flatMap.mp hx
      have hlt := operand_lt hp hc
      have hle := ih c.index hlt hxc rfl
      omega
    · split at hx
      · obtain rfl : x = e := by simpa using hx
        exact le_rfl
      · simp at hx

/-- The look-ups of a reference end with its own. -/
lemma lookups_reference (hp : p.Allocated) {e : ExprId} (he : (p.reference? e).isSome) :
    ∃ l, (expr p e).lookups p = l ++ [e] ∧ e ∉ l := by
  refine ⟨_, by rw [lookups_expr hp, if_pos he], fun hmem => ?_⟩
  obtain ⟨c, hc, hec⟩ := List.mem_flatMap.mp hmem
  have hlt := operand_lt hp hc
  have hle := index_le_of_mem_lookups hp hec
  omega

lemma lookups_select (hp : p.Allocated) (hm : p.expr? m = some (.select object r line)) :
    (expr p m).lookups p = (expr p object).lookups p ++ [m] := by
  rw [lookups_expr hp, Program.operands_select hm]
  simp [Program.reference?, hm, Expr.reference?]

/-- Within one expression the object of a member is looked up right before the member. -/
lemma preceded_expr (hp : p.Allocated) (hm : p.expr? m = some (.select object r line))
    (hobject : (p.reference? object).isSome) (e : ExprId) :
    Preceded object m ((expr p e).lookups p) := by
  induction hk : e.index using Nat.strong_induction_on generalizing e with
  | _ k ih =>
    subst hk
    by_cases hem : e = m
    · subst hem
      obtain ⟨l, hl, -⟩ := lookups_reference hp hobject
      have hlt : object.index < e.index := operand_lt hp (by simp [Program.operands_select hm])
      have hnot : e ∉ (expr p object).lookups p := by
        intro hmem
        have hle := index_le_of_mem_lookups hp hmem
        omega
      rw [lookups_select hp hm]
      intro l₁ l₂ heq
      rcases split_append heq with ⟨l₃, hl', -⟩ | ⟨l₀, hl', rfl⟩
      · exact absurd (hl' ▸ List.mem_append_right _ (List.mem_cons_self ..)) hnot
      · obtain ⟨rfl, rfl⟩ : l₀ = [] ∧ l₂ = [] := by
          cases l₀ <;> simp_all
        exact ⟨l, by rw [hl, List.append_nil]⟩
    · rw [lookups_expr hp]
      refine (Preceded.flatMap fun c hc => ih c.index (operand_lt hp hc) c rfl).append ?_
      refine preceded_of_not_mem fun hmem => ?_
      split at hmem
      · exact hem (List.mem_singleton.mp hmem).symm
      · simp at hmem

/-- Where no expression stands in two places, the member comes right after its object. -/
lemma followed_expr (hp : p.Allocated) (honce : p.ExprsOnce)
    (hm : p.expr? m = some (.select object r line)) (hobject : (p.reference? object).isSome)
    {e : ExprId} (he : e ≠ object) : Followed object m ((expr p e).lookups p) := by
  have hmember : object ∈ p.exprsAt (.expr m) := by
    simp [Program.exprsAt, Program.operands_select hm]
  induction hk : e.index using Nat.strong_induction_on generalizing e with
  | _ k ih =>
    subst hk
    by_cases hem : e = m
    · subst hem
      obtain ⟨l, hl, hnot⟩ := lookups_reference hp hobject
      rw [lookups_select hp hm, hl]
      intro l₁ l₂ heq
      rw [List.append_assoc] at heq
      rcases split_append heq with ⟨l₃, hl', -⟩ | ⟨l₀, hl', rfl⟩
      · exact absurd (hl' ▸ List.mem_append_right _ (List.mem_cons_self ..)) hnot
      · cases l₀ with
        | nil => exact ⟨[], by simpa using hl'.symm⟩
        | cons y l₀ =>
          cases l₀ with
          | nil =>
            obtain ⟨-, hmo, -⟩ : object = y ∧ e = object ∧ [] = l₂ := by simpa using hl'
            exact absurd hmo he
          | cons z l₀ => simp at hl'
    · rw [lookups_expr hp]
      refine (Followed.flatMap fun c hc => ih c.index (operand_lt hp hc) ?_ rfl).append ?_
      · rintro rfl
        have hoperand : c ∈ p.exprsAt (.expr e) := hc
        exact hem (by simpa using honce.eq hoperand hmember)
      · refine followed_of_not_mem fun hmem => ?_
        split at hmem
        · exact he (List.mem_singleton.mp hmem).symm
        · simp at hmem

end Script

namespace Program

variable {p : Program} {m object : ExprId} {r : Reference} {line : Line}

/-- Over the whole pass a member is looked up right after its object. -/
theorem preceded_lookups (hp : p.Allocated) (hm : p.expr? m = some (.select object r line))
    (hobject : (p.reference? object).isSome) : Preceded object m p.lookups := by
  have hcomp : Script.Compositional p fun c => Preceded object m (c.lookups p) :=
    { skip := preceded_of_not_mem (by simp [Script.lookups])
      seq := fun _ _ ha hb => ha.append hb
      enter := fun _ _ => preceded_of_not_mem (by simp [Script.lookups])
      within := fun _ _ hbody => hbody
      root := fun e _ => Script.preceded_expr hp hm hobject e }
  exact Preceded.flatMap fun x hx => hcomp.of_mem_scripts hx

/-- Where no expression stands in two places, an object is looked up only right before its
member. -/
theorem followed_lookups (hp : p.Allocated) (honce : p.ExprsOnce)
    (hm : p.expr? m = some (.select object r line)) (hobject : (p.reference? object).isSome) :
    Followed object m p.lookups := by
  have hoperand : object ∈ p.operands m := by simp [operands_select hm]
  have hcomp : Script.Compositional p fun c => Followed object m (c.lookups p) :=
    { skip := followed_of_not_mem (by simp [Script.lookups])
      seq := fun _ _ ha hb => ha.append hb
      enter := fun _ _ => followed_of_not_mem (by simp [Script.lookups])
      within := fun _ _ hbody => hbody
      root := fun e he => Script.followed_expr hp honce hm hobject fun heq =>
        honce.not_isRoot hoperand (heq ▸ he) }
  exact Followed.flatMap fun x hx => hcomp.of_mem_scripts hx

end Program

end NameBinding
