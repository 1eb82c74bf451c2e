import NameBinding.Proofs.Sites

/-!
The statements that the pass visits: those in the bodies of classes, and all below them. In a
program without shared statements they form trees, which have no statement in common.
-/

namespace NameBinding

/-! ### Lists of lists without repetition -/

section Flat

variable {α β : Type} {l : List α} {f : α → List β}

/-- An element comes from one of the lists only. -/
lemma eq_of_mem_flatMap (h : (l.flatMap f).Nodup) {a b : α} (ha : a ∈ l) (hb : b ∈ l) {x : β}
    (hxa : x ∈ f a) (hxb : x ∈ f b) : a = b := by
  have hsymm : Std.Symm (Function.onFun List.Disjoint f) := ⟨fun _ _ hd => hd.symm⟩
  by_contra hne
  exact (List.nodup_flatMap.mp h).2.forall ha hb hne hxa hxb

lemma nodup_flatMap_of_eq (hl : l.Nodup) (hf : ∀ a ∈ l, (f a).Nodup)
    (heq : ∀ a ∈ l, ∀ b ∈ l, ∀ x ∈ f a, x ∈ f b → a = b) : (l.flatMap f).Nodup := by
  refine List.nodup_flatMap.mpr ⟨hf, hl.pairwise_of_forall_ne fun a ha b hb hne => ?_⟩
  exact fun x hxa hxb => hne (heq a ha b hb x hxa hxb)

end Flat

/-! ### Visited statements -/

namespace Program

variable {p : Program} {s t : StmtId}

/-- The symbols whose bodies are looked at: of every class its constructor, the class itself with
its destructor, and its methods. -/
def bodyOwners (p : Program) : List SymbolId :=
  p.classes.flatMap fun s =>
    ((p.class? s).map fun c => c.constructor.toList ++ s :: c.methods).getD []

/-- A statement stands in the body of a class, or below one that does. -/
inductive Visited (p : Program) : StmtId → Prop
  | root {v : SymbolId} {t : StmtId} : v ∈ p.bodyOwners → t ∈ p.stmtsOf v → Visited p t
  | child {s t : StmtId} : Visited p s → t ∈ p.below s → Visited p t

/-- A statement is another one, or stands somewhere below it. -/
def Under (p : Program) : StmtId → StmtId → Prop := Relation.ReflTransGen fun s t => t ∈ p.below s

lemma Visited.under (hs : p.Visited s) (h : p.Under s t) : p.Visited t := by
  induction h with
  | refl => exact hs
  | tail _ ht ih => exact ih.child ht

lemma Visited.exists_root (h : p.Visited t) :
    ∃ v ∈ p.bodyOwners, ∃ r ∈ p.stmtsOf v, p.Under r t := by
  induction h with
  | root hv ht => exact ⟨_, hv, _, ht, .refl⟩
  | child _ ht ih =>
    obtain ⟨v, hv, r, hr, hunder⟩ := ih
    exact ⟨v, hv, r, hr, hunder.tail ht⟩

lemma mem_below (hs : t ∈ p.below s) : ∃ x, p.stmt? s = some x ∧ t ∈ x.children := by
  unfold below at hs
  cases hx : p.stmt? s with
  | none => simp [hx] at hs
  | some x => exact ⟨x, rfl, by simpa [hx] using hs⟩

lemma below_lt (hp : p.Allocated) (h : t ∈ p.below s) : t.index < s.index := by
  obtain ⟨x, hx, ht⟩ := mem_below h
  exact Script.child_lt hp hx ht

lemma Allocated.index_le (hp : p.Allocated) (h : p.Under s t) : t.index ≤ s.index := by
  induction h with
  | refl => exact le_rfl
  | tail _ ht ih => exact (below_lt hp ht).le.trans ih

/-! ### Statements that are not shared -/

namespace StmtsOnce

lemma mem_stmtIds (h : t ∈ p.below s) : s ∈ p.stmtIds := by
  obtain ⟨x, hx, -⟩ := mem_below h
  exact List.mem_map.mpr ⟨s.index, List.mem_range.mpr (Array.getElem?_eq_some_iff.mp hx).1, rfl⟩

lemma mem_symbolIds {v : SymbolId} (h : t ∈ p.stmtsOf v) : v ∈ p.symbolIds := by
  unfold stmtsOf at h
  cases hv : p.symbol? v with
  | none => simp [hv] at h
  | some x =>
    exact List.mem_map.mpr ⟨v.index, List.mem_range.mpr (Array.getElem?_eq_some_iff.mp hv).1, rfl⟩

variable (h : p.StmtsOnce)
include h

lemma parent_eq {s' : StmtId} (hs : t ∈ p.below s) (hs' : t ∈ p.below s') : s = s' :=
  eq_of_mem_flatMap (List.nodup_append.mp h).1 (mem_stmtIds hs) (mem_stmtIds hs') hs hs'

lemma owner_eq {v v' : SymbolId} (hv : t ∈ p.stmtsOf v) (hv' : t ∈ p.stmtsOf v') : v = v' :=
  eq_of_mem_flatMap (List.nodup_append.mp h).2.1 (mem_symbolIds hv) (mem_symbolIds hv') hv hv'

lemma not_mem_below {v : SymbolId} (hv : t ∈ p.stmtsOf v) (s : StmtId) : t ∉ p.below s := fun hs =>
  (List.nodup_append.mp h).2.2 t (List.mem_flatMap.mpr ⟨s, mem_stmtIds hs, hs⟩) t
    (List.mem_flatMap.mpr ⟨v, mem_symbolIds hv, hv⟩) rfl

lemma below_nodup (s : StmtId) : (p.below s).Nodup := by
  by_cases hs : s ∈ p.stmtIds
  · exact (List.nodup_flatMap.mp (List.nodup_append.mp h).1).1 s hs
  · have hnil : p.below s = [] := List.eq_nil_iff_forall_not_mem.mpr fun t ht => hs (mem_stmtIds ht)
    rw [hnil]
    exact List.nodup_nil

lemma stmtsOf_nodup (v : SymbolId) : (p.stmtsOf v).Nodup := by
  by_cases hv : v ∈ p.symbolIds
  · exact (List.nodup_flatMap.mp (List.nodup_append.mp h).2.1).1 v hv
  · have hnil : p.stmtsOf v = [] :=
      List.eq_nil_iff_forall_not_mem.mpr fun t ht => hv (mem_symbolIds ht)
    rw [hnil]
    exact List.nodup_nil

/-- Of two statements that a third one stands under, one stands under the other. -/
lemma under_total {s' : StmtId} (hs : p.Under s t) (hs' : p.Under s' t) :
    p.Under s s' ∨ p.Under s' s := by
  have htotal := Relation.ReflTransGen.total_of_right_unique
    (fun a b c (hb : a ∈ p.below b) (hc : a ∈ p.below c) => h.parent_eq hb hc)
    (Relation.reflTransGen_swap.mpr hs) (Relation.reflTransGen_swap.mpr hs')
  exact htotal.symm.imp Relation.reflTransGen_swap.mp Relation.reflTransGen_swap.mp

/-- What stands under two statements right below the same one stands under the same of them. -/
lemma sibling_eq (hp : p.Allocated) {c c' : StmtId} (hc : c ∈ p.below s) (hc' : c' ∈ p.below s)
    (ht : p.Under c t) (ht' : p.Under c' t) : c = c' := by
  have hcases : ∀ a b, a ∈ p.below s → b ∈ p.below s → p.Under a b → a = b := by
    intro a b ha hb hab
    rcases Relation.ReflTransGen.cases_tail hab with heq | ⟨q, haq, hq⟩
    · exact heq.symm
    · obtain rfl := h.parent_eq hb hq
      have hlt := below_lt hp ha
      have hle := hp.index_le haq
      omega
  rcases h.under_total ht ht' with hunder | hunder
  · exact hcases c c' hc hc' hunder
  · exact (hcases c' c hc' hc hunder).symm

/-- What stands under two statements that stand directly in symbols stands under the same of them.
-/
lemma root_eq {v v' : SymbolId} {r r' : StmtId} (hr : r ∈ p.stmtsOf v) (hr' : r' ∈ p.stmtsOf v')
    (ht : p.Under r t) (ht' : p.Under r' t) : r = r' := by
  have hcases : ∀ a b w, b ∈ p.stmtsOf w → p.Under a b → a = b := by
    intro a b w hb hab
    rcases Relation.ReflTransGen.cases_tail hab with heq | ⟨q, -, hq⟩
    · exact heq.symm
    · exact absurd hq (h.not_mem_below hb q)
  rcases h.under_total ht ht' with hunder | hunder
  · exact hcases r r' v' hr' hunder
  · exact (hcases r' r v hr hunder).symm

end StmtsOnce

/-! ### Symbols with bodies -/

/-- No symbol has two bodies. -/
lemma Listed.bodyOwners_nodup (hp : p.Listed) : p.bodyOwners.Nodup := by
  -- a class is not listed in a class
  have hkind : ∀ s ∈ p.classes, ∀ c, p.class? s = some c → ∀ s' ∈ p.classes, s' ∉ c.callables := by
    intro s hs c hc s' hs' hmem
    obtain ⟨c', hc', -⟩ := hp.classes s' hs'
    have hk' := class?_eq_some.mp hc'
    rcases List.mem_append.mp hmem with hv | hv
    · obtain ⟨m, hm⟩ := (hp.lists hs hc).constructor s' hv
      simp [hm] at hk'
    · obtain ⟨m, hm⟩ := (hp.lists hs hc).methods s' hv
      simp [hm] at hk'
  refine nodup_flatMap_of_eq hp.nodup (fun s hs => ?_) fun s hs s' hs' v hv hv' => ?_
  · obtain ⟨c, hc, hlists⟩ := hp.classes s hs
    have hself := hkind s hs c hc s hs
    rw [hc, Option.map_some, Option.getD_some]
    refine List.nodup_append.mpr ⟨by cases c.constructor <;> simp, ?_, ?_⟩
    · exact List.nodup_cons.mpr ⟨fun h => hself (List.mem_append_right _ h), hlists.nodup⟩
    · rintro v hv w hw rfl
      rcases List.mem_cons.mp hw with rfl | hw
      · exact hself (List.mem_append_left _ hv)
      · obtain ⟨m, hm⟩ := hlists.constructor v hv
        obtain ⟨m', hm'⟩ := hlists.methods v hw
        simp [hm] at hm'
  · obtain ⟨c, hc, -⟩ := hp.classes s hs
    obtain ⟨c', hc', -⟩ := hp.classes s' hs'
    have hsplit : ∀ {s : SymbolId} {c : ClassInfo} {v : SymbolId},
        v ∈ c.constructor.toList ++ s :: c.methods → v = s ∨ v ∈ c.callables := by
      intro s c v hv
      simp only [List.mem_append, List.mem_cons, ClassInfo.callables] at hv ⊢
      tauto
    rw [hc, Option.map_some, Option.getD_some] at hv
    rw [hc', Option.map_some, Option.getD_some] at hv'
    rcases hsplit hv with rfl | hv
    · rcases hsplit hv' with rfl | hv'
      · rfl
      · exact absurd hv' (hkind s' hs' c' hc' v hs)
    · rcases hsplit hv' with rfl | hv'
      · exact absurd hv (hkind s hs c hc v hs')
      · exact hp.owners s hs s' hs' c c' hc hc' v hv hv'

end Program

end NameBinding
