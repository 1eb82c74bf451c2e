import NameBinding.Proofs.AppliedBindings
import NameBinding.Proofs.ScopeTree

/-!
Trees of scopes as they are made: from the tree with the global scope only, by opening scopes under
those that are there and by entering names into them. The ancestors of a scope then fall to the
global one, each name stands in a scope once, and the names in reach are those that a look-up finds.
-/

namespace NameBinding

/-! ### Operations -/

/-- A change of a tree of scopes. -/
inductive TreeOperation
  | addChild (parent : ScopeId) (kind : ScopeKind)
  | add (s : ScopeId) (n : Name) (v : SymbolId)

/-- The scope that is added to. -/
def TreeOperation.scope : TreeOperation → ScopeId
  | addChild parent _ => parent
  | add s _ _ => s

inductive TreeAnswer
  | opened (s : ScopeId)
  | entered
  /-- The name stands for another symbol already. -/
  | taken (v : SymbolId)
deriving DecidableEq

namespace ScopeTree

/-- The answer to an operation, and the tree after it. -/
def perform (t : ScopeTree) : TreeOperation → TreeAnswer × ScopeTree
  | .addChild parent kind => (.opened (t.addChild parent kind).1, (t.addChild parent kind).2)
  | .add s n v =>
    match t.add s n v with
    | .ok t' => (.entered, t')
    | .error w => (.taken w, t)

/-- A tree that operations on scopes of the tree lead to. -/
inductive Made : ScopeTree → Prop
  | new : Made .new
  | perform {t : ScopeTree} {op : TreeOperation} :
    Made t → op.scope.index < t.size → Made (t.perform op).2

/-- The answers to operations one after the other, and the tree after them, if each is made on a
scope that is there. -/
def run? (t : ScopeTree) : List TreeOperation → Option (List TreeAnswer × ScopeTree)
  | [] => some ([], t)
  | op :: ops =>
    if op.scope.index < t.size then
      ((t.perform op).2.run? ops).map fun r => ((t.perform op).1 :: r.1, r.2)
    else none

variable {t t' : ScopeTree} {s r : ScopeId} {n : Name} {v w : SymbolId}

lemma perform_of_taken (v : SymbolId) (h : t.declared? s n = some w) :
    t.perform (.add s n v) = (.taken w, t) := by
  simp only [perform, add_eq_error_iff.mpr h]

lemma perform_of_add (h : t.add s n v = .ok t') : t.perform (.add s n v) = (.entered, t') := by
  simp only [perform, h]

/-- What an operation does: it opens a scope, it finds a name taken, or it enters a name. -/
lemma perform_cases (t : ScopeTree) (op : TreeOperation) :
    (∃ parent kind, op = .addChild parent kind ∧
      t.perform op = (.opened ⟨t.size⟩, (t.addChild parent kind).2)) ∨
    (∃ s n v w, op = .add s n v ∧ t.declared? s n = some w ∧ t.perform op = (.taken w, t)) ∨
    ∃ s n v t', op = .add s n v ∧ t.add s n v = .ok t' ∧ t.perform op = (.entered, t') := by
  cases op with
  | addChild parent kind => exact .inl ⟨parent, kind, rfl, rfl⟩
  | add s n v =>
    cases h : t.declared? s n with
    | some w => exact .inr (.inl ⟨s, n, v, w, rfl, h, perform_of_taken v h⟩)
    | none =>
      obtain ⟨t', ht'⟩ := exists_add v h
      exact .inr (.inr ⟨s, n, v, t', rfl, ht', perform_of_add ht'⟩)

lemma run?_cons {op : TreeOperation} {ops : List TreeOperation} {x : List TreeAnswer × ScopeTree} :
    t.run? (op :: ops) = some x ↔ op.scope.index < t.size ∧
      ∃ answers, (t.perform op).2.run? ops = some (answers, x.2) ∧
        x.1 = (t.perform op).1 :: answers := by
  obtain ⟨as, u⟩ := x
  simp only [run?]
  split
  · next h => simp [h, eq_comm, and_comm]
  · next h => simp [h]

lemma Made.run? {ops : List TreeOperation} {answers : List TreeAnswer} (ht : t.Made)
    (h : t.run? ops = some (answers, t')) : t'.Made := by
  induction ops generalizing t answers with
  | nil =>
    obtain rfl : t = t' := congrArg Prod.snd (Option.some.inj h)
    exact ht
  | cons op ops ih =>
    obtain ⟨hlt, rest, hrest, -⟩ := run?_cons.mp h
    exact ih (ht.perform hlt) hrest

/-- The tree that operations make of the global scope; where one of them is on no scope, that scope
only. -/
def after (ops : List TreeOperation) : ScopeTree := ((new.run? ops).map (·.2)).getD .new

lemma made_after (ops : List TreeOperation) : (after ops).Made := by
  unfold after
  cases h : new.run? ops with
  | none => exact .new
  | some x => exact Made.new.run? h

/-! ### What operations leave -/

lemma lt_of_parent? {q : ScopeId} (h : t.parent? s = some q) : s.index < t.size := by
  obtain ⟨sc, hsc, -⟩ := Option.bind_eq_some_iff.mp h
  exact lt_of_scope? hsc

lemma parent?_addChild (t : ScopeTree) (parent : ScopeId) (kind : ScopeKind) (r : ScopeId) :
    (t.addChild parent kind).2.parent? r =
      if r.index = t.size then some parent else t.parent? r := by
  rw [parent?, scope?_addChild]
  split <;> rfl

lemma frame_addChild (t : ScopeTree) (parent : ScopeId) (kind : ScopeKind) (r : ScopeId) :
    (t.addChild parent kind).2.frame r = t.frame r := by
  rw [frame, scope?_addChild]
  split
  · next hr =>
    have hnone : t.scope? r = none := Array.getElem?_eq_none hr.ge
    rw [frame, hnone]
    rfl
  · rfl

lemma declared?_addChild (t : ScopeTree) (parent : ScopeId) (kind : ScopeKind) (r : ScopeId)
    (m : Name) : (t.addChild parent kind).2.declared? r m = t.declared? r m := by
  rw [declared?_eq, frame_addChild, ← declared?_eq]

lemma parent?_add (h : t.add s n v = .ok t') (r : ScopeId) : t'.parent? r = t.parent? r := by
  rw [parent?, scope?_add h]
  split
  · rw [Option.bind_map]
    rfl
  · rfl

/-- The new entry comes last in its scope, and the other scopes stay. -/
lemma scope?_of_add (h : t.add s n v = .ok t') (r : ScopeId) :
    t'.scope? r = if r = s then (t.scope? r).map fun sc =>
      { sc with entries := ⟨sc.entries.entries ++ [(n, v)]⟩ } else t.scope? r := by
  rw [scope?_add h]
  split
  · next hr =>
    subst hr
    cases hsc : t.scope? r with
    | none => rfl
    | some sc =>
      have hnew : sc.entries.get? n = none := by
        simpa [declared?, hsc] using declared?_eq_none_of_add h
      simp [OrderedMap.insertIfNew, OrderedMap.contains, hnew]
  · rfl

lemma frame_of_add (h : t.add s n v = .ok t') (hs : s.index < t.size) (r : ScopeId) :
    t'.frame r = if r = s then ⟨(t.frame r).entries ++ [(n, v)]⟩ else t.frame r := by
  rw [frame, scope?_of_add h]
  split
  · next hr =>
    subst hr
    obtain ⟨sc, hsc⟩ := scope?_of_lt hs
    simp [frame, hsc]
  · rfl

lemma names_eq (t : ScopeTree) (s : ScopeId) : t.names s = (t.frame s).keys := by
  unfold names frame
  cases t.scope? s <;> rfl

/-- A scope declares the names that it has. -/
lemma isSome_declared?_iff : (t.declared? s n).isSome ↔ n ∈ t.names s := by
  rw [names_eq, declared?_eq, OrderedMap.get?, OrderedMap.keys, List.lookup_isSome_iff]
  simp

lemma declared?_eq_none_iff : t.declared? s n = none ↔ n ∉ t.names s := by
  rw [← isSome_declared?_iff, Option.not_isSome_iff_eq_none]

/-! ### What every tree keeps -/

/-- Only the global scope has no parent, the others came after theirs, and no scope has two entries
for a name. -/
structure Regular (t : ScopeTree) : Prop where
  pos : 0 < t.size
  root : t.parent? global = none
  parent : ∀ s : ScopeId, 0 < s.index → s.index < t.size →
    ∃ q, t.parent? s = some q ∧ q.index < s.index
  nodup : ∀ s, (t.names s).Nodup

lemma regular_new : Regular .new where
  pos := by decide
  root := rfl
  parent s hs hlt := by
    have hone : s.index < 1 := hlt
    omega
  nodup s := by
    have hframe : ScopeTree.new.frame s = ⟨[]⟩ := by
      rcases s with ⟨_ | i⟩ <;> rfl
    rw [names_eq, hframe]
    exact List.nodup_nil

lemma Regular.addChild (ht : t.Regular) {parent : ScopeId} (hparent : parent.index < t.size)
    (kind : ScopeKind) : (t.addChild parent kind).2.Regular where
  pos := by
    rw [size_addChild]
    omega
  root := by
    have hne : global.index ≠ t.size := ht.pos.ne
    rw [parent?_addChild, if_neg hne, ht.root]
  parent s hs hlt := by
    rw [size_addChild] at hlt
    rw [parent?_addChild]
    split
    · exact ⟨parent, rfl, by omega⟩
    · exact ht.parent s hs (by omega)
  nodup s := by
    rw [names_eq, frame_addChild, ← names_eq]
    exact ht.nodup s

lemma Regular.add (ht : t.Regular) (hs : s.index < t.size) (h : t.add s n v = .ok t') :
    t'.Regular where
  pos := by
    rw [size_add h]
    exact ht.pos
  root := by rw [parent?_add h, ht.root]
  parent r hr hlt := by
    rw [size_add h] at hlt
    rw [parent?_add h]
    exact ht.parent r hr hlt
  nodup r := by
    rw [names_eq, frame_of_add h hs]
    split
    · next hr =>
      -- the name that is entered is new to the scope
      subst hr
      have hnew : n ∉ (t.frame r).keys := by
        rw [← names_eq, ← declared?_eq_none_iff]
        exact declared?_eq_none_of_add h
      have hold : (t.frame r).keys.Nodup := names_eq t r ▸ ht.nodup r
      simpa [OrderedMap.keys] using List.nodup_append.mpr ⟨hold, List.nodup_singleton n, by
        rintro a ha b hb rfl
        exact hnew (List.mem_singleton.mp hb ▸ ha)⟩
    · rw [← names_eq]
      exact ht.nodup r

lemma Regular.perform (ht : t.Regular) {op : TreeOperation} (hop : op.scope.index < t.size) :
    (t.perform op).2.Regular := by
  obtain ⟨parent, kind, rfl, heq⟩ | ⟨s, n, v, w, rfl, -, heq⟩ | ⟨s, n, v, t', rfl, hadd, heq⟩ :=
    perform_cases t op
  · rw [heq]
    exact ht.addChild hop kind
  · rw [heq]
    exact ht
  · rw [heq]
    exact ht.add hop hadd

lemma Made.regular (ht : t.Made) : t.Regular := by
  induction ht with
  | new => exact regular_new
  | perform _ hop ih => exact ih.perform hop

lemma Regular.rooted (ht : t.Regular) : t.Rooted := by
  intro s q hq
  have hlt : s.index < t.size := lt_of_parent? hq
  -- a scope with a parent is not the global one
  have hpos : 0 < s.index := by
    by_contra hzero
    obtain rfl : s = global := congrArg ScopeId.mk (by omega)
    rw [ht.root] at hq
    cases hq
  obtain ⟨q', hq', hle⟩ := ht.parent s hpos hlt
  obtain rfl : q' = q := Option.some.inj (hq'.symm.trans hq)
  exact hle

/-! ### Chains of ancestors -/

/-- The scopes from one down to the global scope, each the parent of the one before it. -/
inductive Chain (t : ScopeTree) : ScopeId → List ScopeId → Prop
  | root : Chain t global [global]
  | child {s q : ScopeId} {l : List ScopeId} :
    t.parent? s = some q → q.index < s.index → Chain t q l → Chain t s (s :: l)

lemma Regular.chain (ht : t.Regular) (hs : s.index < t.size) : t.Chain s (t.ancestors s) := by
  induction hk : s.index using Nat.strong_induction_on generalizing s with
  | _ k ih =>
    subst hk
    obtain ⟨sc, hsc⟩ := scope?_of_lt hs
    have heq := ancestors_eq ht.rooted hsc
    have hparent : t.parent? s = sc.parent := by simp [parent?, hsc]
    by_cases hzero : s.index = 0
    · obtain rfl : s = global := congrArg ScopeId.mk hzero
      rw [← hparent, ht.root] at heq
      rw [heq]
      exact .root
    · obtain ⟨q, hq, hlt⟩ := ht.parent s (by omega) hs
      rw [← hparent, hq] at heq
      rw [heq]
      exact .child hq hlt (ih q.index hlt (hlt.trans hs) rfl)

lemma Chain.head? {l : List ScopeId} (h : t.Chain s l) : l.head? = some s := by
  cases h with
  | root => rfl
  | child _ _ _ => rfl

lemma Chain.getLast? {l : List ScopeId} (h : t.Chain s l) : l.getLast? = some global := by
  induction h with
  | root => rfl
  | child _ _ _ ih =>
    rw [List.getLast?_cons, ih]
    rfl

lemma Chain.index_le {l : List ScopeId} (h : t.Chain s l) : ∀ q ∈ l, q.index ≤ s.index := by
  induction h with
  | root => simp
  | child _ hlt _ ih =>
    intro r hr
    obtain rfl | hr := List.mem_cons.mp hr
    · exact le_rfl
    · exact (ih r hr).trans hlt.le

lemma Chain.pairwise {l : List ScopeId} (h : t.Chain s l) :
    l.Pairwise fun a b => b.index < a.index := by
  induction h with
  | root => exact List.pairwise_singleton _ _
  | child _ hlt hchain ih =>
    exact List.pairwise_cons.mpr ⟨fun r hr => (hchain.index_le r hr).trans_lt hlt, ih⟩

lemma Chain.isChain {l : List ScopeId} (h : t.Chain s l) :
    l.IsChain fun a b => t.parent? a = some b := by
  induction h with
  | root => exact List.isChain_singleton _
  | child hq _ hchain ih =>
    rw [List.isChain_cons, hchain.head?]
    refine ⟨fun r hr => ?_, ih⟩
    obtain rfl := Option.mem_some_iff.mp hr
    exact hq

/-- The ancestors depend on the parents only. -/
lemma ancestors_congr
    (h : ∀ r, (t'.scope? r).map Scope.parent = (t.scope? r).map Scope.parent) (s : ScopeId) :
    t'.ancestors s = t.ancestors s := by
  suffices hclimb : ∀ k s, t'.climb k s = t.climb k s from hclimb _ s
  -- by induction on the number of scopes climbed at most
  intro k
  induction k with
  | zero =>
    intro s
    rfl
  | succ k ih =>
    intro s
    have hs := h s
    have hih : t'.climb k = t.climb k := funext ih
    cases hsc : t.scope? s <;> cases hsc' : t'.scope? s <;> simp_all [climb]

/-! ### Names in reach -/

/-- With each name in a scope at most once, what a scope declares is an entry of it. -/
lemma Regular.declared?_eq_some_iff (ht : t.Regular) :
    t.declared? s n = some v ↔ (n, v) ∈ (t.frame s).entries := by
  have hnodup : (t.frame s).keys.Nodup := names_eq t s ▸ ht.nodup s
  rw [declared?_eq, OrderedMap.get?, mem_iff_lookup_of_nodup hnodup]

lemma isSome_lookup_iff : (t.lookup s n).isSome ↔ n ∈ t.namesInReach s := by
  rw [lookup, List.findSome?_isSome_iff, namesInReach, List.mem_flatMap]
  simp only [isSome_declared?_iff]

/-- Lists without repetitions have an element as often together as there are lists that have it. -/
lemma count_flatMap_of_nodup {α β : Type} [DecidableEq β] {f : α → List β} (l : List α)
    (hf : ∀ a, (f a).Nodup) (b : β) : (l.flatMap f).count b = l.countP fun a => b ∈ f a := by
  induction l with
  | nil => rfl
  | cons a l ih =>
    have hone : (f a).count b = if b ∈ f a then 1 else 0 := List.Nodup.count (hf a)
    rw [List.flatMap_cons, List.count_append, ih, List.countP_cons, hone]
    simp [Nat.add_comm]

/-- The ancestors of a scope are a falling sequence from the scope along its parents to the global
scope, no scope has a name twice, a look-up takes the entry of the first scope of the chain that
has the name, and it finds one exactly for the names in reach, each of which is in reach once for
each scope of the chain that declares it. -/
theorem visibility_is_lookup {t : ScopeTree} (ht : t.Made) :
    (∀ s, (t.names s).Nodup) ∧
    ∀ s : ScopeId, s.index < t.size →
      ((t.ancestors s).head? = some s ∧ (t.ancestors s).getLast? = some global ∧
        (t.ancestors s).Pairwise (fun a b => b.index < a.index) ∧
        (t.ancestors s).IsChain (fun a b => t.parent? a = some b) ∧ t.parent? global = none) ∧
      ∀ n : Name,
        (∀ v, t.lookup s n = some v ↔ ∃ nearer a farther, t.ancestors s = nearer ++ a :: farther ∧
          (n, v) ∈ (t.frame a).entries ∧ ∀ r ∈ nearer, n ∉ t.names r) ∧
        ((t.lookup s n).isSome ↔ n ∈ t.namesInReach s) ∧
        (t.namesInReach s).count n = (t.ancestors s).countP fun a => n ∈ t.names a := by
  have hreg := ht.regular
  refine ⟨hreg.nodup, fun s hs => ?_⟩
  have hchain := hreg.chain hs
  refine ⟨⟨hchain.head?, hchain.getLast?, hchain.pairwise, hchain.isChain, hreg.root⟩,
    fun n => ⟨?_, ?_, ?_⟩⟩
  · intro v
    rw [lookup, List.findSome?_eq_some_iff]
    simp only [hreg.declared?_eq_some_iff, declared?_eq_none_iff]
  · exact isSome_lookup_iff
  · exact count_flatMap_of_nodup (t.ancestors s) hreg.nodup n

/-- Three scopes inside each other. The innermost and the outermost share a name. -/
def nested : ScopeTree :=
  after [.addChild global (.method ⟨5⟩), .addChild ⟨1⟩ .block, .add global ⟨0⟩ ⟨7⟩,
    .add ⟨2⟩ ⟨0⟩ ⟨8⟩, .add ⟨1⟩ ⟨1⟩ ⟨9⟩]

theorem visibility_in_nested :
    nested.Made ∧ nested.size = 3 ∧ nested.ancestors ⟨2⟩ = [⟨2⟩, ⟨1⟩, global] ∧
    nested.lookup ⟨2⟩ ⟨0⟩ = some ⟨8⟩ ∧ (nested.namesInReach ⟨2⟩).count ⟨0⟩ = 2 ∧
    ∃ nearer a farther, nested.ancestors ⟨2⟩ = nearer ++ a :: farther ∧
      (⟨1⟩, ⟨9⟩) ∈ (nested.frame a).entries ∧ ∀ r ∈ nearer, ⟨1⟩ ∉ nested.names r := by
  have hmade : nested.Made := made_after _
  have h := (visibility_is_lookup hmade).2 ⟨2⟩ (by decide)
  refine ⟨hmade, rfl, rfl, rfl, ?_, ?_⟩
  · exact (h.2 ⟨0⟩).2.2.trans (by decide)
  · exact ((h.2 ⟨1⟩).1 ⟨9⟩).mp rfl

end ScopeTree

end NameBinding
