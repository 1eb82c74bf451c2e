import NameBinding.Proofs.ScopeChains
import NameBinding.Proofs.ScopeLayers

/-!
Equality of trees of scopes. Two trees are the same when they cannot be told apart by the kinds,
the parents and the declarations of their scopes: the order in which names were entered does not
count. Trees that are the same answer alike to look-ups and to further operations, and declarations
of different names, or in different scopes, may be made in either order.
-/

namespace NameBinding

/-- Maps with the same entries in another order have the same values. -/
lemma OrderedMap.sameEntries_iff {κ ν : Type} [DecidableEq κ] [DecidableEq ν]
    {m m' : OrderedMap κ ν} (hm : m.keys.Nodup) (hm' : m'.keys.Nodup) :
    m.sameEntries m' = true ↔ ∀ k, m.get? k = m'.get? k := by
  have hmem := mem_iff_lookup_of_nodup hm
  have hmem' := mem_iff_lookup_of_nodup hm'
  have hnodup : m.entries.Nodup := List.Nodup.of_map _ hm
  have hnodup' : m'.entries.Nodup := List.Nodup.of_map _ hm'
  rw [sameEntries, Bool.and_eq_true, beq_iff_eq, List.all_eq_true]
  constructor
  · rintro ⟨hsize, hall⟩ k
    -- as many entries, and all of them entries of the other map
    have hsub : m.entries ⊆ m'.entries := fun e he =>
      (hmem' e.1 e.2).mpr (beq_iff_eq.mp (hall e he))
    have hperm : m.entries.Perm m'.entries :=
      (List.subperm_of_subset hnodup hsub).perm_of_length_le hsize.ge
    apply Option.ext
    intro v
    rw [get?, get?, ← hmem, ← hmem', hperm.mem_iff]
  · intro hget
    have hperm : m.entries.Perm m'.entries := by
      rw [List.perm_ext_iff_of_nodup hnodup hnodup']
      rintro ⟨k, v⟩
      have hk : m.entries.lookup k = m'.entries.lookup k := hget k
      rw [hmem, hmem', hk]
    refine ⟨hperm.length_eq, fun e he => beq_iff_eq.mpr ?_⟩
    rw [← hget]
    exact (hmem e.1 e.2).mp he

namespace ScopeTree

variable {t t' t'' a b c : ScopeTree} {s r : ScopeId} {n m : Name} {v w : SymbolId}

/-! ### Trees that look alike -/

/-- The trees have as many scopes, and their scopes have the same kinds, parents and
declarations. -/
structure Alike (t t' : ScopeTree) : Prop where
  size : t.size = t'.size
  kind : ∀ s, t.kind? s = t'.kind? s
  parent : ∀ s, t.parent? s = t'.parent? s
  declared : ∀ s n, t.declared? s n = t'.declared? s n

lemma Alike.refl (t : ScopeTree) : t.Alike t := ⟨rfl, fun _ => rfl, fun _ => rfl, fun _ _ => rfl⟩

lemma Alike.symm (h : t.Alike t') : t'.Alike t :=
  ⟨h.size.symm, fun s => (h.kind s).symm, fun s => (h.parent s).symm,
    fun s n => (h.declared s n).symm⟩

lemma Alike.trans (h : t.Alike t') (h' : t'.Alike t'') : t.Alike t'' :=
  ⟨h.size.trans h'.size, fun s => (h.kind s).trans (h'.kind s),
    fun s => (h.parent s).trans (h'.parent s), fun s n => (h.declared s n).trans (h'.declared s n)⟩

lemma same_iff_scopes : t.same t' = true ↔ t.size = t'.size ∧
    ∀ s sc sc', t.scope? s = some sc → t'.scope? s = some sc' → sc.same sc' = true := by
  rw [same, Bool.and_eq_true, beq_iff_eq, List.all_eq_true]
  refine and_congr_right fun _ => ⟨?_, ?_⟩
  · intro hall s sc sc' hs hs'
    refine hall (sc, sc') (List.mem_of_getElem? (i := s.index) ?_)
    rw [List.getElem?_zip_eq_some]
    exact ⟨by simpa [scope?] using hs, by simpa [scope?] using hs'⟩
  · rintro hscopes ⟨sc, sc'⟩ hmem
    obtain ⟨i, hi⟩ := List.mem_iff_getElem?.mp hmem
    obtain ⟨hs, hs'⟩ := List.getElem?_zip_eq_some.mp hi
    exact hscopes ⟨i⟩ sc sc' (by simpa [scope?] using hs) (by simpa [scope?] using hs')

/-- Trees with as many scopes have the same scopes. -/
lemma scope?_cases (hsize : t.size = t'.size) (s : ScopeId) :
    (∃ sc sc', t.scope? s = some sc ∧ t'.scope? s = some sc') ∨
    (t.scope? s = none ∧ t'.scope? s = none) := by
  by_cases hlt : s.index < t.size
  · obtain ⟨sc, hs⟩ := scope?_of_lt hlt
    obtain ⟨sc', hs'⟩ := scope?_of_lt (hsize ▸ hlt)
    exact .inl ⟨sc, sc', hs, hs'⟩
  · have hle : t'.size ≤ s.index := hsize ▸ not_lt.mp hlt
    exact .inr ⟨Array.getElem?_eq_none (not_lt.mp hlt), Array.getElem?_eq_none hle⟩

lemma Regular.nodup_keys (ht : t.Regular) {sc : Scope} (hs : t.scope? s = some sc) :
    sc.entries.keys.Nodup := by
  have hnames : t.names s = sc.entries.keys := by
    rw [names_eq, frame, hs]
    rfl
  exact hnames ▸ ht.nodup s

lemma Regular.same_scope_iff (ht : t.Regular) (ht' : t'.Regular) {sc sc' : Scope}
    (hs : t.scope? s = some sc) (hs' : t'.scope? s = some sc') :
    sc.same sc' = true ↔ t.kind? s = t'.kind? s ∧ t.parent? s = t'.parent? s ∧
      ∀ n, t.declared? s n = t'.declared? s n := by
  rw [Scope.same, Bool.and_eq_true, Bool.and_eq_true,
    OrderedMap.sameEntries_iff (ht.nodup_keys hs) (ht'.nodup_keys hs')]
  simp [kind?, parent?, declared?, hs, hs', and_assoc]

/-- Trees are the same exactly when they look alike. -/
lemma Regular.same_iff (ht : t.Regular) (ht' : t'.Regular) : t.same t' = true ↔ t.Alike t' := by
  rw [same_iff_scopes]
  constructor
  · rintro ⟨hsize, hscopes⟩
    have halike : ∀ s, t.kind? s = t'.kind? s ∧ t.parent? s = t'.parent? s ∧
        ∀ n, t.declared? s n = t'.declared? s n := by
      intro s
      obtain ⟨sc, sc', hs, hs'⟩ | ⟨hs, hs'⟩ := scope?_cases hsize s
      · exact (ht.same_scope_iff ht' hs hs').mp (hscopes s sc sc' hs hs')
      · simp [kind?, parent?, declared?, hs, hs']
    exact ⟨hsize, fun s => (halike s).1, fun s => (halike s).2.1, fun s => (halike s).2.2⟩
  · intro h
    refine ⟨h.size, fun s sc sc' hs hs' => ?_⟩
    exact (ht.same_scope_iff ht' hs hs').mpr ⟨h.kind s, h.parent s, h.declared s⟩

lemma Alike.ancestors (h : t.Alike t') (s : ScopeId) : t.ancestors s = t'.ancestors s := by
  apply ancestors_congr
  intro r
  obtain ⟨sc, sc', hr, hr'⟩ | ⟨hr, hr'⟩ := scope?_cases h.size r
  · have hparent := h.parent r
    simp only [parent?, hr, hr', Option.bind_some] at hparent
    rw [hr, hr', Option.map_some, Option.map_some, hparent]
  · rw [hr, hr']

lemma Alike.lookup (h : t.Alike t') (s : ScopeId) (n : Name) : t.lookup s n = t'.lookup s n := by
  unfold ScopeTree.lookup
  rw [h.ancestors s]
  congr 1
  exact funext fun q => h.declared q n

/-! ### The same operations -/

lemma kind?_addChild (t : ScopeTree) (parent : ScopeId) (kind : ScopeKind) (r : ScopeId) :
    (t.addChild parent kind).2.kind? r = if r.index = t.size then some kind else t.kind? r := by
  rw [kind?, scope?_addChild]
  split <;> rfl

lemma kind?_add (h : t.add s n v = .ok t') (r : ScopeId) : t'.kind? r = t.kind? r := by
  rw [kind?, scope?_add h]
  split
  · rw [Option.map_map]
    rfl
  · rfl

lemma Alike.addChild (h : t.Alike t') (parent : ScopeId) (kind : ScopeKind) :
    (t.addChild parent kind).2.Alike (t'.addChild parent kind).2 where
  size := by rw [size_addChild, size_addChild, h.size]
  kind r := by rw [kind?_addChild, kind?_addChild, h.size, h.kind]
  parent r := by rw [parent?_addChild, parent?_addChild, h.size, h.parent]
  declared r m := by rw [declared?_addChild, declared?_addChild, h.declared]

lemma Alike.add (h : t.Alike t') (hs : s.index < t.size) (ha : t.add s n v = .ok a)
    (hb : t'.add s n v = .ok b) : a.Alike b where
  size := by rw [size_add ha, size_add hb, h.size]
  kind r := by rw [kind?_add ha, kind?_add hb, h.kind]
  parent r := by rw [parent?_add ha, parent?_add hb, h.parent]
  declared r m := by rw [declared?_add ha hs, declared?_add hb (h.size ▸ hs), h.declared]

/-- Trees that look alike answer alike, and look alike afterwards. -/
lemma Alike.perform (h : t.Alike t') {op : TreeOperation} (hop : op.scope.index < t.size) :
    (t.perform op).1 = (t'.perform op).1 ∧ (t.perform op).2.Alike (t'.perform op).2 := by
  obtain ⟨parent, kind, rfl, heq⟩ | ⟨s, n, v, w, rfl, hw, heq⟩ | ⟨s, n, v, a, rfl, ha, heq⟩ :=
    perform_cases t op
  · refine ⟨?_, h.addChild parent kind⟩
    rw [heq, h.size]
    rfl
  · rw [heq, perform_of_taken v ((h.declared s n).symm.trans hw)]
    exact ⟨rfl, h⟩
  · have hnone := (h.declared s n).symm.trans (declared?_eq_none_of_add ha)
    obtain ⟨b, hb⟩ := exists_add v hnone
    rw [heq, perform_of_add hb]
    exact ⟨rfl, h.add hop ha hb⟩

lemma Alike.run? (h : t.Alike t') {ops : List TreeOperation} {answers : List TreeAnswer}
    (hrun : t.run? ops = some (answers, a)) :
    ∃ b, t'.run? ops = some (answers, b) ∧ a.Alike b := by
  induction ops generalizing t t' answers with
  | nil =>
    obtain ⟨rfl, rfl⟩ := Prod.mk.inj (Option.some.inj hrun)
    exact ⟨t', rfl, h⟩
  | cons op ops ih =>
    obtain ⟨hlt, rest, hrest, rfl⟩ := run?_cons.mp hrun
    obtain ⟨hanswer, halike⟩ := h.perform hlt
    obtain ⟨b, hb, hab⟩ := ih halike hrest
    exact ⟨b, run?_cons.mpr ⟨h.size ▸ hlt, rest, hb, by rw [hanswer]⟩, hab⟩

/-! ### Declarations in either order -/

/-- A declaration does not keep another one from being made. -/
lemma declared?_add_of_ne (ha : t.add s n v = .ok a) (hs : s.index < t.size) {q : ScopeId}
    (hne : (s, n) ≠ (q, m)) : a.declared? q m = t.declared? q m := by
  rw [declared?_add ha hs, if_neg]
  rintro ⟨rfl, rfl⟩
  exact hne rfl

lemma exists_add_iff_of_ne (ha : t.add s n v = .ok a) (hs : s.index < t.size) {q : ScopeId}
    (w : SymbolId) (hne : (s, n) ≠ (q, m)) :
    (∃ b, a.add q m w = .ok b) ↔ ∃ c, t.add q m w = .ok c := by
  have heq := declared?_add_of_ne ha hs hne
  constructor
  · rintro ⟨b, hb⟩
    exact exists_add w (heq.symm.trans (declared?_eq_none_of_add hb))
  · rintro ⟨c, hc⟩
    exact exists_add w (heq.trans (declared?_eq_none_of_add hc))

lemma alike_of_add_add {q : ScopeId} {d : ScopeTree} (hs : s.index < t.size) (hq : q.index < t.size)
    (hne : (s, n) ≠ (q, m)) (ha : t.add s n v = .ok a) (hb : a.add q m w = .ok b)
    (hc : t.add q m w = .ok c) (hd : c.add s n v = .ok d) : b.Alike d where
  size := by rw [size_add hb, size_add ha, size_add hd, size_add hc]
  kind r := by rw [kind?_add hb, kind?_add ha, kind?_add hd, kind?_add hc]
  parent r := by rw [parent?_add hb, parent?_add ha, parent?_add hd, parent?_add hc]
  declared r k := by
    have hqa : q.index < a.size := (size_add ha).symm ▸ hq
    have hsc : s.index < c.size := (size_add hc).symm ▸ hs
    rw [declared?_add hb hqa, declared?_add ha hs, declared?_add hd hsc, declared?_add hc hq]
    split_ifs with hr hr'
    · obtain ⟨rfl, rfl⟩ := hr
      obtain ⟨rfl, rfl⟩ := hr'
      exact absurd rfl hne
    · rfl
    · rfl
    · rfl

lemma Regular.same_of_add_add (ht : t.Regular) {q : ScopeId} (hs : s.index < t.size)
    (hq : q.index < t.size) (hne : (s, n) ≠ (q, m)) (ha : t.add s n v = .ok a)
    (hb : a.add q m w = .ok b) (hc : t.add q m w = .ok c) :
    ∃ d, c.add s n v = .ok d ∧ b.same d = true := by
  obtain ⟨d, hd⟩ := (exists_add_iff_of_ne hc hq v hne.symm).mpr ⟨a, ha⟩
  have hqa : q.index < a.size := (size_add ha).symm ▸ hq
  have hsc : s.index < c.size := (size_add hc).symm ▸ hs
  have hb' : b.Regular := (ht.add hs ha).add hqa hb
  have hd' : d.Regular := (ht.add hq hc).add hsc hd
  exact ⟨d, hd, (hb'.same_iff hd').mpr (alike_of_add_add hs hq hne ha hb hc hd)⟩

/-- On the trees that operations lead to, being the same is an equivalence relation, and it holds
exactly for trees of as many scopes with the same kinds, parents and declarations. Trees that are
the same have the same ancestors and look-ups, and one operation or many give the same answers on
both and leave trees that are the same. A declaration does not change whether another one can be
made, and the two in the other order lead to the same tree. -/
theorem sameness_is_observational {t t' : ScopeTree} (ht : t.Made) (ht' : t'.Made) :
    Equivalence (fun a b : {t : ScopeTree // t.Made} => a.1.same b.1 = true) ∧
    (t.same t' = true ↔ t.size = t'.size ∧ ∀ s, t.kind? s = t'.kind? s ∧
      t.parent? s = t'.parent? s ∧ ∀ n, t.declared? s n = t'.declared? s n) ∧
    (t.same t' = true →
      (∀ s, t.ancestors s = t'.ancestors s) ∧ (∀ s n, t.lookup s n = t'.lookup s n) ∧
      (∀ op : TreeOperation, op.scope.index < t.size →
        (t.perform op).1 = (t'.perform op).1 ∧ (t.perform op).2.same (t'.perform op).2 = true) ∧
      ∀ ops answers u, t.run? ops = some (answers, u) →
        ∃ u', t'.run? ops = some (answers, u') ∧ u.same u' = true) ∧
    ∀ s n v s' n' v' a, s.index < t.size → s'.index < t.size → (s, n) ≠ (s', n') →
      t.add s n v = .ok a →
        ((∃ b, a.add s' n' v' = .ok b) ↔ ∃ c, t.add s' n' v' = .ok c) ∧
        ∀ b c, a.add s' n' v' = .ok b → t.add s' n' v' = .ok c →
          ∃ d, c.add s n v = .ok d ∧ b.same d = true := by
  have hsame : ∀ {a b : ScopeTree}, a.Made → b.Made → (a.same b = true ↔ a.Alike b) :=
    fun ha hb => ha.regular.same_iff hb.regular
  refine ⟨⟨?_, ?_, ?_⟩, ?_, fun h => ?_, ?_⟩
  · rintro ⟨a, ha⟩
    exact (hsame ha ha).mpr (.refl a)
  · rintro ⟨a, ha⟩ ⟨b, hb⟩ hab
    exact (hsame hb ha).mpr ((hsame ha hb).mp hab).symm
  · rintro ⟨a, ha⟩ ⟨b, hb⟩ ⟨c, hc⟩ hab hbc
    exact (hsame ha hc).mpr (((hsame ha hb).mp hab).trans ((hsame hb hc).mp hbc))
  · rw [hsame ht ht']
    constructor
    · intro h
      exact ⟨h.size, fun s => ⟨h.kind s, h.parent s, h.declared s⟩⟩
    · rintro ⟨hsize, h⟩
      exact ⟨hsize, fun s => (h s).1, fun s => (h s).2.1, fun s => (h s).2.2⟩
  · have halike := (hsame ht ht').mp h
    refine ⟨halike.ancestors, halike.lookup, fun op hop => ?_, fun ops answers u hu => ?_⟩
    · obtain ⟨hanswer, hafter⟩ := halike.perform hop
      exact ⟨hanswer, (hsame (ht.perform hop) (ht'.perform (halike.size ▸ hop))).mpr hafter⟩
    · obtain ⟨u', hu', hafter⟩ := halike.run? hu
      exact ⟨u', hu', (hsame (ht.run? hu) (ht'.run? hu')).mpr hafter⟩
  · intro s n v s' n' v' a hs hs' hne ha
    exact ⟨exists_add_iff_of_ne ha hs v' hne,
      fun b c hb hc => ht.regular.same_of_add_add hs hs' hne ha hb hc⟩

/-- A block with two names, entered one after the other. -/
def blockWith (first second : Name × SymbolId) : ScopeTree :=
  after [.addChild global .block, .add ⟨1⟩ first.1 first.2, .add ⟨1⟩ second.1 second.2]

/-- The order of the two names makes another tree, but the same one to look at. -/
theorem sameness_of_block :
    (blockWith (⟨0⟩, ⟨7⟩) (⟨1⟩, ⟨8⟩)).Made ∧ (blockWith (⟨1⟩, ⟨8⟩) (⟨0⟩, ⟨7⟩)).Made ∧
    blockWith (⟨0⟩, ⟨7⟩) (⟨1⟩, ⟨8⟩) ≠ blockWith (⟨1⟩, ⟨8⟩) (⟨0⟩, ⟨7⟩) ∧
    (blockWith (⟨0⟩, ⟨7⟩) (⟨1⟩, ⟨8⟩)).same (blockWith (⟨1⟩, ⟨8⟩) (⟨0⟩, ⟨7⟩)) = true ∧
    (blockWith (⟨0⟩, ⟨7⟩) (⟨1⟩, ⟨8⟩)).lookup ⟨1⟩ ⟨1⟩ =
      (blockWith (⟨1⟩, ⟨8⟩) (⟨0⟩, ⟨7⟩)).lookup ⟨1⟩ ⟨1⟩ ∧
    ((blockWith (⟨0⟩, ⟨7⟩) (⟨1⟩, ⟨8⟩)).perform (.add ⟨1⟩ ⟨2⟩ ⟨9⟩)).2.same
      ((blockWith (⟨1⟩, ⟨8⟩) (⟨0⟩, ⟨7⟩)).perform (.add ⟨1⟩ ⟨2⟩ ⟨9⟩)).2 = true := by
  have hmade : (blockWith (⟨0⟩, ⟨7⟩) (⟨1⟩, ⟨8⟩)).Made := made_after _
  have hmade' : (blockWith (⟨1⟩, ⟨8⟩) (⟨0⟩, ⟨7⟩)).Made := made_after _
  have hne : blockWith (⟨0⟩, ⟨7⟩) (⟨1⟩, ⟨8⟩) ≠ blockWith (⟨1⟩, ⟨8⟩) (⟨0⟩, ⟨7⟩) := by
    intro heq
    have hnames := congrArg (·.names ⟨1⟩) heq
    exact absurd hnames (by decide)
  have hsame : (blockWith (⟨0⟩, ⟨7⟩) (⟨1⟩, ⟨8⟩)).same (blockWith (⟨1⟩, ⟨8⟩) (⟨0⟩, ⟨7⟩)) = true := by
    decide
  obtain ⟨-, hlookup, hperform, -⟩ := (sameness_is_observational hmade hmade').2.2.1 hsame
  exact ⟨hmade, hmade', hne, hsame, hlookup ⟨1⟩ ⟨1⟩, (hperform (.add ⟨1⟩ ⟨2⟩ ⟨9⟩) (by decide)).2⟩

end ScopeTree

end NameBinding
