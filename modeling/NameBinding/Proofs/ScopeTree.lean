import NameBinding.Proofs.WellFormed.Changes

/-!
The tree of scopes seen from one scope: a list of frames, the innermost first, each with the names
that its scope declares. A tree that changes only in one scope and in scopes opened later looks the
same from everywhere above.
-/

namespace NameBinding

/-- The names that a scope declares, with their symbols. -/
abbrev Frame := OrderedMap Name SymbolId

namespace ScopeTree

/-- Every parent was created before its child. -/
def Rooted (t : ScopeTree) : Prop := ∀ s q, t.parent? s = some q → q.index < s.index

variable {t t' t'' : ScopeTree} {s r : ScopeId} {sc : Scope}

lemma Rooted.lt (ht : t.Rooted) (hs : t.scope? s = some sc) (hr : sc.parent = some r) :
    r.index < s.index :=
  ht s r (by simp [parent?, hs, hr])

lemma climb_eq_ancestors (ht : t.Rooted) {n : Nat} (hn : s.index < n) :
    t.climb n s = t.ancestors s := by
  induction hk : s.index using Nat.strong_induction_on generalizing n s with
  | _ k ih =>
    subst hk
    obtain ⟨m, rfl⟩ : ∃ m, n = m + 1 := ⟨n - 1, by omega⟩
    unfold ancestors
    simp only [climb]
    cases hs : t.scope? s with
    | none => rfl
    | some sc =>
      cases hp : sc.parent with
      | none => simp [hp]
      | some q =>
        have hq := ht.lt hs hp
        simp only [hp, Option.map_some, Option.getD_some, List.cons.injEq, true_and]
        rw [ih q.index hq (by omega : q.index < m) rfl, ih q.index hq hq rfl]

/-- A scope comes first, and then the ancestors of its parent. -/
lemma ancestors_eq (ht : t.Rooted) (hs : t.scope? s = some sc) :
    t.ancestors s = s :: (sc.parent.map t.ancestors).getD [] := by
  unfold ancestors
  simp only [climb, hs]
  cases hp : sc.parent with
  | none => rfl
  | some q =>
    simp only [Option.map_some, Option.getD_some, List.cons.injEq, true_and]
    exact climb_eq_ancestors ht (ht.lt hs hp)

/-- What a scope itself declares. -/
def frame (t : ScopeTree) (s : ScopeId) : Frame := ((t.scope? s).map (·.entries)).getD .empty

/-- What is in reach of a scope, the nearest first. -/
def frames (t : ScopeTree) (s : ScopeId) : List Frame := (t.ancestors s).map t.frame

lemma declared?_eq (t : ScopeTree) (s : ScopeId) (n : Name) :
    t.declared? s n = (t.frame s).get? n := by
  unfold declared? frame
  cases t.scope? s <;> rfl

lemma lookup_eq (t : ScopeTree) (s : ScopeId) (n : Name) :
    t.lookup s n = (t.frames s).findSome? (·.get? n) := by
  simp only [lookup, frames, List.findSome?_map, declared?_eq]
  rfl

lemma frames_eq (ht : t.Rooted) (hs : t.scope? s = some sc) :
    t.frames s = sc.entries :: (sc.parent.map t.frames).getD [] := by
  unfold frames
  rw [ancestors_eq ht hs]
  cases sc.parent <;> simp [frame, hs]

/-- The view from a scope is made of the scopes up to its own index. -/
lemma frames_congr (ht : t.Rooted) (ht' : t'.Rooted)
    (h : ∀ r : ScopeId, r.index ≤ s.index → t'.scope? r = t.scope? r) :
    t'.frames s = t.frames s := by
  induction hk : s.index using Nat.strong_induction_on generalizing s with
  | _ k ih =>
    subst hk
    cases hs : t.scope? s with
    | none =>
      have hs' := (h s le_rfl).trans hs
      simp [frames, ancestors, climb, hs, hs']
    | some sc =>
      have hs' := (h s le_rfl).trans hs
      rw [frames_eq ht hs, frames_eq ht' hs']
      cases hp : sc.parent with
      | none => rfl
      | some q =>
        have hq := ht.lt hs hp
        simp only [Option.map_some, Option.getD_some, List.cons.injEq, true_and]
        exact ih q.index hq (fun r hr => h r (by omega)) rfl

/-! ### Growth -/

/-- The second tree comes from the first by declarations in `s`, and in scopes opened since. -/
structure GrowsAt (s : ScopeId) (t t' : ScopeTree) : Prop where
  rooted : t'.Rooted
  size : t.size ≤ t'.size
  other : ∀ r : ScopeId, r.index < t.size → r ≠ s → t'.scope? r = t.scope? r
  same : ∀ sc, t.scope? s = some sc →
    ∃ sc', t'.scope? s = some sc' ∧ sc'.kind = sc.kind ∧ sc'.parent = sc.parent

lemma GrowsAt.refl (ht : t.Rooted) : GrowsAt s t t :=
  ⟨ht, le_rfl, fun _ _ _ => rfl, fun sc h => ⟨sc, h, rfl, rfl⟩⟩

lemma GrowsAt.trans (h : GrowsAt s t t') (h' : GrowsAt s t' t'') : GrowsAt s t t'' := by
  refine ⟨h'.rooted, h.size.trans h'.size, fun r hr hne => ?_, fun sc hsc => ?_⟩
  · rw [h'.other r (hr.trans_le h.size) hne, h.other r hr hne]
  · obtain ⟨sc', hsc', hk, hp⟩ := h.same sc hsc
    obtain ⟨sc'', hsc'', hk', hp'⟩ := h'.same sc' hsc'
    exact ⟨sc'', hsc'', hk'.trans hk, hp'.trans hp⟩

lemma scope?_of_lt (hs : s.index < t.size) : ∃ sc, t.scope? s = some sc :=
  ⟨_, Array.getElem?_eq_getElem hs⟩

/-- From the scope that grows, only the innermost frame looks different. -/
lemma GrowsAt.frames (h : GrowsAt s t t') (ht : t.Rooted) (hs : s.index < t.size) :
    t'.frames s = t'.frame s :: (t.frames s).tail := by
  obtain ⟨sc, hsc⟩ := scope?_of_lt hs
  obtain ⟨sc', hsc', -, hpar⟩ := h.same sc hsc
  rw [frames_eq h.rooted hsc', frames_eq ht hsc, hpar, List.tail_cons]
  congr 1
  · simp [frame, hsc']
  · cases hp : sc.parent with
    | none => rfl
    | some q =>
      have hq := ht.lt hsc hp
      simp only [Option.map_some, Option.getD_some]
      refine frames_congr ht h.rooted fun r hr => h.other r (by omega) ?_
      rintro rfl
      omega

lemma size_addChild (t : ScopeTree) (s : ScopeId) (kind : ScopeKind) :
    (t.addChild s kind).2.size = t.size + 1 := by
  simp [addChild, size]

/-- A scope opened anew leaves all others as they are. -/
lemma scope?_addChild_of_lt (s : ScopeId) (kind : ScopeKind) (hr : r.index < t.size) :
    (t.addChild s kind).2.scope? r = t.scope? r := by
  rw [scope?_addChild, if_neg (by omega)]

lemma Rooted.addChild (ht : t.Rooted) (hs : s.index < t.size) (kind : ScopeKind) :
    (t.addChild s kind).2.Rooted := by
  intro r q h
  unfold parent? at h
  rw [scope?_addChild] at h
  split at h
  · next hr =>
    obtain rfl : s = q := by simpa using h
    omega
  · exact ht r q h

/-- From a scope just opened one sees an empty frame, and then what its parent sees. -/
lemma frames_addChild (ht : t.Rooted) (hs : s.index < t.size) (kind : ScopeKind) :
    (t.addChild s kind).2.frames ⟨t.size⟩ = .empty :: t.frames s := by
  have hroot := ht.addChild hs kind
  rw [frames_eq hroot (by rw [scope?_addChild, if_pos rfl])]
  simp only [Option.map_some, Option.getD_some, List.cons.injEq, true_and]
  exact frames_congr ht hroot fun r hr => scope?_addChild_of_lt s kind (by omega)

/-- What happens in a scope opened anew, and below it, is not seen from its parent. -/
lemma GrowsAt.close (ht : t.Rooted) (hs : s.index < t.size) {kind : ScopeKind}
    (h : GrowsAt ⟨t.size⟩ (t.addChild s kind).2 t') :
    GrowsAt s t t' ∧ t'.frames s = t.frames s := by
  have hsize := h.size
  rw [size_addChild] at hsize
  have hold : ∀ r : ScopeId, r.index < t.size → t'.scope? r = t.scope? r := by
    intro r hr
    rw [h.other r (by rw [size_addChild]; omega) (by rintro rfl; simp at hr),
      scope?_addChild_of_lt s kind hr]
  refine ⟨⟨h.rooted, by omega, fun r hr _ => hold r hr, fun sc hsc => ?_⟩, ?_⟩
  · exact ⟨sc, by rw [hold s hs, hsc], rfl, rfl⟩
  · exact frames_congr ht h.rooted fun r hr => hold r (by omega)

lemma declared?_eq_none_of_add {n : Name} {v : SymbolId} (h : t.add s n v = .ok t') :
    t.declared? s n = none := by
  cases hd : t.declared? s n with
  | none => rfl
  | some w => simp [add_eq_error_iff.mpr hd] at h

lemma exists_add {n : Name} (v : SymbolId) (h : t.declared? s n = none) :
    ∃ t', t.add s n v = .ok t' := by
  cases ha : t.add s n v with
  | ok t' => exact ⟨t', rfl⟩
  | error w => simp [add_eq_error_iff.mp ha] at h

/-- A declared symbol comes last in its scope. -/
lemma symbols_add {n : Name} {v : SymbolId} (h : t.add s n v = .ok t') (hs : s.index < t.size)
    (r : ScopeId) : t'.symbols r = if r = s then t.symbols r ++ [v] else t.symbols r := by
  unfold symbols
  rw [scope?_add h]
  split
  · next hr =>
    subst hr
    obtain ⟨sc, hsc⟩ := scope?_of_lt hs
    have hnew : sc.entries.get? n = none := by
      simpa [declared?, hsc] using declared?_eq_none_of_add h
    simp [hsc, Scope.symbols, OrderedMap.insertIfNew, OrderedMap.contains, hnew, OrderedMap.values]
  · rfl

/-- A scope opened anew declares nothing. -/
lemma symbols_addChild (t : ScopeTree) (s : ScopeId) (kind : ScopeKind) (r : ScopeId) :
    (t.addChild s kind).2.symbols r = t.symbols r := by
  unfold symbols
  rw [scope?_addChild]
  split
  · next hr =>
    have hnone : t.scope? r = none := Array.getElem?_eq_none hr.ge
    rw [hnone]
    rfl
  · rfl

lemma frame_add {n : Name} {v : SymbolId} (h : t.add s n v = .ok t') (hs : s.index < t.size) :
    t'.frame s = (t.frame s).insertIfNew n v := by
  obtain ⟨sc, hsc⟩ := scope?_of_lt hs
  simp [frame, scope?_add h, hsc]

lemma GrowsAt.add {n : Name} {v : SymbolId} (ht : t.Rooted) (h : t.add s n v = .ok t') :
    GrowsAt s t t' := by
  refine ⟨?_, (size_add h).ge, fun r _ hne => ?_, fun sc hsc => ?_⟩
  · intro r q hq
    refine ht r q ?_
    unfold parent? at hq ⊢
    rw [scope?_add h] at hq
    split at hq
    · rwa [Option.bind_map] at hq
    · exact hq
  · rw [scope?_add h, if_neg hne]
  · exact ⟨{ sc with entries := sc.entries.insertIfNew n v },
      by rw [scope?_add h, if_pos rfl, hsc]; rfl, rfl, rfl⟩

end ScopeTree

end NameBinding
