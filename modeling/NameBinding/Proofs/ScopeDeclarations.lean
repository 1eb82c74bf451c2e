import NameBinding.Proofs.ScopeChains

/-!
What a declaration changes. A name that a scope has already is refused and nothing changes.
A new one is found from the scope itself and from the scopes below it, up to those that have the
name themselves or a nearer scope with it, and no other look-up changes.
-/

namespace NameBinding

namespace ScopeTree

variable {t t' : ScopeTree} {s r : ScopeId} {n m : Name} {v : SymbolId}

/-- A search for the name that starts in `r` comes to `s`: that is `r` or an ancestor of it, and no
scope nearer to `r` declares the name. -/
def Reaches (t : ScopeTree) (r s : ScopeId) (n : Name) : Prop :=
  ∃ nearer farther, t.ancestors r = nearer ++ s :: farther ∧ ∀ q ∈ nearer, n ∉ t.names q

lemma ancestors_add (h : t.add s n v = .ok t') (r : ScopeId) : t'.ancestors r = t.ancestors r := by
  apply ancestors_congr
  intro q
  rw [scope?_of_add h]
  split
  · rw [Option.map_map]
    rfl
  · rfl

/-- A look-up after a declaration searches the same scopes, of which one has a new name. -/
lemma lookup_add (h : t.add s n v = .ok t') (hs : s.index < t.size) (r : ScopeId) (m : Name) :
    t'.lookup r m = (t.ancestors r).findSome? fun a =>
      if a = s ∧ m = n then some v else t.declared? a m := by
  rw [lookup, ancestors_add h]
  congr 1
  exact funext fun a => declared?_add h hs a m

lemma lookup_add_of_ne (h : t.add s n v = .ok t') (hs : s.index < t.size) (r : ScopeId)
    (hne : m ≠ n) : t'.lookup r m = t.lookup r m := by
  rw [lookup_add h hs, lookup]
  simp [hne]

lemma lookup_add_of_reaches (h : t.add s n v = .ok t') (hs : s.index < t.size)
    (hreach : t.Reaches r s n) : t'.lookup r n = some v := by
  obtain ⟨nearer, farther, hsplit, hnot⟩ := hreach
  rw [lookup_add h hs, hsplit, List.findSome?_append]
  cases hfind : nearer.findSome? fun a => if a = s ∧ n = n then some v else t.declared? a n with
  | none => simp
  | some w =>
    -- nearer than `s` there is nothing to find but `s` itself
    obtain ⟨q, hq, hw⟩ := List.exists_of_findSome?_eq_some hfind
    rw [declared?_eq_none_iff.mpr (hnot q hq)] at hw
    simp only [and_true] at hw
    split at hw
    · simp [hw]
    · cases hw

/-- Searching a list for one more place finds what was found before, unless the search comes to that
place. -/
lemma findSome?_update {α β : Type} [DecidableEq α] (f : α → Option β) (s : α) (v : β)
    (l : List α) :
    (l.findSome? fun a => if a = s then some v else f a) = l.findSome? f ∨
    ∃ nearer farther, l = nearer ++ s :: farther ∧ ∀ q ∈ nearer, f q = none := by
  induction l with
  | nil => exact .inl rfl
  | cons a l ih =>
    by_cases ha : a = s
    · subst ha
      exact .inr ⟨[], l, rfl, by simp⟩
    · cases hf : f a with
      | some w => exact .inl (by simp [ha, hf])
      | none =>
        obtain heq | ⟨nearer, farther, rfl, hnone⟩ := ih
        · exact .inl (by simpa [ha, hf] using heq)
        · exact .inr ⟨a :: nearer, farther, rfl, List.forall_mem_cons.mpr ⟨hf, hnone⟩⟩

lemma lookup_add_of_not_reaches (h : t.add s n v = .ok t') (hs : s.index < t.size)
    (hreach : ¬ t.Reaches r s n) : t'.lookup r n = t.lookup r n := by
  rw [lookup_add h hs, lookup]
  simp only [and_true]
  obtain heq | ⟨nearer, farther, hsplit, hnone⟩ :=
    findSome?_update (t.declared? · n) s v (t.ancestors r)
  · exact heq
  · exact absurd ⟨nearer, farther, hsplit, fun q hq => declared?_eq_none_iff.mp (hnone q hq)⟩ hreach

/-- Declaring a name that a scope has answers the symbol it stands for and leaves the tree.
Otherwise the name is entered, as the last of the scope, and no other scope changes. A look-up of
the name then finds the symbol where its search comes to the scope, and all others find what they
found before. -/
theorem add_changes_lookups_it_reaches {t : ScopeTree} {s : ScopeId} (hs : s.index < t.size)
    (n : Name) (v : SymbolId) :
    (∀ w, t.declared? s n = some w →
      t.add s n v = .error w ∧ t.perform (.add s n v) = (.taken w, t)) ∧
    (t.declared? s n = none → ∃ t', t.add s n v = .ok t' ∧
      t.perform (.add s n v) = (.entered, t') ∧ t'.size = t.size ∧
      (∀ sc, t.scope? s = some sc →
        t'.scope? s = some { sc with entries := ⟨sc.entries.entries ++ [(n, v)]⟩ }) ∧
      (∀ r, r ≠ s → t'.scope? r = t.scope? r) ∧
      ∀ r m,
        (m = n ∧ t.Reaches r s n → t'.lookup r m = some v) ∧
        (¬ (m = n ∧ t.Reaches r s n) → t'.lookup r m = t.lookup r m)) := by
  refine ⟨fun w hw => ⟨add_eq_error_iff.mpr hw, perform_of_taken v hw⟩, fun hnew => ?_⟩
  obtain ⟨t', hadd⟩ := exists_add v hnew
  have hscope := scope?_of_add hadd
  refine ⟨t', hadd, perform_of_add hadd, size_add hadd, ?_, ?_, ?_⟩
  · intro sc hsc
    rw [hscope, if_pos rfl, hsc]
    rfl
  · intro r hr
    rw [hscope, if_neg hr]
  · intro r m
    constructor
    · rintro ⟨rfl, hreach⟩
      exact lookup_add_of_reaches hadd hs hreach
    · intro hnot
      by_cases hm : m = n
      · subst hm
        exact lookup_add_of_not_reaches hadd hs fun hreach => hnot ⟨rfl, hreach⟩
      · exact lookup_add_of_ne hadd hs r hm

/-- A name entered between two scopes that have it is found from its own scope, and the inner scope
still finds its own entry. -/
theorem add_between_nested :
    1 < nested.size ∧ nested.declared? ⟨1⟩ ⟨0⟩ = none ∧ nested.Reaches ⟨1⟩ ⟨1⟩ ⟨0⟩ ∧
    ¬ nested.Reaches ⟨2⟩ ⟨1⟩ ⟨0⟩ ∧ nested.add global ⟨0⟩ ⟨10⟩ = .error ⟨7⟩ ∧
    ∃ t', nested.add ⟨1⟩ ⟨0⟩ ⟨10⟩ = .ok t' ∧ t'.lookup ⟨1⟩ ⟨0⟩ = some ⟨10⟩ ∧
      t'.lookup ⟨2⟩ ⟨0⟩ = some ⟨8⟩ := by
  have hreach : nested.Reaches ⟨1⟩ ⟨1⟩ ⟨0⟩ := ⟨[], [global], rfl, by simp⟩
  have hnot : ¬ nested.Reaches ⟨2⟩ ⟨1⟩ ⟨0⟩ := by
    rintro ⟨nearer, farther, hsplit, hnone⟩
    have hchain : nested.ancestors ⟨2⟩ = [⟨2⟩, ⟨1⟩, global] := rfl
    rw [hchain] at hsplit
    cases nearer with
    | nil => cases hsplit
    | cons q nearer =>
      obtain ⟨rfl, -⟩ := List.cons.inj hsplit
      exact hnone ⟨2⟩ List.mem_cons_self (by decide)
  have hone : 1 < nested.size := by decide
  have hglobal := add_changes_lookups_it_reaches (t := nested) (s := global) (by decide) ⟨0⟩ ⟨10⟩
  obtain ⟨t', hadd, -, -, -, -, hlookup⟩ :=
    (add_changes_lookups_it_reaches (s := ⟨1⟩) hone ⟨0⟩ ⟨10⟩).2 rfl
  refine ⟨hone, rfl, hreach, hnot, (hglobal.1 ⟨7⟩ rfl).1, t', hadd, ?_, ?_⟩
  · exact (hlookup ⟨1⟩ ⟨0⟩).1 ⟨rfl, hreach⟩
  · exact (hlookup ⟨2⟩ ⟨0⟩).2 fun h => hnot h.2

end ScopeTree

end NameBinding
