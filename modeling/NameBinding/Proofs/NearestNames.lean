import NameBinding.Proofs.EditDistance

/-!
The names that are offered in place of one that is not found. Of the candidates near enough they are
the best: fewer edits come first, and among names at the same distance the one that occurs first.
Texts without a common character are too far apart for either to be offered in place of the other.
-/

namespace NameBinding

namespace Suggestion

/-! ### The number of edits -/

/-- The least number of edits that turn one text into the other. -/
noncomputable def leastEdits (source target : String) : Nat :=
  sInf {n | ∃ script : List Edit, script.length = n ∧
    Edit.applyAll source.toList script = some target.toList}

lemma cell_comm (xs ys : List Char) : cell xs ys = cell ys xs := by
  induction xs, ys using cell.induct with
  | case1 ys => rw [cell_nil_left, cell_nil_right]
  | case2 x xs => rw [cell_nil_left, cell_nil_right]
  | case3 x xs y ys ihabove ihleft ihdiagonal =>
    have hcost : (if x = y then 0 else 1) = if y = x then 0 else 1 := by
      simp only [eq_comm]
    rw [cell_cons_cons, cell_cons_cons, ihabove, ihleft, ihdiagonal, hcost]
    omega

/-- Edits can be undone, so the distance is the same from both ends. -/
lemma distance_eq_leastEdits (source target : String) :
    distance source target = leastEdits target source := by
  rw [distance_eq_cell, cell_comm]
  obtain ⟨script, hlead, hlength⟩ := exists_leads target.toList.reverse source.toList.reverse
  have hscript : Edit.applyAll target.toList script = some source.toList := by
    simpa only [Leads, List.reverse_reverse] using hlead
  apply le_antisymm
  · refine le_csInf ⟨_, script, rfl, hscript⟩ ?_
    rintro n ⟨other, rfl, hother⟩
    exact cell_le_length hother
  · exact Nat.sInf_le ⟨script, hlength, hscript⟩

/-- Without a common character nothing of the longer text can be kept. -/
lemma max_length_le_cell {xs ys : List Char} (h : xs.Disjoint ys) :
    max xs.length ys.length ≤ cell xs ys := by
  induction xs, ys using cell.induct with
  | case1 ys => simp [cell_nil_left]
  | case2 x xs => simp [cell_nil_right]
  | case3 x xs y ys ihabove ihleft ihdiagonal =>
    have hne : x ≠ y := fun hxy => h List.mem_cons_self (hxy ▸ List.mem_cons_self)
    have habove := ihabove (List.disjoint_of_disjoint_cons_left h)
    have hleft := ihleft (List.disjoint_of_disjoint_cons_right h)
    have hdiagonal := ihdiagonal
      (List.disjoint_of_disjoint_cons_left (List.disjoint_of_disjoint_cons_right h))
    rw [cell_cons_cons, if_neg hne]
    simp only [List.length_cons] at *
    omega

lemma length_le_distance {source target : String}
    (h : source.toList.Disjoint target.toList) : source.length ≤ distance source target := by
  have hreverse : source.toList.reverse.Disjoint target.toList.reverse := by simpa using h
  have hle := max_length_le_cell hreverse
  rw [← distance_eq_cell, List.length_reverse, String.length_toList] at hle
  omega

/-! ### Candidates -/

/-- A candidate that may be offered: it is not the name sought itself, it is near enough to that
name, and at fewer edits from it than that name has characters. -/
structure Eligible (target : String) (candidates : List String) (maxDistance : Nat) (c : String) :
    Prop where
  mem : c ∈ candidates
  ne : c ≠ target
  near : leastEdits c target ≤ min maxDistance (target.length / 3 + 1)
  short : leastEdits c target < target.length

/-- Candidates are ranked by the number of edits, and then by where they occur first. -/
noncomputable def rank (target : String) (candidates : List String) (c : String) : ℕ ×ₗ ℕ :=
  toLex (leastEdits c target, candidates.idxOf c)

variable {target : String} {candidates : List String} {maxDistance maxCount : Nat} {c : String}

lemma eligible_iff : Eligible target candidates maxDistance c ↔
    c ∈ candidates ∧ eligible target maxDistance c = true := by
  simp only [eligible, reach, distance_eq_leastEdits, String.length_toList, Bool.and_eq_true,
    decide_eq_true_eq]
  exact ⟨fun h => ⟨h.mem, ⟨h.ne, h.near⟩, h.short⟩, fun ⟨hmem, ⟨hne, hnear⟩, hshort⟩ =>
    ⟨hmem, hne, hnear, hshort⟩⟩

/-- Without its repetitions a list has its elements in the order of their first occurrences. -/
lemma pairwise_idxOf_eraseDups (l : List String) :
    l.eraseDups.Pairwise fun a b => l.idxOf a < l.idxOf b := by
  induction l using List.reverseRecOn with
  | nil => simp
  | append_singleton l x ih =>
    have hold : ∀ a ∈ l.eraseDups, (l ++ [x]).idxOf a = l.idxOf a := fun a ha =>
      List.idxOf_append_of_mem (List.mem_eraseDups.mp ha)
    have hkept : l.eraseDups.Pairwise fun a b => (l ++ [x]).idxOf a < (l ++ [x]).idxOf b := by
      refine ih.imp_of_mem fun ha hb hab => ?_
      rwa [hold _ ha, hold _ hb]
    rw [List.eraseDups_append]
    by_cases hx : x ∈ l
    · simpa [List.removeAll, hx] using hkept
    · have hlast : (l ++ [x]).idxOf x = l.length := by
        simp [List.idxOf_append_of_notMem hx]
      have hone : ([x].removeAll l).eraseDups = [x] := by
        simp [List.removeAll, hx, List.eraseDups_cons]
      rw [hone, List.pairwise_append]
      refine ⟨hkept, List.pairwise_singleton _ _, fun a ha b hb => ?_⟩
      obtain rfl := List.mem_singleton.mp hb
      rw [hold a ha, hlast]
      exact List.idxOf_lt_length_of_mem (List.mem_eraseDups.mp ha)

/-! ### The ranking -/

/-- The candidates at distance `d` that may be offered. -/
def level (target : String) (candidates : List String) (maxDistance d : Nat) : List String :=
  (candidates.eraseDups.filter (eligible target maxDistance)).filter fun c => distance target c = d

/-- All candidates that may be offered, the best first. -/
def ranked (target : String) (candidates : List String) (maxDistance : Nat) : List String :=
  (List.range (reach target maxDistance + 1)).flatMap (level target candidates maxDistance)

lemma nearest_eq_take : nearest target candidates maxDistance maxCount =
    (ranked target candidates maxDistance).take maxCount := rfl

lemma mem_level {d : Nat} : c ∈ level target candidates maxDistance d ↔
    Eligible target candidates maxDistance c ∧ leastEdits c target = d := by
  rw [eligible_iff]
  simp only [level, List.mem_filter, List.mem_eraseDups, distance_eq_leastEdits, decide_eq_true_eq]

lemma mem_ranked :
    c ∈ ranked target candidates maxDistance ↔ Eligible target candidates maxDistance c := by
  simp only [ranked, List.mem_flatMap, List.mem_range, mem_level]
  constructor
  · rintro ⟨d, -, h, -⟩
    exact h
  · intro h
    have hreach : leastEdits c target ≤ reach target maxDistance := by
      simpa only [reach, String.length_toList] using h.near
    exact ⟨_, Nat.lt_succ_of_le hreach, h, rfl⟩

/-- The candidates stand by distance; those at one distance keep the order of their occurrences. -/
lemma pairwise_ranked : (ranked target candidates maxDistance).Pairwise fun a b =>
    rank target candidates a < rank target candidates b := by
  rw [ranked, List.pairwise_flatMap]
  constructor
  · intro d _
    have horder : (level target candidates maxDistance d).Pairwise fun a b =>
        candidates.idxOf a < candidates.idxOf b :=
      ((pairwise_idxOf_eraseDups candidates).filter _).filter _
    refine horder.imp_of_mem fun ha hb hab => ?_
    have hsame := (mem_level.mp ha).2.trans (mem_level.mp hb).2.symm
    exact Prod.Lex.toLex_lt_toLex.mpr (.inr ⟨hsame, hab⟩)
  · refine List.pairwise_lt_range.imp fun {d d'} hlt a ha b hb => ?_
    have hda := (mem_level.mp ha).2
    have hdb := (mem_level.mp hb).2
    exact Prod.Lex.toLex_lt_toLex.mpr (.inl (by rwa [hda, hdb]))

lemma nodup_ranked : (ranked target candidates maxDistance).Nodup :=
  pairwise_ranked.imp fun h heq => (heq ▸ h).false

lemma length_ranked : (ranked target candidates maxDistance).length =
    {c | Eligible target candidates maxDistance c}.ncard := by
  have hset : {c | Eligible target candidates maxDistance c} =
      ((ranked target candidates maxDistance).toFinset : Set String) := by
    ext c
    simp [mem_ranked]
  rw [hset, Set.ncard_coe_finset, List.toFinset_card_of_nodup nodup_ranked]

/-! ### What is offered -/

/-- **What is offered is the best there is.** The names offered are all different and may all be
offered; there are as many as allowed, or else all that may be. They stand in the order of their
ranks, and whatever is left out ranks behind them. -/
theorem nearest_are_best (target : String) (candidates : List String) (maxDistance maxCount : Nat) :
    (nearest target candidates maxDistance maxCount).Nodup ∧
    (∀ c ∈ nearest target candidates maxDistance maxCount,
      Eligible target candidates maxDistance c) ∧
    (nearest target candidates maxDistance maxCount).length =
      min maxCount {c | Eligible target candidates maxDistance c}.ncard ∧
    (nearest target candidates maxDistance maxCount).Pairwise
      (fun a b => rank target candidates a < rank target candidates b) ∧
    ∀ c, Eligible target candidates maxDistance c →
      c ∉ nearest target candidates maxDistance maxCount →
      ∀ a ∈ nearest target candidates maxDistance maxCount,
        rank target candidates a < rank target candidates c := by
  have horder : (ranked target candidates maxDistance).Pairwise fun a b =>
      rank target candidates a < rank target candidates b := pairwise_ranked
  have hfirst := List.take_sublist maxCount (ranked target candidates maxDistance)
  rw [nearest_eq_take]
  refine ⟨nodup_ranked.sublist hfirst, fun c hc => mem_ranked.mp (hfirst.subset hc), ?_,
    horder.sublist hfirst, fun c hc hout a ha => ?_⟩
  · rw [List.length_take, length_ranked]
  · -- what is left out stands in the rest of the ranking
    have hsplit := List.take_append_drop maxCount (ranked target candidates maxDistance)
    have hrest : c ∈ (ranked target candidates maxDistance).drop maxCount := by
      have hmem := mem_ranked.mpr hc
      rw [← hsplit, List.mem_append] at hmem
      exact hmem.resolve_left hout
    rw [← hsplit, List.pairwise_append] at horder
    exact horder.2.2 a ha c hrest

/-- Names near to `coutn`, that one among them, and one of them twice. -/
def nearCoutn : List String := ["cont", "coutn", "count", "couts", "cont"]

theorem best_for_coutn :
    nearest "coutn" nearCoutn 3 2 = ["couts", "cont"] ∧
    Eligible "coutn" nearCoutn 3 "couts" ∧ Eligible "coutn" nearCoutn 3 "count" ∧
    rank "coutn" nearCoutn "couts" < rank "coutn" nearCoutn "cont" ∧
    rank "coutn" nearCoutn "cont" < rank "coutn" nearCoutn "count" := by
  have hoffered : nearest "coutn" nearCoutn 3 2 = ["couts", "cont"] := by decide
  have hcount : Eligible "coutn" nearCoutn 3 "count" := eligible_iff.mpr (by decide)
  obtain ⟨-, hall, -, horder, hbehind⟩ := nearest_are_best "coutn" nearCoutn 3 2
  rw [hoffered] at hall horder hbehind
  exact ⟨hoffered, hall "couts" (by simp), hcount, List.rel_of_pairwise_cons horder (by simp),
    hbehind "count" hcount (by decide) "cont" (by simp)⟩

/-- **Nothing unrelated is offered.** Every name offered has a character in common with the one
sought, so nothing is offered in place of the empty text. -/
theorem offered_share_char (target : String) (candidates : List String)
    (maxDistance maxCount : Nat) :
    (∀ c ∈ nearest target candidates maxDistance maxCount, ∃ x ∈ c.toList, x ∈ target.toList) ∧
    nearest "" candidates maxDistance maxCount = [] := by
  have hshare : ∀ sought, ∀ c ∈ nearest sought candidates maxDistance maxCount,
      ∃ x ∈ c.toList, x ∈ sought.toList := by
    intro sought c hc
    have hshort := (mem_ranked.mp (List.mem_of_mem_take hc)).short
    rw [← distance_eq_leastEdits] at hshort
    by_contra hnone
    have hdisjoint : sought.toList.Disjoint c.toList := fun x hx hx' => hnone ⟨x, hx', hx⟩
    exact (length_le_distance hdisjoint).not_gt hshort
  refine ⟨hshare target, List.eq_nil_iff_forall_not_mem.mpr fun c hc => ?_⟩
  obtain ⟨x, -, hx⟩ := hshare "" c hc
  simp at hx

theorem offered_for_ab :
    nearest "ab" ["xy", "ac", "x"] 3 3 = ["ac"] ∧ ∃ x ∈ "ac".toList, x ∈ "ab".toList := by
  have hoffered : nearest "ab" ["xy", "ac", "x"] 3 3 = ["ac"] := by decide
  exact ⟨hoffered, (offered_share_char "ab" ["xy", "ac", "x"] 3 3).1 "ac" (by simp [hoffered])⟩

end Suggestion

end NameBinding
