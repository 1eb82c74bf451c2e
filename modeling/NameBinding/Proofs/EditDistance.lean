import Mathlib
import NameBinding.Suggestion

/-!
The distance between two texts as the least number of edits. An edit inserts, deletes or substitutes
one character anywhere in a text, and a script is a list of edits made one after the other. The
table of distances is filled row by row; its cells follow a recurrence, which no script undercuts
and which some script attains.
-/

namespace NameBinding

/-! ### Scripts of edits -/

/-- A change of one character at a position. -/
inductive Edit
  | insert (position : Nat) (c : Char)
  | delete (position : Nat)
  | substitute (position : Nat) (c : Char)
deriving DecidableEq

namespace Edit

/-- The text after an edit, if the text has the position. -/
def apply (text : List Char) : Edit → Option (List Char)
  | insert i c => if i ≤ text.length then some (text.take i ++ c :: text.drop i) else none
  | delete i => if i < text.length then some (text.take i ++ text.drop (i + 1)) else none
  | substitute i c =>
    if i < text.length then some (text.take i ++ c :: text.drop (i + 1)) else none

/-- The text after all edits of a script. -/
def applyAll (text : List Char) (script : List Edit) : Option (List Char) :=
  script.foldlM apply text

variable {text u : List Char} {e : Edit} {script : List Edit}

@[simp] lemma applyAll_nil (text : List Char) : applyAll text [] = some text := rfl

@[simp] lemma applyAll_cons (text : List Char) (e : Edit) (script : List Edit) :
    applyAll text (e :: script) = (e.apply text).bind (applyAll · script) := rfl

lemma applyAll_concat (h : applyAll text script = some u) (e : Edit) :
    applyAll text (script ++ [e]) = e.apply u := by
  have hbind : applyAll text (script ++ [e]) = (applyAll text script).bind fun v => e.apply v := by
    simp [applyAll, List.foldlM_append]
  rw [hbind, h, Option.bind_some]

/-- An edit changes one character between two parts that stay. -/
lemma apply_cases (h : e.apply text = some u) :
    ∃ l r, (∃ c, text = l ++ r ∧ u = l ++ c :: r) ∨ (∃ c, text = l ++ c :: r ∧ u = l ++ r) ∨
      ∃ c d, text = l ++ c :: r ∧ u = l ++ d :: r := by
  have hsplit : ∀ i, i < text.length → ∃ c, text = text.take i ++ c :: text.drop (i + 1) := by
    intro i hi
    exact ⟨text[i], by rw [← List.drop_eq_getElem_cons hi, List.take_append_drop]⟩
  cases e with
  | insert i c =>
    obtain ⟨-, rfl⟩ : i ≤ text.length ∧ text.take i ++ c :: text.drop i = u := by
      simpa [apply] using h
    exact ⟨text.take i, text.drop i, .inl ⟨c, (List.take_append_drop i text).symm, rfl⟩⟩
  | delete i =>
    obtain ⟨hi, rfl⟩ : i < text.length ∧ text.take i ++ text.drop (i + 1) = u := by
      simpa [apply] using h
    obtain ⟨c, hc⟩ := hsplit i hi
    exact ⟨text.take i, text.drop (i + 1), .inr (.inl ⟨c, hc, rfl⟩)⟩
  | substitute i d =>
    obtain ⟨hi, rfl⟩ : i < text.length ∧ text.take i ++ d :: text.drop (i + 1) = u := by
      simpa [apply] using h
    obtain ⟨c, hc⟩ := hsplit i hi
    exact ⟨text.take i, text.drop (i + 1), .inr (.inr ⟨c, d, hc, rfl⟩)⟩

/-- An edit does not see what stands behind the text that it is made in. -/
lemma apply_append (h : e.apply text = some u) (rest : List Char) :
    e.apply (text ++ rest) = some (u ++ rest) := by
  cases e with
  | insert i c =>
    obtain ⟨hi, rfl⟩ : i ≤ text.length ∧ text.take i ++ c :: text.drop i = u := by
      simpa [apply] using h
    have hlong : i ≤ (text ++ rest).length := by
      rw [List.length_append]
      omega
    simp only [apply, if_pos hlong, List.take_append_of_le_length hi,
      List.drop_append_of_le_length hi, List.append_assoc, List.cons_append]
  | delete i =>
    obtain ⟨hi, rfl⟩ : i < text.length ∧ text.take i ++ text.drop (i + 1) = u := by
      simpa [apply] using h
    have hlong : i < (text ++ rest).length := by
      rw [List.length_append]
      omega
    simp only [apply, if_pos hlong, List.take_append_of_le_length hi.le,
      List.drop_append_of_le_length hi, List.append_assoc]
  | substitute i c =>
    obtain ⟨hi, rfl⟩ : i < text.length ∧ text.take i ++ c :: text.drop (i + 1) = u := by
      simpa [apply] using h
    have hlong : i < (text ++ rest).length := by
      rw [List.length_append]
      omega
    simp only [apply, if_pos hlong, List.take_append_of_le_length hi.le,
      List.drop_append_of_le_length hi, List.append_assoc, List.cons_append]

lemma applyAll_append (h : applyAll text script = some u) (rest : List Char) :
    applyAll (text ++ rest) script = some (u ++ rest) := by
  induction script generalizing text with
  | nil =>
    obtain rfl : text = u := by simpa using h
    rfl
  | cons e script ih =>
    obtain ⟨v, hv, hu⟩ := Option.bind_eq_some_iff.mp h
    rw [applyAll_cons, apply_append hv rest, Option.bind_some]
    exact ih hu

/-! ### Edits at the end of a text -/

lemma apply_insert_end (text : List Char) (c : Char) :
    (insert text.length c).apply text = some (text ++ [c]) := by
  simp [apply]

lemma apply_delete_end (text : List Char) (c : Char) :
    (delete text.length).apply (text ++ [c]) = some text := by
  simp [apply]

lemma apply_substitute_end (text : List Char) (c d : Char) :
    (substitute text.length d).apply (text ++ [c]) = some (text ++ [d]) := by
  simp [apply]

end Edit

/-! ### The recurrence of the table -/

namespace Suggestion

/-- A cell of the table. The texts up to the cell are read backwards, the last character first. -/
def cell : List Char → List Char → Nat
  | [], ys => ys.length
  | x :: xs, [] => (x :: xs).length
  | x :: xs, y :: ys =>
    min (min (cell xs (y :: ys) + 1) (cell (x :: xs) ys + 1)) (cell xs ys + if x = y then 0 else 1)
termination_by xs ys => xs.length + ys.length

variable {xs ys zs : List Char} {x y : Char}

lemma cell_nil_left (ys : List Char) : cell [] ys = ys.length := by
  rw [cell]

lemma cell_nil_right (xs : List Char) : cell xs [] = xs.length := by
  cases xs with
  | nil => rw [cell]
  | cons x xs => rw [cell]

lemma cell_cons_cons (x y : Char) (xs ys : List Char) : cell (x :: xs) (y :: ys) =
    min (min (cell xs (y :: ys) + 1) (cell (x :: xs) ys + 1))
      (cell xs ys + if x = y then 0 else 1) := by
  rw [cell]

lemma cell_self (xs : List Char) : cell xs xs = 0 := by
  induction xs with
  | nil => rw [cell_nil_left, List.length_nil]
  | cons x xs ih =>
    rw [cell_cons_cons, if_pos rfl, ih]
    omega

/-! ### Rows -/

/-- The cells of a row from some column on: `xs` is the source up to the row, and `us` the target up
to the column. -/
def rowFrom (xs us : List Char) : List Char → List Nat
  | [] => [cell xs us]
  | t :: ts => cell xs us :: rowFrom xs (t :: us) ts

lemma rowFrom_eq_cons (xs us ts : List Char) :
    rowFrom xs us ts = cell xs us :: (rowFrom xs us ts).tail := by
  cases ts <;> rfl

/-- Each cell is made from the one to the left and two of the row above, by the recurrence. -/
lemma fillRow_rowFrom (c : Char) (xs us ts : List Char) :
    fillRow c (cell (c :: xs) us) ts (rowFrom xs us ts) = (rowFrom (c :: xs) us ts).tail := by
  induction ts generalizing us with
  | nil => rfl
  | cons t ts ih =>
    have hrest : (rowFrom (c :: xs) us (t :: ts)).tail = rowFrom (c :: xs) (t :: us) ts := rfl
    have hcell : min (min (cell xs (t :: us) + 1) (cell (c :: xs) us + 1))
        (cell xs us + if c = t then 0 else 1) = cell (c :: xs) (t :: us) :=
      (cell_cons_cons c t xs us).symm
    rw [hrest, rowFrom_eq_cons (c :: xs), ← ih, rowFrom, rowFrom_eq_cons xs (t :: us), fillRow,
      hcell]

lemma nextRow_rowFrom (target xs : List Char) (c : Char) :
    nextRow target (rowFrom xs [] target) c = rowFrom (c :: xs) [] target := by
  have hfirst : cell xs [] + 1 = cell (c :: xs) [] := by
    rw [cell_nil_right, cell_nil_right, List.length_cons]
  have hfill := fillRow_rowFrom c xs [] target
  rw [rowFrom_eq_cons] at hfill
  rw [rowFrom_eq_cons xs, nextRow, hfirst, hfill, ← rowFrom_eq_cons]

/-- After some characters of the source the row holds the cells for them. -/
lemma foldl_nextRow (target source xs : List Char) :
    source.foldl (nextRow target) (rowFrom xs [] target) =
      rowFrom (source.reverse ++ xs) [] target := by
  induction source generalizing xs with
  | nil => rfl
  | cons c source ih =>
    rw [List.foldl_cons, nextRow_rowFrom, ih, List.reverse_cons, List.append_assoc]
    rfl

lemma rowFrom_nil (us ts : List Char) :
    rowFrom [] us ts = List.range' us.length (ts.length + 1) := by
  induction ts generalizing us with
  | nil => rw [rowFrom, cell_nil_left]; rfl
  | cons t ts ih =>
    rw [rowFrom, cell_nil_left, ih, List.length_cons, List.length_cons,
      List.range'_succ (n := _ + 1)]

lemma getLastD_rowFrom (xs us ts : List Char) (n : Nat) :
    (rowFrom xs us ts).getLastD n = cell xs (ts.reverse ++ us) := by
  induction ts generalizing us n with
  | nil => rfl
  | cons t ts ih =>
    rw [rowFrom, List.getLastD_cons, ih, List.reverse_cons, List.append_assoc]
    rfl

/-- The last cell of the last row is the one for the two whole texts. -/
lemma distance_eq_cell (source target : String) :
    distance source target = cell source.toList.reverse target.toList.reverse := by
  have hfirst : List.range (target.toList.length + 1) = rowFrom [] [] target.toList := by
    rw [rowFrom_nil, List.range_eq_range']
    rfl
  unfold distance
  simp only
  rw [hfirst, foldl_nextRow, getLastD_rowFrom, List.append_nil, List.append_nil]

/-! ### No script is shorter -/

/-- From wherever the second text is reached, the first one needs at most one edit more. -/
def Near (xs zs : List Char) : Prop := ∀ ys, cell xs ys ≤ cell zs ys + 1

lemma near_cons (c : Char) (xs : List Char) : Near (c :: xs) xs := by
  intro ys
  cases ys with
  | nil => rw [cell_nil_right, cell_nil_right, List.length_cons]
  | cons y ys =>
    rw [cell_cons_cons]
    omega

lemma cell_cons_right_le (xs : List Char) (y : Char) (ys : List Char) :
    cell xs (y :: ys) ≤ cell xs ys + 1 := by
  cases xs with
  | nil => rw [cell_nil_left, cell_nil_left, List.length_cons]
  | cons x xs =>
    rw [cell_cons_cons]
    omega

lemma near_tail (c : Char) (xs : List Char) : Near xs (c :: xs) := by
  intro ys
  induction ys with
  | nil =>
    rw [cell_nil_right, cell_nil_right, List.length_cons]
    omega
  | cons y ys ih =>
    have hright := cell_cons_right_le xs y ys
    rw [cell_cons_cons]
    omega

lemma near_head (c d : Char) (xs : List Char) : Near (c :: xs) (d :: xs) := by
  intro ys
  induction ys with
  | nil =>
    rw [cell_nil_right, cell_nil_right, List.length_cons, List.length_cons]
    omega
  | cons y ys ih =>
    have hcost : (if c = y then 0 else 1) ≤ 1 := by split <;> omega
    rw [cell_cons_cons, cell_cons_cons]
    omega

/-- The same character in front of both texts changes nothing. -/
lemma Near.cons (h : Near xs zs) (c : Char) : Near (c :: xs) (c :: zs) := by
  intro ys
  induction ys with
  | nil =>
    have hnil := h []
    rw [cell_nil_right, cell_nil_right] at hnil ⊢
    rw [List.length_cons, List.length_cons]
    omega
  | cons y ys ih =>
    have habove := h (y :: ys)
    have hdiagonal := h ys
    rw [cell_cons_cons, cell_cons_cons]
    omega

lemma Near.append (h : Near xs zs) (l : List Char) : Near (l ++ xs) (l ++ zs) := by
  induction l with
  | nil => exact h
  | cons c l ih => exact ih.cons c

/-- A single edit gains at most one. -/
lemma near_of_apply {text u : List Char} {e : Edit} (h : e.apply text = some u) :
    Near text.reverse u.reverse := by
  obtain ⟨l, r, ⟨c, rfl, rfl⟩ | ⟨c, rfl, rfl⟩ | ⟨c, d, rfl, rfl⟩⟩ := Edit.apply_cases h
  · simpa using (near_tail c l.reverse).append r.reverse
  · simpa using (near_cons c l.reverse).append r.reverse
  · simpa using (near_head c d l.reverse).append r.reverse

lemma cell_le_length {text u : List Char} {script : List Edit}
    (h : Edit.applyAll text script = some u) : cell text.reverse u.reverse ≤ script.length := by
  induction script generalizing text with
  | nil =>
    obtain rfl : text = u := by simpa using h
    rw [cell_self, List.length_nil]
  | cons e script ih =>
    obtain ⟨v, hv, hu⟩ := Option.bind_eq_some_iff.mp h
    calc cell text.reverse u.reverse ≤ cell v.reverse u.reverse + 1 := near_of_apply hv u.reverse
      _ ≤ script.length + 1 := Nat.succ_le_succ (ih hu)
      _ = (e :: script).length := rfl

/-! ### Some script is as short -/

/-- A script from one text, read backwards, to another. -/
def Leads (xs ys : List Char) (script : List Edit) : Prop :=
  Edit.applyAll xs.reverse script = some ys.reverse

variable {script : List Edit}

lemma Leads.delete (h : Leads xs ys script) (x : Char) :
    Leads (x :: xs) ys (.delete xs.reverse.length :: script) := by
  unfold Leads at h ⊢
  rw [List.reverse_cons, Edit.applyAll_cons, Edit.apply_delete_end, Option.bind_some, h]

lemma Leads.insert (h : Leads xs ys script) (y : Char) :
    Leads xs (y :: ys) (script ++ [.insert ys.reverse.length y]) := by
  unfold Leads at h ⊢
  rw [List.reverse_cons, Edit.applyAll_concat h, Edit.apply_insert_end]

lemma Leads.keep (h : Leads xs ys script) (x : Char) : Leads (x :: xs) (x :: ys) script := by
  unfold Leads at h ⊢
  rw [List.reverse_cons, List.reverse_cons, Edit.applyAll_append h]

lemma Leads.substitute (h : Leads xs ys script) (x y : Char) :
    Leads (x :: xs) (y :: ys) (script ++ [.substitute ys.reverse.length y]) := by
  have hkeep := h.keep x
  unfold Leads at hkeep ⊢
  rw [List.reverse_cons (a := y), Edit.applyAll_concat hkeep, List.reverse_cons,
    Edit.apply_substitute_end]

/-- Whichever of its three neighbours a cell is made from, one edit more or none leads on. -/
lemma exists_leads (xs ys : List Char) :
    ∃ script, Leads xs ys script ∧ script.length = cell xs ys := by
  induction xs, ys using cell.induct with
  | case1 ys =>
    rw [cell_nil_left]
    induction ys with
    | nil => exact ⟨[], rfl, rfl⟩
    | cons y ys ih =>
      obtain ⟨script, hlead, hlength⟩ := ih
      exact ⟨_, hlead.insert y, by simp [hlength]⟩
  | case2 x xs =>
    rw [cell_nil_right]
    generalize x :: xs = zs
    induction zs with
    | nil => exact ⟨[], rfl, rfl⟩
    | cons z zs ih =>
      obtain ⟨script, hlead, hlength⟩ := ih
      exact ⟨_, hlead.delete z, by simp [hlength]⟩
  | case3 x xs y ys ihabove ihleft ihdiagonal =>
    obtain ⟨above, hleadabove, habove⟩ := ihabove
    obtain ⟨left, hleadleft, hleft⟩ := ihleft
    obtain ⟨diagonal, hleaddiagonal, hdiagonal⟩ := ihdiagonal
    have hcell := cell_cons_cons x y xs ys
    rcases min_choice (min (cell xs (y :: ys) + 1) (cell (x :: xs) ys + 1))
      (cell xs ys + if x = y then 0 else 1) with hmin | hmin
    · rcases min_choice (cell xs (y :: ys) + 1) (cell (x :: xs) ys + 1) with hmin' | hmin'
      · refine ⟨_, hleadabove.delete x, ?_⟩
        rw [List.length_cons, habove, hcell, hmin, hmin']
      · refine ⟨_, hleadleft.insert y, ?_⟩
        rw [List.length_append, List.length_singleton, hleft, hcell, hmin, hmin']
    · by_cases hxy : x = y
      · subst hxy
        refine ⟨diagonal, hleaddiagonal.keep x, ?_⟩
        rw [hdiagonal, hcell, hmin, if_pos rfl, Nat.add_zero]
      · refine ⟨_, hleaddiagonal.substitute x y, ?_⟩
        rw [List.length_append, List.length_singleton, hdiagonal, hcell, hmin, if_neg hxy]

end Suggestion

/-- **The distance is the least number of edits.** Some script of that length turns the source into
the target, and every script that does is at least as long. -/
theorem distance_isLeast_edits (source target : String) :
    IsLeast {n | ∃ script : List Edit, script.length = n ∧
      Edit.applyAll source.toList script = some target.toList}
      (Suggestion.distance source target) := by
  rw [Suggestion.distance_eq_cell]
  constructor
  · obtain ⟨script, hlead, hlength⟩ :=
      Suggestion.exists_leads source.toList.reverse target.toList.reverse
    unfold Suggestion.Leads at hlead
    rw [List.reverse_reverse, List.reverse_reverse] at hlead
    exact ⟨script, hlength, hlead⟩
  · rintro n ⟨script, rfl, hscript⟩
    exact Suggestion.cell_le_length hscript

example : Suggestion.distance "kitten" "sitting" = 3 := by decide

end NameBinding
