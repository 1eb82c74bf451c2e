import NameBinding.Proofs.Numerals
import NameBinding.Text.Quoted

/-!
Quoted text is read back: a reader that knows the escapes finds the characters between the quotes,
and stops at the closing quote.
-/

namespace NameBinding.Text

/-- Where the reader stands between the quotes. -/
inductive QuoteMode
  | plain
  | escape
  /-- Within the number of a character, as far as it was read. -/
  | number (value : Nat)

/-- The characters that are written with a backslash and one other character. -/
def escapedChar (c : Char) : Char :=
  if c = '0' then '\x00'
  else if c = 't' then '\t'
  else if c = 'r' then '\r'
  else if c = 'n' then '\n'
  else c

/-- The characters up to the closing quote, and what follows it. -/
def readQuoted (quote : Char) : QuoteMode → List Char → Option (List Char × List Char)
  | _, [] => none
  | .plain, c :: cs =>
    if c = quote then some ([], cs)
    else if c = '\\' then readQuoted quote .escape cs
    else (readQuoted quote .plain cs).map fun (s, r) => (c :: s, r)
  | .escape, c :: cs =>
    if c = 'u' then readQuoted quote (.number 0) cs
    else (readQuoted quote .plain cs).map fun (s, r) => (escapedChar c :: s, r)
  | .number value, c :: cs =>
    if c = '\x7b' then readQuoted quote (.number value) cs
    else if c = '\x7d' then
      (readQuoted quote .plain cs).map fun (s, r) => (Char.ofNat value :: s, r)
    else (Numeral.digit? 16 c).bind fun d => readQuoted quote (.number (16 * value + d)) cs

variable {quote : Char}

/-- The digits of a number are read until the closing brace. -/
lemma readQuoted_number {ds : List Char} {m n : Nat} (r : List Char)
    (hds : ∀ c ∈ ds, c ≠ '\x7b' ∧ c ≠ '\x7d')
    (h : ds.foldlM (fun n c => (Numeral.digit? 16 c).map (16 * n + ·)) m = some n) :
    readQuoted quote (.number m) (ds ++ '\x7d' :: r) =
      (readQuoted quote .plain r).map fun x => (Char.ofNat n :: x.1, x.2) := by
  induction ds generalizing m with
  | nil =>
    obtain rfl := Option.some.inj h
    simp [readQuoted]
  | cons d ds ih =>
    obtain ⟨hd, hds⟩ := List.forall_mem_cons.mp hds
    rw [List.foldlM_cons] at h
    obtain ⟨k, hk, h⟩ := Option.bind_eq_some_iff.mp h
    obtain ⟨v, hv, rfl⟩ := Option.map_eq_some_iff.mp hk
    rw [List.cons_append, readQuoted, if_neg hd.1, if_neg hd.2, hv, Option.bind_some]
    exact ih hds h

/-- A character that was escaped is read back. -/
lemma readQuoted_escape (hquote : quote = '"' ∨ quote = '\'') (c : Char) (r : List Char) :
    readQuoted quote .plain (escape quote c ++ r) =
      (readQuoted quote .plain r).map fun x => (c :: x.1, x.2) := by
  have hback : '\\' ≠ quote := by rcases hquote with rfl | rfl <;> decide
  unfold escape
  split_ifs with hnul htab hreturn hfeed hself hnumber
  · simp [readQuoted, hback, escapedChar, hnul]
  · simp [readQuoted, hback, escapedChar, htab]
  · simp [readQuoted, hback, escapedChar, hreturn]
  · simp [readQuoted, hback, escapedChar, hfeed]
  · have hc : c = '\\' ∨ c = '"' ∨ c = '\'' := by
      simp only [Bool.or_eq_true, decide_eq_true_eq] at hself
      rcases hself with rfl | rfl
      · exact .inl rfl
      · exact .inr hquote
    rcases hc with rfl | rfl | rfl <;> simp [readQuoted, hback, escapedChar]
  · have hdigits : ∀ d ∈ Nat.toDigits 16 c.toNat, d ≠ '\x7b' ∧ d ≠ '\x7d' := by
      intro d hd
      obtain ⟨k, -, rfl⟩ := Numeral.exists_digitChar_of_mem (by decide) hd
      exact ⟨Nat.digitChar_ne _ (by decide), Nat.digitChar_ne _ (by decide)⟩
    have hread : readQuoted quote (.number 0) (Nat.toDigits 16 c.toNat ++ '\x7d' :: r) =
        (readQuoted quote .plain r).map fun x => (Char.ofNat c.toNat :: x.1, x.2) :=
      readQuoted_number r hdigits (Numeral.foldlM_toDigits (by decide) le_rfl c.toNat)
    rw [Char.ofNat_toNat] at hread
    simp [numberEscape, readQuoted, hback, hread]
  · simp only [Bool.or_eq_true, decide_eq_true_eq, not_or] at hself
    simp [readQuoted, hself.1, hself.2]

lemma readQuoted_flatMap (hquote : quote = '"' ∨ quote = '\'') (cs r : List Char) :
    readQuoted quote .plain (cs.flatMap (escape quote) ++ quote :: r) = some (cs, r) := by
  induction cs with
  | nil => simp [readQuoted]
  | cons c cs ih =>
    rw [List.flatMap_cons, List.append_assoc, readQuoted_escape hquote, ih]
    rfl

end NameBinding.Text
