import Mathlib
import NameBinding.Text.Numeral

/-!
Numerals are read back: the digits of a number, in any base up to sixteen, denote the number.
-/

namespace NameBinding.Numeral

variable {b n d : Nat}

lemma digit?_digitChar (hb : b ≤ 16) (hd : d < b) : digit? b d.digitChar = some d := by
  have hd' : d < 16 := hd.trans_le hb
  interval_cases d <;> simp [digit?, Nat.digitChar, hd]

/-- Every character of a numeral is a digit of the base. -/
lemma exists_digitChar_of_mem (hb : 1 < b) {c : Char} (hc : c ∈ Nat.toDigits b n) :
    ∃ d < b, c = d.digitChar := by
  induction n using Nat.strong_induction_on with
  | _ n ih =>
    rw [Nat.toDigits_eq_if hb] at hc
    split at hc
    · next hlt => exact ⟨n, hlt, List.mem_singleton.mp hc⟩
    · next hge =>
      rcases List.mem_append.mp hc with hc | hc
      · exact ih (n / b) (Nat.div_lt_self (by omega) hb) hc
      · exact ⟨n % b, Nat.mod_lt _ (by omega), List.mem_singleton.mp hc⟩

lemma toDigits_ne_nil : Nat.toDigits b n ≠ [] :=
  List.ne_nil_of_length_pos Nat.length_toDigits_pos

/-- No superfluous zero stands in front. -/
lemma head?_toDigits_ne (hb : 1 < b) (hn : 0 < n) : (Nat.toDigits b n).head? ≠ some '0' := by
  induction n using Nat.strong_induction_on with
  | _ n ih =>
    rw [Nat.toDigits_eq_if hb]
    split
    · simpa using hn.ne'
    · next hge =>
      rw [List.head?_append_of_ne_nil _ toDigits_ne_nil]
      exact ih (n / b) (Nat.div_lt_self hn hb) (Nat.div_pos (not_lt.mp hge) (by omega))

lemma foldlM_toDigits (hb : 1 < b) (hb' : b ≤ 16) (n : Nat) :
    (Nat.toDigits b n).foldlM (fun n c => (digit? b c).map (b * n + ·)) 0 = some n := by
  induction n using Nat.strong_induction_on with
  | _ n ih =>
    rw [Nat.toDigits_eq_if hb]
    split
    · next hlt => simp [digit?_digitChar hb' hlt]
    · next hge =>
      have hlast : digit? b (n % b).digitChar = some (n % b) :=
        digit?_digitChar hb' (Nat.mod_lt n (by omega))
      rw [List.foldlM_append, ih (n / b) (Nat.div_lt_self (by omega) hb)]
      simp [hlast, Nat.div_add_mod]

/-- Reading the digits of a number gives the number. -/
lemma value?_toDigits (hb : 1 < b) (hb' : b ≤ 16) (n : Nat) :
    value? b (Nat.toDigits b n) = some n := by
  rw [← foldlM_toDigits hb hb' n]
  cases h : Nat.toDigits b n with
  | nil => exact absurd h toDigits_ne_nil
  | cons c cs => rfl

end NameBinding.Numeral
