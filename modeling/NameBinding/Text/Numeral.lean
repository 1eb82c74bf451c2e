/-!
Numerals: the digits of a base, and the number that a run of digits denotes.
-/

namespace NameBinding.Numeral

/-- The value of a digit; beyond nine a letter of either case stands for it. -/
def digit? (base : Nat) (c : Char) : Option Nat :=
  let n := c.toNat
  let v :=
    if 48 ≤ n ∧ n ≤ 57 then n - 48
    else if 97 ≤ n ∧ n ≤ 122 then n - 87
    else if 65 ≤ n ∧ n ≤ 90 then n - 55
    else base
  if v < base then some v else none

/-- The number that the digits denote, the most significant first; no digits denote none. -/
def value? (base : Nat) : List Char → Option Nat
  | [] => none
  | cs => cs.foldlM (fun n c => (digit? base c).map (base * n + ·)) 0

end NameBinding.Numeral
