import NameBinding.Binary64.Basic

/-!
The shortest decimal for a binary number: the fewest digits that read back as the same number, and
among those the nearest to it.

A decimal reads back as a number if it lies between the midpoints to the number's two neighbours;
a midpoint itself reads back as the neighbour with the even significand.
-/

namespace NameBinding.Binary64

/-- The number `0.d₁d₂… * 10 ^ point` for the digits `d₁`, `d₂`, …; the first is not zero. -/
structure Decimal where
  digits : List Char
  point : Int
deriving DecidableEq

/--
A positive number with the decimals that read back as it: `value`, `low` and `high` are over the
denominator `scale`, and the ends count if `closed`.
-/
structure Span where
  low : Nat
  value : Nat
  high : Nat
  scale : Nat
  closed : Bool

namespace Span

/--
The span of a finite number other than zero. Below a power of two the neighbour is only half as
far away, unless the numbers there are spaced as evenly as those above.
-/
def of (x : Binary64) : Span :=
  let m := x.significand
  let below := if x.fractionField = 0 && 1 < x.exponentField then 1 else 2
  let (up, down) :=
    match x.exponent with
    | .ofNat e => (Nat.pow 2 e, 1)
    | .negSucc e => (1, Nat.pow 2 (e + 1))
  { low := (4 * m - below) * up, value := 4 * m * up, high := (4 * m + 2) * up
    scale := 4 * down, closed := m % 2 = 0 }

/-- The exponent `p` with `10 ^ (p - 1) ≤ value < 10 ^ p`. -/
def point (s : Span) : Int :=
  if s.scale ≤ s.value then (Nat.toDigits 10 (s.value / s.scale)).length
  else 1 - ((Nat.toDigits 10 (s.scale / s.value)).length : Int)

/-- Whether `d / unit` reads back, with the span already scaled to that unit. -/
def holds (s : Span) (d : Nat) : Bool :=
  let n := d * s.scale
  if s.closed then s.low ≤ n && n ≤ s.high else s.low < n && n < s.high

/-- The span in units of `10 ^ k`. -/
def inUnits (s : Span) : Int → Span
  | .ofNat k => { s with scale := s.scale * Nat.pow 10 k }
  | .negSucc k =>
    let u := Nat.pow 10 (k + 1)
    { s with low := s.low * u, value := s.value * u, high := s.high * u }

/--
The multiple of the unit that reads back and is nearest to the value, the greater one if two are
equally near.
-/
def nearest? (s : Span) : Option Nat :=
  let d := s.value / s.scale
  let rest := s.value % s.scale
  match s.holds d, s.holds (d + 1) with
  | true, true => some (if 2 * rest < s.scale then d else d + 1)
  | true, false => some d
  | false, true => some (d + 1)
  | false, false => none

/-- The first hit with `n` digits, `n + 1` digits, and so on, with its unit's exponent. -/
def search (s : Span) : Nat → Nat → Option (Nat × Int)
  | 0, _ => none
  | tries + 1, n =>
    let k := s.point - n
    match (s.inUnits k).nearest? with
    | some d => some (d, k)
    | none => s.search tries (n + 1)

end Span

/-- The digits of `d * 10 ^ k` without zeros at the end. -/
def Decimal.of (d : Nat) (k : Int) : Decimal :=
  let ds := Nat.toDigits 10 d
  { digits := (ds.reverse.dropWhile (· = '0')).reverse, point := k + ds.length }

/-- The shortest decimal for the magnitude of a finite number other than zero. -/
def shortest (x : Binary64) : Decimal :=
  -- seventeen digits always read back
  match (Span.of x).search 17 1 with
  | some (d, k) => Decimal.of d k
  | none => { digits := ['0'], point := 1 }

end NameBinding.Binary64
