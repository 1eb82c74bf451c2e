import NameBinding.Binary64.Shortest

/-!
Layouts for decimal text: which numbers are written with all their places, and which with an
exponent.
-/

namespace NameBinding.Binary64

/-- The range of points, both ends included, in which a number is written without an exponent. -/
structure Layout where
  leastPoint : Int
  greatestPoint : Int

def zeros (n : Int) : List Char := List.replicate n.toNat '0'

namespace Decimal

/-- All places, and at least one on either side of the point. -/
def positional (d : Decimal) : List Char :=
  if d.point ≤ 0 then ['0', '.'] ++ zeros (-d.point) ++ d.digits
  else if d.digits.length ≤ d.point then
    d.digits ++ zeros (d.point - d.digits.length) ++ ['.', '0']
  else d.digits.take d.point.toNat ++ ['.'] ++ d.digits.drop d.point.toNat

/-- One digit before the point, and the point only if more digits follow. -/
def scientific (d : Decimal) : List Char :=
  let fraction := d.digits.drop 1
  d.digits.take 1 ++ (if fraction.isEmpty then [] else '.' :: fraction) ++ ['e'] ++
    (toString (d.point - 1)).toList

end Decimal

/-- The text of a number in a layout. Only a NaN has no sign. -/
def Layout.write (l : Layout) (x : Binary64) : String :=
  if x.isNaN then "NaN"
  else
    let magnitude :=
      if x.isInfinite then ['i', 'n', 'f']
      else if x.isZero then ['0', '.', '0']
      else
        let d := x.shortest
        if l.leastPoint ≤ d.point && d.point ≤ l.greatestPoint then d.positional else d.scientific
    String.ofList ((if x.isNegative then ['-'] else []) ++ magnitude)

end NameBinding.Binary64
