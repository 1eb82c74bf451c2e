import NameBinding.Text.Numeral

/-!
Source lines. A line is a 32-bit number; in messages it reads `line 12`.
-/

namespace NameBinding

structure Line where
  number : UInt32 := 0
deriving DecidableEq, Inhabited

namespace Line

def display (l : Line) : String := "line " ++ l.number.toNat.repr

/-- Lines are ordered by number. -/
instance : LE Line := ⟨fun l m => l.number.toNat ≤ m.number.toNat⟩

instance (l m : Line) : Decidable (l ≤ m) :=
  inferInstanceAs (Decidable (l.number.toNat ≤ m.number.toNat))

def compare (l m : Line) : Ordering := Ord.compare l.number.toNat m.number.toNat

/-- The lines in ascending order; equal ones keep their places. -/
def sort (ls : List Line) : List Line := ls.mergeSort (fun l m => decide (l ≤ m))

/-- The line of a number, if 32 bits hold it. -/
def ofNat? (n : Nat) : Option Line := if n < UInt32.size then some ⟨n.toUInt32⟩ else none

/-- The blanks that may stand around a number in a JSON document. -/
def isBlank (c : Char) : Bool := c = ' ' || c = '\t' || c = '\n' || c = '\r'

/--
Reads a line from a JSON document that holds one number: decimal digits without a sign, a fraction,
an exponent or a superfluous zero in front.
-/
def ofDocument? (text : String) : Option Line :=
  let cs := ((text.toList.dropWhile isBlank).reverse.dropWhile isBlank).reverse
  match cs with
  | '0' :: _ :: _ => none
  | cs => (Numeral.value? 10 cs).bind ofNat?

end Line

end NameBinding
