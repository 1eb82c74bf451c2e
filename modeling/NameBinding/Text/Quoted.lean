import NameBinding.Text.CombiningMark
import NameBinding.Text.Unprintable

/-!
Quoted text. Between the quotes a character stands for itself, unless it is the quote, a backslash,
a blank other than the space, or one that would not show by itself: those are written with a
backslash.
-/

namespace NameBinding.Text

/-- Whether a character is written by its number. The printable part of ASCII never is. -/
def needsNumber (c : Char) : Bool :=
  !(0x20 ≤ c.toNat && c.toNat < 0x7f) && (isCombiningMark c || isUnprintable c)

/-- The number of a character in hexadecimal digits, between braces. -/
def numberEscape (c : Char) : List Char :=
  ['\\', 'u', '\x7b'] ++ Nat.toDigits 16 c.toNat ++ ['\x7d']

/-- How a character is written between two quotes of the given kind. -/
def escape (quote c : Char) : List Char :=
  if c = '\x00' then ['\\', '0']
  else if c = '\t' then ['\\', 't']
  else if c = '\r' then ['\\', 'r']
  else if c = '\n' then ['\\', 'n']
  else if c = '\\' || c = quote then ['\\', c]
  else if needsNumber c then numberEscape c
  else [c]

/-- A text in quotes of the given kind. -/
def quoted (quote : Char) (cs : List Char) : String :=
  String.ofList (quote :: cs.flatMap (escape quote) ++ [quote])

def quotedString (s : String) : String := quoted '"' s.toList

def quotedChar (c : Char) : String := quoted '\'' [c]

end NameBinding.Text
