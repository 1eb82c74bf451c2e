import NameBinding.Text.Numeral

/-!
The settings of an options document, which is a TOML document without tables: lines of the form
`key = value`, blank lines, and comments. A value is a whole number of 64 bits or a truth value.
-/

namespace NameBinding.Setting

inductive Value
  | integer (n : Int)
  | flag (b : Bool)
deriving DecidableEq

/-- The pieces of a text between the separators. -/
def split (separator : Char) : List Char → List (List Char)
  | [] => [[]]
  | c :: cs =>
    if c = separator then [] :: split separator cs
    else
      match split separator cs with
      | [] => [[c]]
      | piece :: pieces => (c :: piece) :: pieces

/-- A carriage return may stand before a line feed. -/
def stripReturn (line : List Char) : List Char :=
  if line.getLast? = some '\r' then line.dropLast else line

/-- The lines of a document. -/
def lines (cs : List Char) : List (List Char) :=
  let pieces := split '\n' cs
  pieces.dropLast.map stripReturn ++ pieces.getLast?.toList

def isBlank (c : Char) : Bool := c = ' ' || c = '\t'

/-- Control characters other than the tab stand nowhere in a line. -/
def isControl (c : Char) : Bool := c ≠ '\t' && (c.toNat < 0x20 || c.toNat = 0x7f)

/-- Whether only blanks and a comment are left of a line. -/
def isTail (cs : List Char) : Bool :=
  match cs.dropWhile isBlank with
  | [] => true
  | '#' :: comment => comment.all (!isControl ·)
  | _ => false

/-! ### Keys -/

def isBareKeyChar (c : Char) : Bool := c.isAlphanum || c = '_' || c = '-'

/-- Where the reader stands in a quoted key. -/
inductive KeyMode
  | plain
  | escape
  /-- Within the number of a character, `left + 1` digits before its end. -/
  | number (left value : Nat)

/-- The characters that are written with a backslash and one letter. -/
def namedEscape? : Char → Option Char
  | 'b' => some '\x08'
  | 't' => some '\t'
  | 'n' => some '\n'
  | 'f' => some '\x0c'
  | 'r' => some '\r'
  | '"' => some '"'
  | '\\' => some '\\'
  | _ => none

def charOfNumber? (n : Nat) : Option Char := if n.isValidChar then some (Char.ofNat n) else none

/-- The rest of a key in double quotes, and what follows the closing quote. -/
def quotedKey? : KeyMode → List Char → Option (List Char × List Char)
  | _, [] => none
  | .plain, c :: cs =>
    if c = '"' then some ([], cs)
    else if c = '\\' then quotedKey? .escape cs
    else if isControl c then none
    else (quotedKey? .plain cs).map fun (k, r) => (c :: k, r)
  | .escape, c :: cs =>
    if c = 'u' then quotedKey? (.number 3 0) cs
    else if c = 'U' then quotedKey? (.number 7 0) cs
    else
      (namedEscape? c).bind fun e => (quotedKey? .plain cs).map fun (k, r) => (e :: k, r)
  | .number left value, c :: cs =>
    (Numeral.digit? 16 c).bind fun d =>
      match left with
      | left + 1 => quotedKey? (.number left (16 * value + d)) cs
      | 0 =>
        (charOfNumber? (16 * value + d)).bind fun e =>
          (quotedKey? .plain cs).map fun (k, r) => (e :: k, r)

/-- The rest of a key in single quotes, in which nothing is escaped. -/
def literalKey? : List Char → Option (List Char × List Char)
  | [] => none
  | c :: cs =>
    if c = '\'' then some ([], cs)
    else if isControl c then none
    else (literalKey? cs).map fun (k, r) => (c :: k, r)

/-- The key at the start of a line, and what follows it. -/
def key? : List Char → Option (List Char × List Char)
  | '"' :: cs => quotedKey? .plain cs
  | '\'' :: cs => literalKey? cs
  | cs =>
    match cs.takeWhile isBareKeyChar with
    | [] => none
    | k => some (k, cs.dropWhile isBareKeyChar)

/-! ### Values -/

/-- Digits of a base; single underscores may stand between them. -/
def grouped? (base : Nat) (cs : List Char) : Option Nat :=
  let groups := split '_' cs
  if groups.any List.isEmpty then none else Numeral.value? base groups.flatten

/-- Decimal digits without a superfluous zero in front. -/
def decimal? : List Char → Option Nat
  | '0' :: _ :: _ => none
  | cs => grouped? 10 cs

def integer? : List Char → Option Int
  | '0' :: 'x' :: cs => (grouped? 16 cs).map Int.ofNat
  | '0' :: 'o' :: cs => (grouped? 8 cs).map Int.ofNat
  | '0' :: 'b' :: cs => (grouped? 2 cs).map Int.ofNat
  | '+' :: cs => (decimal? cs).map Int.ofNat
  | '-' :: cs => (decimal? cs).map fun n => -(n : Int)
  | cs => (decimal? cs).map Int.ofNat

/-- Numbers that 64 bits hold, with a sign. -/
def inRange (n : Int) : Bool := Int64.minValue.toInt ≤ n && n ≤ Int64.maxValue.toInt

def value? (cs : List Char) : Option Value :=
  if cs = ['t', 'r', 'u', 'e'] then some (.flag true)
  else if cs = ['f', 'a', 'l', 's', 'e'] then some (.flag false)
  else (integer? cs).bind fun n => if inRange n then some (.integer n) else none

/-! ### Lines -/

/-- The value that a key is set to, and nothing after it but a comment. -/
def assigned? (cs : List Char) : Option Value :=
  match cs.dropWhile isBlank with
  | '=' :: cs =>
    let cs := cs.dropWhile isBlank
    let ends (c : Char) := isBlank c || c = '#'
    if isTail (cs.dropWhile (!ends ·)) then value? (cs.takeWhile (!ends ·)) else none
  | _ => none

/-- The setting on a line, if the line is well formed; a blank line has none. -/
def line? (cs : List Char) : Option (Option (String × Value)) :=
  if isTail cs then some none
  else
    (key? (cs.dropWhile isBlank)).bind fun (k, r) =>
      (assigned? r).map fun v => some (String.ofList k, v)

/-- A byte order mark may stand at the start of a document. -/
def stripMark : List Char → List Char
  | '\uFEFF' :: cs => cs
  | cs => cs

/-- The settings of a document in order, if every line is well formed. -/
def all? (text : String) : Option (List (String × Value)) :=
  ((lines (stripMark text.toList)).mapM line?).map (·.filterMap id)

end NameBinding.Setting
