import NameBinding.Proofs.ExpressionTrees
import NameBinding.Proofs.QuotedText

/-!
Reading expressions. The text of an expression tells where each operand ends, so a reader can take
it apart and find the tree again. A name ends in a question mark or in a line, an operator has
parentheses, and a member or an index belongs to all that stands before it. It follows that
expressions which are written alike have the same tree.
-/

namespace NameBinding

/-! ### Names and literals that are read back -/

def isWordChar (c : Char) : Bool := c.isAlphanum || c = '_'

/-- A letter or an underscore, followed by letters, digits and underscores. -/
def isIdentifier (cs : List Char) : Bool :=
  cs.head?.any (fun c => c.isAlpha || c = '_') && cs.all isWordChar

def NameUse.IsPlain (u : NameUse) : Prop := isIdentifier u.text.toList = true

/-- Literals without a sign and without a point. -/
def Literal.IsPlain : Literal → Prop
  | int n => 0 ≤ n.toInt
  | float _ => False
  | null | bool _ | string _ | char _ => True

instance (u : NameUse) : Decidable u.IsPlain := inferInstanceAs (Decidable (_ = _))

instance : DecidablePred Literal.IsPlain
  | .int n => inferInstanceAs (Decidable (0 ≤ n.toInt))
  | .float _ => inferInstanceAs (Decidable False)
  | .null | .bool _ | .string _ | .char _ => inferInstanceAs (Decidable True)

namespace ExprTree

/-- All names are identifiers, and all literals are plain. -/
inductive Plain : ExprTree → Prop
  | literal {v : Literal} (hv : v.IsPlain) : Plain (.literal v)
  | ident {u : NameUse} (hu : u.IsPlain) : Plain (.ident u)
  | unary {x : ExprTree} (op : UnaryOp) (fixity : Fixity) (hx : Plain x) :
      Plain (.unary op fixity x)
  | binary {l r : ExprTree} (op : BinaryOp) (hl : Plain l) (hr : Plain r) : Plain (.binary op l r)
  | conditional {c a b : ExprTree} (hc : Plain c) (ha : Plain a) (hb : Plain b) :
      Plain (.conditional c a b)
  | select {o : ExprTree} {u : NameUse} (ho : Plain o) (hu : u.IsPlain) : Plain (.select o u)
  | list {items : List ExprTree} (h : ∀ t ∈ items, Plain t) : Plain (.list items)
  | gotoDefault : Plain .gotoDefault

/-! ### The reader -/

/-- What is read, with the characters that follow it. -/
abbrev Read (α : Type) := Option (α × List Char)

def readNat (cs : List Char) : Read Nat :=
  (Numeral.value? 10 (cs.takeWhile Char.isDigit)).map (·, cs.dropWhile Char.isDigit)

/-- A name ends in a question mark, or in the line of its declaration. -/
def readUse (cs : List Char) : Read NameUse :=
  let text := String.ofList (cs.takeWhile isWordChar)
  let r := cs.dropWhile isWordChar
  if r.head? = some '?' then some (⟨text, none⟩, r.drop 1)
  else if r.head? = some '@' then
    (readNat (r.drop 1)).map fun (n, r) => (⟨text, some ⟨UInt32.ofNat n⟩⟩, r)
  else none

/-- What a word stands for that is neither a name nor a number, before the given rest. -/
def readKeyword (word r : List Char) : Read ExprTree :=
  if word = ['n', 'u', 'l', 'l'] then some (.literal .null, r)
  else if word = ['t', 'r', 'u', 'e'] then some (.literal (.bool true), r)
  else if word = ['f', 'a', 'l', 's', 'e'] then some (.literal (.bool false), r)
  else if word = ['g', 'o', 't', 'o'] then some (.gotoDefault, r.drop 8)
  else none

def readUnaryOp (cs : List Char) : Read UnaryOp :=
  if cs.take 2 = ['+', '+'] then some (.increment, cs.drop 2)
  else if cs.take 2 = ['-', '-'] then some (.decrement, cs.drop 2)
  else if cs.head? = some '-' then some (.neg, cs.drop 1)
  else if cs.head? = some '!' then some (.not, cs.drop 1)
  else if cs.head? = some '~' then some (.bitNot, cs.drop 1)
  else none

/-- The operators that stand between their operands. -/
def writtenBetween : List BinaryOp :=
  [.add, .sub, .mul, .div, .mod, .shl, .shr, .lt, .le, .gt, .ge, .eq, .ne, .bitAnd, .bitOr, .bitXor,
    .and, .or, .assign, .addAssign, .subAssign, .mulAssign, .divAssign, .modAssign, .shlAssign,
    .shrAssign, .bitAndAssign, .bitOrAssign, .bitXorAssign]

def readBinaryOp (cs : List Char) : Read BinaryOp :=
  (writtenBetween.find? fun op => op.symbol = String.ofList (cs.takeWhile (· ≠ ' '))).map
    (·, cs.dropWhile (· ≠ ' '))

section Operands

variable (operand : List Char → Read ExprTree)

/-- What stands after the first operand, up to the closing parenthesis. -/
def readOperator (x : ExprTree) (cs : List Char) : Read ExprTree :=
  if cs.take 3 = [' ', '?', ' '] then
    (operand (cs.drop 3)).bind fun (a, r) => (operand (r.drop 3)).map fun (b, r) =>
      (.conditional x a b, r.drop 1)
  else if cs.head? = some ' ' then
    (readBinaryOp (cs.drop 1)).bind fun (op, r) => (operand (r.drop 1)).map fun (y, r) =>
      (.binary op x y, r.drop 1)
  else (readUnaryOp cs).map fun (op, r) => (.unary op .after x, r.drop 1)

/-- What stands in parentheses, after the opening one. -/
def readParenthesized (cs : List Char) : Read ExprTree :=
  match readUnaryOp cs with
  | some (op, r) => (operand r).map fun (x, r) => (.unary op .before x, r.drop 1)
  | none => (operand cs).bind fun (x, r) => readOperator operand x r

/-- The items of a list, up to the closing bracket, if they are fewer than the bound. -/
def readItems : Nat → List Char → Read (List ExprTree)
  | 0, _ => none
  | k + 1, cs =>
    if cs.head? = some ']' then some ([], cs.drop 1)
    else (operand cs).bind fun (t, r) =>
      if r.head? = some ',' then (readItems k (r.drop 2)).map fun (ts, r) => (t :: ts, r)
      else some ([t], r.drop 1)

/-- An expression up to the first selection of a member or an element. -/
def readHead : List Char → Read ExprTree
  | [] => none
  | c :: cs =>
    if c = '(' then readParenthesized operand cs
    else if c = '[' then (readItems operand (cs.length + 1) cs).map fun (ts, r) => (.list ts, r)
    else if c = '"' then
      (Text.readQuoted '"' .plain cs).map fun (s, r) => (.literal (.string (String.ofList s)), r)
    else if c = '\'' then
      (Text.readQuoted '\'' .plain cs).bind fun (s, r) =>
        s.head?.map fun c => (.literal (.char c), r)
    else ((readUse (c :: cs)).map fun (u, r) => (.ident u, r)) <|>
      ((readNat (c :: cs)).map fun (n, r) => (.literal (.int (Int64.ofInt n)), r)) <|>
      readKeyword ((c :: cs).takeWhile isWordChar) ((c :: cs).dropWhile isWordChar)

/-- The members and elements that are selected, if they are fewer than the bound. -/
def readSelections : Nat → ExprTree → List Char → Read ExprTree
  | 0, _, _ => none
  | k + 1, t, cs =>
    if cs.head? = some '.' then
      (readUse (cs.drop 1)).bind fun (u, r) => readSelections k (.select t u) r
    else if cs.head? = some '[' then
      (operand (cs.drop 1)).bind fun (i, r) => readSelections k (.binary .index t i) (r.drop 1)
    else some (t, cs)

end Operands

/-- An expression at the start of a text that is shorter than the bound. -/
def read : Nat → List Char → Read ExprTree
  | 0, _ => none
  | n + 1, cs =>
    (readHead (read n) cs).bind fun (t, r) => readSelections (read n) (r.length + 1) t r

/-! ### Names and numbers -/

variable {r : List Char}

/-- What follows an expression neither goes on with a word nor marks a name. -/
def Ends (r : List Char) : Prop := ∀ c ∈ r.head?, isWordChar c = false ∧ c ≠ '?' ∧ c ≠ '@'

lemma Ends.cons {c : Char} (h : isWordChar c = false ∧ c ≠ '?' ∧ c ≠ '@') : Ends (c :: r) := by
  simpa [Ends] using h

/-- Nothing is selected from the expression that stands before. -/
def Stops (r : List Char) : Prop := Ends r ∧ r.head? ≠ some '.' ∧ r.head? ≠ some '['

lemma Stops.cons {c : Char} (h : (isWordChar c = false ∧ c ≠ '?' ∧ c ≠ '@') ∧ c ≠ '.' ∧ c ≠ '[') :
    Stops (c :: r) :=
  ⟨.cons h.1, by simpa using h.2.1, by simpa using h.2.2⟩

private lemma span_append {p : Char → Bool} {w : List Char} (hw : ∀ c ∈ w, p c = true)
    (hr : ∀ c ∈ r.head?, p c = false) :
    (w ++ r).takeWhile p = w ∧ (w ++ r).dropWhile p = r := by
  have hrest : r.takeWhile p = [] ∧ r.dropWhile p = r := by
    cases r with
    | nil => exact ⟨rfl, rfl⟩
    | cons c r => simp [hr c rfl]
  rw [List.takeWhile_append_of_pos hw, List.dropWhile_append_of_pos hw, hrest.1, hrest.2,
    List.append_nil]
  exact ⟨rfl, rfl⟩

lemma span_word {w : List Char} (hw : ∀ c ∈ w, isWordChar c = true) (hr : Ends r) :
    (w ++ r).takeWhile isWordChar = w ∧ (w ++ r).dropWhile isWordChar = r :=
  span_append hw fun c hc => (hr c hc).1

lemma isWordChar_of_isDigit {c : Char} (h : c.isDigit = true) : isWordChar c = true := by
  simp [isWordChar, Char.isAlphanum, h]

lemma readNat_toDigits (n : Nat) (hr : Ends r) :
    readNat (Nat.toDigits 10 n ++ r) = some (n, r) := by
  have hdigits : ∀ c ∈ Nat.toDigits 10 n, c.isDigit = true := fun c hc =>
    Nat.isDigit_of_mem_toDigits (by decide) (by decide) hc
  have hrest : ∀ c ∈ r.head?, c.isDigit = false := fun c hc => by
    by_contra h
    have hword := isWordChar_of_isDigit (by simpa using h)
    simp [(hr c hc).1] at hword
  obtain ⟨htake, hdrop⟩ := span_append hdigits hrest
  rw [readNat, htake, hdrop, Numeral.value?_toDigits (by decide) (by decide)]
  rfl

lemma readUse_chars {u : NameUse} (hu : u.IsPlain) (hr : Ends r) :
    readUse (u.chars ++ r) = some (u, r) := by
  obtain ⟨text, declared⟩ := u
  have hword : ∀ c ∈ text.toList, isWordChar c = true := by
    simpa using (Bool.and_eq_true_iff.mp hu).2
  cases declared with
  | none =>
    obtain ⟨htake, hdrop⟩ := span_append (r := '?' :: r) hword (by simp; decide)
    simp [NameUse.chars, readUse, htake, hdrop]
  | some line =>
    obtain ⟨htake, hdrop⟩ :=
      span_append (r := '@' :: (Nat.toDigits 10 line.number.toNat ++ r)) hword (by simp; decide)
    simp [NameUse.chars, readUse, htake, hdrop, readNat_toDigits _ hr]

/-- A word without a mark is no name. -/
lemma readUse_word {w : List Char} (hw : ∀ c ∈ w, isWordChar c = true) (hr : Ends r) :
    readUse (w ++ r) = none := by
  obtain ⟨-, hdrop⟩ := span_word hw hr
  have hq : r.head? ≠ some '?' := fun h => (hr _ h).2.1 rfl
  have ha : r.head? ≠ some '@' := fun h => (hr _ h).2.2 rfl
  simp [readUse, hdrop, hq, ha]

lemma readNat_of_not_isDigit {c : Char} (hc : c.isDigit = false) (cs : List Char) :
    readNat (c :: cs) = none := by
  simp [readNat, hc, Numeral.value?]

/-! ### Operators -/

/-- A character that an expression may begin with. -/
def isFirstChar (c : Char) : Bool := isWordChar c || c ∈ ['(', '[', '"', '\'']

/-- An operator before an operand is read in full. -/
lemma readUnaryOp_symbol (op : UnaryOp) {cs : List Char} (h : cs.head? ≠ some '-') :
    readUnaryOp (op.symbol.toList ++ cs) = some (op, cs) := by
  cases op with
  | neg =>
    cases cs with
    | nil => simp [readUnaryOp, UnaryOp.symbol]
    | cons c cs => simpa [readUnaryOp, UnaryOp.symbol] using h
  | not | bitNot | increment | decrement => simp [readUnaryOp, UnaryOp.symbol]

lemma readUnaryOp_of_isFirstChar {c : Char} (hc : isFirstChar c = true) (cs : List Char) :
    readUnaryOp (c :: cs) = none := by
  have hne : c ≠ '+' ∧ c ≠ '-' ∧ c ≠ '!' ∧ c ≠ '~' := by
    refine ⟨?_, ?_, ?_, ?_⟩ <;> rintro rfl <;> simp [isFirstChar] at hc <;> revert hc <;> decide
  simp [readUnaryOp, hne]

lemma stops_symbol (op : UnaryOp) (cs : List Char) : Stops (op.symbol.toList ++ cs) := by
  cases op <;> simpa [UnaryOp.symbol] using Stops.cons (by decide)

lemma readOperator_symbol (op : UnaryOp) {operand : List Char → Read ExprTree} (x : ExprTree) :
    readOperator operand x (op.symbol.toList ++ ')' :: r) = some (.unary op .after x, r) := by
  cases op <;> simp [readOperator, readUnaryOp, UnaryOp.symbol]

lemma toList_symbol (op : BinaryOp) :
    (∀ c ∈ op.symbol.toList, c ≠ ' ') ∧ ∃ c cs, op.symbol.toList = c :: cs ∧ c ≠ '?' := by
  cases op <;> simp [BinaryOp.symbol]

lemma readBinaryOp_symbol {op : BinaryOp} (hop : op ≠ .index) (cs : List Char) :
    readBinaryOp (op.symbol.toList ++ ' ' :: cs) = some (op, ' ' :: cs) := by
  obtain ⟨htake, hdrop⟩ := span_append (p := fun c => decide (c ≠ ' ')) (r := ' ' :: cs)
    (w := op.symbol.toList) (by simpa using (toList_symbol op).1) (by simp)
  have hfind : writtenBetween.find? (fun o => o.symbol = op.symbol) = some op := by
    cases op with
    | index => exact absurd rfl hop
    | _ => decide
  rw [readBinaryOp, htake, hdrop, String.ofList_toList, hfind]
  rfl

lemma readOperator_between {op : BinaryOp} (hop : op ≠ .index) {operand : List Char → Read ExprTree}
    (x : ExprTree) (cs : List Char) :
    readOperator operand x (' ' :: (op.symbol.toList ++ ' ' :: cs)) =
      (operand cs).map fun y => (.binary op x y.1, y.2.drop 1) := by
  have htake : (' ' :: (op.symbol.toList ++ ' ' :: cs)).take 3 ≠ [' ', '?', ' '] := by
    obtain ⟨-, c, w, hsymbol, hc⟩ := toList_symbol op
    simp [hsymbol, hc]
  rw [readOperator, if_neg htake, List.head?_cons, if_pos rfl, List.drop_one, List.tail_cons,
    readBinaryOp_symbol hop, Option.bind_some]
  rfl

/-! ### Trees -/

variable {t x y : ExprTree} {n : Nat}

/-- The reader finds the tree, and goes on with what is selected from it. -/
structure Reads (t : ExprTree) : Prop where
  first : ∃ c cs, t.chars = c :: cs ∧ isFirstChar c = true
  selections : ∀ n r, (t.chars ++ r).length ≤ n → Ends r →
    ∃ k, r.length < k ∧ read (n + 1) (t.chars ++ r) = readSelections (read n) k t r

lemma Reads.read (h : Reads t) (hn : (t.chars ++ r).length < n) (hr : Stops r) :
    read n (t.chars ++ r) = some (t, r) := by
  cases n with
  | zero => omega
  | succ n =>
    obtain ⟨k, hk, heq⟩ := h.selections n r (Nat.lt_succ_iff.mp hn) hr.1
    cases k with
    | zero => omega
    | succ k => rw [heq, readSelections, if_neg hr.2.1, if_neg hr.2.2]

lemma Reads.head?_ne (h : Reads t) {c : Char} (hc : isFirstChar c = false) (r : List Char) :
    (t.chars ++ r).head? ≠ some c := by
  obtain ⟨d, cs, hchars, hd⟩ := h.first
  rw [hchars]
  rintro ⟨⟩
  simp [hc] at hd

/-- Where nothing is selected, the tree is read as a whole. -/
lemma Reads.of_readHead {c : Char} {cs : List Char} (hchars : t.chars = c :: cs)
    (hc : isFirstChar c = true) (h : ∀ n r, (c :: cs ++ r).length ≤ n → Ends r →
      readHead (ExprTree.read n) (c :: cs ++ r) = some (t, r)) : Reads t where
  first := ⟨c, cs, hchars, hc⟩
  selections n r hn hr := by
    rw [hchars] at hn ⊢
    refine ⟨r.length + 1, Nat.lt_succ_self _, ?_⟩
    rw [ExprTree.read, h n r hn hr, Option.bind_some]

lemma readHead_word {operand : List Char → Read ExprTree} {c : Char} (hc : isWordChar c = true)
    (cs : List Char) : readHead operand (c :: cs) =
      (((readUse (c :: cs)).map fun u => (.ident u.1, u.2)) <|>
      ((readNat (c :: cs)).map fun n => (.literal (.int (Int64.ofInt n.1)), n.2)) <|>
      readKeyword ((c :: cs).takeWhile isWordChar) ((c :: cs).dropWhile isWordChar)) := by
  have hne : c ≠ '(' ∧ c ≠ '[' ∧ c ≠ '"' ∧ c ≠ '\'' := by
    refine ⟨?_, ?_, ?_, ?_⟩ <;> rintro rfl <;> revert hc <;> decide
  simp only [readHead, hne, if_false]

lemma isFirstChar_of_isWordChar {c : Char} (hc : isWordChar c = true) : isFirstChar c = true := by
  simp [isFirstChar, hc]

lemma Reads.ident {u : NameUse} (hu : u.IsPlain) : Reads (.ident u) := by
  obtain ⟨hfirst, hword⟩ := Bool.and_eq_true_iff.mp hu
  cases htext : u.text.toList with
  | nil => simp [htext] at hfirst
  | cons c w =>
    have hc : isWordChar c = true := List.all_eq_true.mp hword c (by simp [htext])
    have hchars : u.chars = c :: (w ++
        (u.declared.map fun l => '@' :: Nat.toDigits 10 l.number.toNat).getD ['?']) := by
      rw [NameUse.chars, htext, List.cons_append]
    refine .of_readHead (by rw [chars, hchars]) (isFirstChar_of_isWordChar hc) fun n r _ hr => ?_
    rw [List.cons_append, readHead_word hc, ← List.cons_append, ← hchars, readUse_chars hu hr]
    rfl

lemma Reads.int {k : Int64} (hk : 0 ≤ k.toInt) : Reads (.literal (.int k)) := by
  obtain ⟨n, hn⟩ := Int.eq_ofNat_of_zero_le hk
  have hk' : Int64.ofInt n = k := by rw [← hn, Int64.ofInt_toInt]
  have hchars : (ExprTree.literal (.int k)).chars = Nat.toDigits 10 n := by
    simp [chars, Literal.outline, hn, Int.repr_eq_if]
  cases hdigits : Nat.toDigits 10 n with
  | nil => exact absurd hdigits Numeral.toDigits_ne_nil
  | cons c w =>
    have hword : ∀ d ∈ c :: w, isWordChar d = true := fun d hd =>
      isWordChar_of_isDigit (Nat.isDigit_of_mem_toDigits (by decide) (by decide) (hdigits ▸ hd))
    have hc := hword c List.mem_cons_self
    refine .of_readHead (hchars.trans hdigits) (isFirstChar_of_isWordChar hc) fun m r _ hr => ?_
    rw [List.cons_append, readHead_word hc, ← List.cons_append, readUse_word hword hr, ← hdigits,
      readNat_toDigits n hr, ← hk']
    rfl

/-- A word that is no name and no number stands for the tree, with what else is written. -/
lemma Reads.of_readKeyword {c : Char} {w v : List Char} (hchars : t.chars = c :: (w ++ v))
    (hc : c.isDigit = false) (hw : (c :: w).all isWordChar = true)
    (hv : ∀ r, Ends r → Ends (v ++ r) ∧ readKeyword (c :: w) (v ++ r) = some (t, r)) : Reads t := by
  have hword := List.all_eq_true.mp hw
  have hfirst := hword c List.mem_cons_self
  refine .of_readHead hchars (isFirstChar_of_isWordChar hfirst) fun n r _ hr => ?_
  obtain ⟨hends, hread⟩ := hv r hr
  obtain ⟨htake, hdrop⟩ := span_word hword hends
  rw [List.cons_append, List.append_assoc, readHead_word hfirst, readNat_of_not_isDigit hc,
    ← List.cons_append, readUse_word hword hends, htake, hdrop, hread]
  rfl

lemma Reads.gotoDefault : Reads .gotoDefault := by
  refine .of_readKeyword (w := ['o', 't', 'o']) rfl (by decide) (by decide) fun r hr => ⟨?_, ?_⟩
  · exact .cons (by decide)
  · rfl

lemma Reads.literal {v : Literal} (hv : v.IsPlain) : Reads (.literal v) := by
  cases v with
  | null =>
    have hchars : (ExprTree.literal .null).chars = ['n', 'u', 'l', 'l'] := by
      simp [chars, Literal.outline]
    exact .of_readKeyword (w := ['u', 'l', 'l']) (v := []) hchars (by decide) (by decide)
      fun r hr => ⟨hr, rfl⟩
  | bool b =>
    cases b with
    | true =>
      have hchars : (ExprTree.literal (.bool true)).chars = ['t', 'r', 'u', 'e'] := by
        simp [chars, Literal.outline]
      exact .of_readKeyword (w := ['r', 'u', 'e']) (v := []) hchars (by decide) (by decide)
        fun r hr => ⟨hr, rfl⟩
    | false =>
      have hchars : (ExprTree.literal (.bool false)).chars = ['f', 'a', 'l', 's', 'e'] := by
        simp [chars, Literal.outline]
      exact .of_readKeyword (w := ['a', 'l', 's', 'e']) (v := []) hchars (by decide) (by decide)
        fun r hr => ⟨hr, rfl⟩
  | int k => exact .int hv
  | float x => exact hv.elim
  | string s =>
    have hchars : (ExprTree.literal (.string s)).chars =
        '"' :: (s.toList.flatMap (Text.escape '"') ++ ['"']) := by
      simp [chars, Literal.outline, Text.quotedString, Text.quoted]
    refine .of_readHead hchars (by decide) fun n r _ _ => ?_
    have hread := Text.readQuoted_flatMap (.inl rfl) s.toList r
    simp [readHead, hread]
  | char c =>
    have hchars : (ExprTree.literal (.char c)).chars =
        '\'' :: ([c].flatMap (Text.escape '\'') ++ ['\'']) := by
      simp [chars, Literal.outline, Text.quotedChar, Text.quoted]
    refine .of_readHead hchars (by decide) fun n r _ _ => ?_
    have hread := Text.readQuoted_flatMap (.inr rfl) [c] r
    rw [List.cons_append, List.append_assoc]
    simp only [readHead, List.singleton_append, hread]
    rfl

/-- After the first operand, what is in parentheses goes on with the operator. -/
lemma Reads.readParenthesized (hx : Reads x) (hn : (x.chars ++ r).length < n) (hr : Stops r) :
    readParenthesized (ExprTree.read n) (x.chars ++ r) = readOperator (ExprTree.read n) x r := by
  have hop : readUnaryOp (x.chars ++ r) = none := by
    obtain ⟨c, cs, hchars, hc⟩ := hx.first
    rw [hchars]
    exact readUnaryOp_of_isFirstChar hc _
  simp only [ExprTree.readParenthesized, hop, hx.read hn hr, Option.bind_some]

lemma Reads.unary (op : UnaryOp) (fixity : Fixity) (hx : Reads x) : Reads (.unary op fixity x) := by
  cases fixity with
  | before =>
    have hchars : (ExprTree.unary op .before x).chars =
        '(' :: (op.symbol.toList ++ (x.chars ++ [')'])) := by simp [chars]
    refine .of_readHead hchars (by decide) fun n r hn _ => ?_
    have hlen : (x.chars ++ ')' :: r).length < n := by
      simp at hn ⊢
      omega
    have hread := hx.read hlen (.cons (by decide))
    have hop := readUnaryOp_symbol op (hx.head?_ne (c := '-') (by decide) (')' :: r))
    simp [readHead, ExprTree.readParenthesized, hop, hread]
  | after =>
    have hchars : (ExprTree.unary op .after x).chars =
        '(' :: (x.chars ++ (op.symbol.toList ++ [')'])) := by simp [chars]
    refine .of_readHead hchars (by decide) fun n r hn _ => ?_
    have hlen : (x.chars ++ (op.symbol.toList ++ ')' :: r)).length < n := by
      simp at hn ⊢
      omega
    have hread := hx.readParenthesized hlen (stops_symbol op _)
    simp [readHead, hread, readOperator_symbol op]

lemma Reads.index (hx : Reads x) (hy : Reads y) : Reads (.binary .index x y) where
  first := by
    obtain ⟨c, cs, hchars, hc⟩ := hx.first
    exact ⟨c, cs ++ '[' :: (y.chars ++ [']']), by simp [chars, hchars], hc⟩
  selections n r hn hr := by
    have hchars : (ExprTree.binary .index x y).chars ++ r =
        x.chars ++ '[' :: (y.chars ++ ']' :: r) := by simp [chars]
    rw [hchars] at hn ⊢
    obtain ⟨k, hk, heq⟩ := hx.selections n _ hn (.cons (by decide))
    cases k with
    | zero => omega
    | succ k =>
      simp only [List.length_append, List.length_cons] at hn hk
      have hread : ExprTree.read n (y.chars ++ ']' :: r) = some (y, ']' :: r) :=
        hy.read (by rw [List.length_append, List.length_cons]; omega) (.cons (by decide))
      exact ⟨k, by omega, by simp [heq, readSelections, hread]⟩

lemma Reads.binary (op : BinaryOp) (hx : Reads x) (hy : Reads y) : Reads (.binary op x y) := by
  by_cases hop : op = .index
  · exact hop ▸ hx.index hy
  · have hchars : (ExprTree.binary op x y).chars =
        '(' :: (x.chars ++ ' ' :: (op.symbol.toList ++ ' ' :: (y.chars ++ [')']))) := by
      simp [chars, hop]
    refine .of_readHead hchars (by decide) fun n r hn _ => ?_
    have hlen : (x.chars ++ ' ' :: (op.symbol.toList ++ ' ' :: (y.chars ++ ')' :: r))).length <
        n := by
      simp at hn ⊢
      omega
    have hread := hx.readParenthesized hlen (.cons (by decide))
    have hright := hy.read (n := n) (r := ')' :: r) (by simp at hlen ⊢; omega) (.cons (by decide))
    simp [readHead, hread, readOperator_between hop, hright]

lemma Reads.conditional {c a b : ExprTree} (hc : Reads c) (ha : Reads a) (hb : Reads b) :
    Reads (.conditional c a b) := by
  have hchars : (ExprTree.conditional c a b).chars = '(' :: (c.chars ++ ' ' :: '?' :: ' ' ::
      (a.chars ++ ' ' :: ':' :: ' ' :: (b.chars ++ [')']))) := by simp [chars]
  refine .of_readHead hchars (by decide) fun n r hn _ => ?_
  have hlen : (c.chars ++ ' ' :: '?' :: ' ' :: (a.chars ++ ' ' :: ':' :: ' ' ::
      (b.chars ++ ')' :: r))).length < n := by
    simp at hn ⊢
    omega
  have hcond := hc.readParenthesized hlen (.cons (by decide))
  simp at hlen
  have htrue := ha.read (n := n) (r := ' ' :: ':' :: ' ' :: (b.chars ++ ')' :: r))
    (by simp; omega) (.cons (by decide))
  have hfalse := hb.read (n := n) (r := ')' :: r) (by simp; omega) (.cons (by decide))
  simp [readHead, hcond, readOperator, htrue, hfalse]

lemma Reads.select {u : NameUse} (hx : Reads x) (hu : u.IsPlain) : Reads (.select x u) where
  first := by
    obtain ⟨c, cs, hchars, hc⟩ := hx.first
    exact ⟨c, cs ++ '.' :: u.chars, by simp [chars, hchars], hc⟩
  selections n r hn hr := by
    have hchars : (ExprTree.select x u).chars ++ r = x.chars ++ '.' :: (u.chars ++ r) := by
      simp [chars]
    rw [hchars] at hn ⊢
    obtain ⟨k, hk, heq⟩ := hx.selections n _ hn (.cons (by decide))
    cases k with
    | zero => omega
    | succ k =>
      simp only [List.length_append, List.length_cons] at hk
      exact ⟨k, by omega, by simp [heq, readSelections, readUse_chars hu hr]⟩

/-- The items are read one by one, up to the bracket. -/
lemma readItems_chars {items : List ExprTree} (h : ∀ t ∈ items, Reads t) {k : Nat}
    (hk : ([',', ' '].intercalate (items.map chars) ++ ']' :: r).length < k)
    (hn : ([',', ' '].intercalate (items.map chars) ++ ']' :: r).length < n) :
    readItems (ExprTree.read n) k ([',', ' '].intercalate (items.map chars) ++ ']' :: r) =
      some (items, r) := by
  induction items generalizing k with
  | nil =>
    obtain ⟨k, rfl⟩ := Nat.exists_eq_succ_of_ne_zero (Nat.ne_zero_of_lt hk)
    simp [readItems]
  | cons t ts ih =>
    obtain ⟨k, rfl⟩ := Nat.exists_eq_succ_of_ne_zero (Nat.ne_zero_of_lt hk)
    obtain ⟨ht, hts⟩ := List.forall_mem_cons.mp h
    cases ts with
    | nil =>
      simp only [List.map_cons, List.map_nil, List.intercalate_singleton] at hn ⊢
      rw [readItems, if_neg (ht.head?_ne (by decide) _), ht.read hn (.cons (by decide))]
      simp
    | cons u us =>
      rw [List.map_cons, List.map_cons, List.intercalate_cons_cons, ← List.map_cons,
        List.append_assoc, List.append_assoc] at hn hk ⊢
      rw [readItems, if_neg (ht.head?_ne (by decide) _), ht.read hn (.cons (by decide))]
      have hrest := ih (k := k) hts (by simp at hk ⊢; omega) (by simp at hn ⊢; omega)
      simp only [Option.bind_some, List.cons_append, List.nil_append, List.head?_cons, if_true,
        List.drop_succ_cons, List.drop_zero, hrest, Option.map_some]

lemma Reads.list {items : List ExprTree} (h : ∀ t ∈ items, Reads t) : Reads (.list items) := by
  have hchars : (ExprTree.list items).chars =
      '[' :: ([',', ' '].intercalate (items.map chars) ++ [']']) := by
    simp [chars, listChars_eq_map]
  refine .of_readHead hchars (by decide) fun n r hn _ => ?_
  rw [List.cons_append, List.append_assoc] at hn ⊢
  have hread := readItems_chars (r := r) h (Nat.lt_succ_self _) (Nat.lt_of_succ_le hn)
  simp only [readHead, List.singleton_append, if_true, hread]
  rfl

theorem Plain.reads (h : t.Plain) : Reads t := by
  induction h with
  | literal hv => exact .literal hv
  | ident hu => exact .ident hu
  | unary op fixity _ hx => exact hx.unary op fixity
  | binary op _ _ hl hr => exact hl.binary op hr
  | conditional _ _ _ hc ha hb => exact hc.conditional ha hb
  | select _ hu ho => exact ho.select hu
  | list _ h => exact .list h
  | gotoDefault => exact .gotoDefault

/-- No two trees are written alike. -/
theorem Plain.eq_of_chars {u : ExprTree} (ht : t.Plain) (hu : u.Plain) (h : t.chars = u.chars) :
    t = u := by
  have hstops : Stops [] := by simp [Stops, Ends]
  have hread := ht.reads.read (Nat.lt_succ_self _) hstops
  rw [h, hu.reads.read (Nat.lt_succ_self _) hstops] at hread
  exact (congrArg Prod.fst (Option.some.inj hread)).symm

end ExprTree

namespace Program

/-- **The text of an expression determines it.** In a program that operations and bindings lead to,
every expression has a tree. Let two expressions, of one program or of two, have trees with
identifiers for names and with plain literals. Then their texts are the same exactly if the trees
are: the same operators, fixities, literals and names, each bound in neither, or in both to a
declaration on the same line. -/
theorem exprText_eq_iff_tree_eq :
    (∀ p : Program, p.Reached → ∀ e : ExprId, e.index < p.exprs.size → ∃ t, p.tree? e = some t) ∧
    ∀ (p q : Program) (e f : ExprId) (t u : ExprTree), p.tree? e = some t → q.tree? f = some u →
      t.Plain → u.Plain → (p.exprText e = q.exprText f ↔ t = u) := by
  refine ⟨fun p hp e he => hp.exists_treeWithin (Nat.lt_succ_self _) he,
    fun p q e f t u ht hu htp hup => ?_⟩
  rw [← String.toList_inj, toList_exprText ht, toList_exprText hu]
  exact ⟨htp.eq_of_chars hup, congrArg ExprTree.chars⟩

/-- A variable `n` on line 3, and the expressions `n`, `1`, `n - 1` and `n-` on a line. -/
def difference (line : Line) : List Operation :=
  [.addExpr (.ident (.free ⟨2⟩) line), .addVar "n" ⟨3⟩ ⟨⟨0⟩, none⟩,
    .addExpr (.ident (.bound ⟨7⟩ ⟨7⟩) line), .addExpr (.literal (.int 1) line),
    .addExpr (.binary .sub ⟨1⟩ ⟨2⟩ line), .addExpr (.unary .neg .after ⟨1⟩ line)]

def differenceProgram (line : Line) : Program := (new.build? (difference line)).getD new

/-- The line that an expression is on does not show, and a sign is told from a difference. -/
theorem difference_text_eq_iff_tree_eq : (differenceProgram ⟨4⟩).Reached ∧
    (∃ t, (differenceProgram ⟨4⟩).tree? ⟨3⟩ = some t) ∧
    (differenceProgram ⟨4⟩).exprText ⟨3⟩ = (differenceProgram ⟨9⟩).exprText ⟨3⟩ ∧
    (differenceProgram ⟨4⟩).exprText ⟨3⟩ ≠ (differenceProgram ⟨9⟩).exprText ⟨4⟩ := by
  have hbuilt : new.build? (difference ⟨4⟩) = some (differenceProgram ⟨4⟩) := by decide
  have hreached := (Built.new.build? hbuilt).reached
  have hn : (ExprTree.ident ⟨"n", some ⟨3⟩⟩).Plain := .ident (by decide)
  have hdifference : (ExprTree.binary .sub (.ident ⟨"n", some ⟨3⟩⟩) (.literal (.int 1))).Plain :=
    .binary _ hn (.literal (by decide))
  obtain ⟨htree, htext⟩ := exprText_eq_iff_tree_eq
  refine ⟨hreached, htree _ hreached ⟨3⟩ (by decide), ?_, fun heq => ?_⟩
  · exact (htext _ _ ⟨3⟩ ⟨3⟩ _ _ rfl rfl hdifference hdifference).mpr rfl
  · cases (htext _ _ ⟨3⟩ ⟨4⟩ _ _ rfl rfl hdifference (.unary .neg .after hn)).mp heq

end Program

end NameBinding
