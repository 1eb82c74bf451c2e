import NameBinding.Proofs.ExpressionTrees
import NameBinding.Proofs.Numerals
import NameBinding.Proofs.OutlineLayout

/-!
Texts on one line. Quoted texts and numbers have no line breaks, so where the names have none, the
text of an expression has none, and neither has any text in an outline.
-/

namespace NameBinding

/-! ### Numbers and quoted texts -/

@[simp] lemma newline_not_mem_toDigits {b : Nat} (hb : 1 < b) (n : Nat) :
    '\n' ∉ Nat.toDigits b n := by
  intro h
  obtain ⟨d, -, hd⟩ := Numeral.exists_digitChar_of_mem hb h
  exact Nat.digitChar_ne '\n' (by decide) hd.symm

@[simp] lemma newline_not_mem_intRepr (n : Int) : '\n' ∉ n.repr.toList := by
  rw [Int.repr_eq_if]
  split <;> simp

lemma Text.newline_not_mem_escape (quote c : Char) : '\n' ∉ escape quote c := by
  unfold escape
  split_ifs with hnul htab hreturn hfeed hself hnumber
  · decide
  · decide
  · decide
  · decide
  · simpa using Ne.symm hfeed
  · simp [numberEscape]
  · simpa using Ne.symm hfeed

lemma Text.newline_not_mem_quoted {quote : Char} (hquote : quote ≠ '\n') (cs : List Char) :
    '\n' ∉ (quoted quote cs).toList := by
  simp [quoted, hquote.symm, newline_not_mem_escape]

namespace Binary64

lemma newline_not_mem_digits (x : Binary64) : '\n' ∉ x.shortest.digits := by
  unfold shortest
  split
  · next d k _ =>
    intro h
    have hmem := (List.dropWhile_suffix _).subset (List.mem_reverse.mp h)
    exact newline_not_mem_toDigits (by decide) d (List.mem_reverse.mp hmem)
  · decide

section Decimal

variable {d : Decimal} (hd : '\n' ∉ d.digits)
include hd

lemma Decimal.newline_not_mem_take (n : Nat) : '\n' ∉ d.digits.take n ∧ '\n' ∉ d.digits.drop n :=
  ⟨fun h => hd (List.mem_of_mem_take h), fun h => hd (List.mem_of_mem_drop h)⟩

lemma Decimal.newline_not_mem_positional : '\n' ∉ d.positional := by
  unfold positional
  split_ifs <;> simp [zeros, hd, newline_not_mem_take hd]

lemma Decimal.newline_not_mem_scientific : '\n' ∉ d.scientific := by
  have hparts := newline_not_mem_take hd 1
  rw [List.drop_one] at hparts
  simp only [scientific, List.drop_one]
  split_ifs <;> simp [hparts]

end Decimal

lemma newline_not_mem_write (l : Layout) (x : Binary64) : '\n' ∉ (l.write x).toList := by
  have hdigits := x.newline_not_mem_digits
  simp only [Layout.write]
  split_ifs <;> simp [Decimal.newline_not_mem_positional hdigits,
    Decimal.newline_not_mem_scientific hdigits]

end Binary64

lemma Literal.newline_not_mem_outline (v : Literal) : '\n' ∉ v.outline.toList := by
  cases v with
  | null => simp [outline]
  | bool b => cases b <;> simp [outline]
  | int n => simp [outline]
  | float x => exact Binary64.newline_not_mem_write _ x
  | string s => exact Text.newline_not_mem_quoted (by decide) _
  | char c => exact Text.newline_not_mem_quoted (by decide) _

lemma newline_not_mem_intercalate (sep : String) {texts : List String} (hsep : '\n' ∉ sep.toList)
    (h : ∀ s ∈ texts, '\n' ∉ s.toList) : '\n' ∉ (sep.intercalate texts).toList := by
  rw [String.toList_intercalate]
  induction texts with
  | nil => simp
  | cons s rest ih =>
    obtain ⟨hs, hrest⟩ := List.forall_mem_cons.mp h
    cases rest with
    | nil => simpa using hs
    | cons t rest =>
      rw [List.map_cons, List.map_cons, List.intercalate_cons_cons, ← List.map_cons]
      simp only [List.mem_append, not_or]
      exact ⟨⟨hs, hsep⟩, ih hrest⟩

/-- A text that is there only if a value is. -/
lemma newline_not_mem_getD {α : Type} {f : α → String} (hf : ∀ x, '\n' ∉ (f x).toList)
    (x : Option α) : '\n' ∉ ((x.map f).getD "").toList := by
  cases x with
  | none => simp
  | some x => exact hf x

lemma UnaryOp.newline_not_mem_symbol (op : UnaryOp) : '\n' ∉ op.symbol.toList := by
  cases op <;> simp [symbol]

lemma BinaryOp.newline_not_mem_symbol (op : BinaryOp) : '\n' ∉ op.symbol.toList := by
  cases op <;> simp [symbol]

lemma Visibility.newline_not_mem_display (v : Visibility) : '\n' ∉ v.display.toList := by
  cases v <;> simp [display]

lemma Modifier.newline_not_mem_display (m : Modifier) : '\n' ∉ m.display.toList := by
  cases m <;> simp [display]

/-! ### Expressions -/

namespace Program

/-- No name has a line break. -/
def NamesOnOneLine (p : Program) : Prop := ∀ text ∈ p.names.texts, '\n' ∉ text.toList

variable {p : Program} (hp : p.NamesOnOneLine)
include hp

lemma NamesOnOneLine.text (n : Name) : '\n' ∉ (p.text n).toList := by
  cases h : p.names.text? n with
  | none => simp [Program.text, h]
  | some text =>
    obtain ⟨hlt, rfl⟩ := Array.getElem?_eq_some_iff.mp h
    simpa [Program.text, h] using hp _ (Array.getElem_mem hlt)

lemma NamesOnOneLine.symbolText (v : SymbolId) : '\n' ∉ (p.symbolText v).toList := by
  cases h : p.symbol? v with
  | none => simp [Program.symbolText, h]
  | some x => simpa [Program.symbolText, h] using hp.text x.name

lemma NamesOnOneLine.referenceText (r : Reference) : '\n' ∉ (p.referenceText r).toList := by
  unfold Program.referenceText
  split <;> simp [hp.text]

lemma NamesOnOneLine.exprTextWithin (depth : Nat) (e : ExprId) :
    '\n' ∉ (p.exprTextWithin depth e).toList := by
  induction depth generalizing e with
  | zero => simp [Program.exprTextWithin]
  | succ depth ih =>
    cases he : p.expr? e with
    | none => simp [Program.exprTextWithin, he]
    | some x =>
      cases x with
      | literal v line => simp [Program.exprTextWithin, he, v.newline_not_mem_outline]
      | ident r line => simp [Program.exprTextWithin, he, hp.referenceText]
      | unary op fixity x line =>
        cases fixity <;> simp [Program.exprTextWithin, he, ih, op.newline_not_mem_symbol]
      | binary op l r line =>
        by_cases hop : op = .index
        · subst hop
          simp [Program.exprTextWithin, he, ih]
        · simp [exprTextWithin_binary he hop, ih, op.newline_not_mem_symbol]
      | conditional c a b line => simp [Program.exprTextWithin, he, ih]
      | select o r line => simp [Program.exprTextWithin, he, ih, hp.referenceText]
      | list items line =>
        have hitems := newline_not_mem_intercalate ", " (by simp)
          (List.forall_mem_map.mpr fun x (_ : x ∈ items) => ih x)
        simpa [Program.exprTextWithin, he] using hitems
      | gotoDefault line => simp [Program.exprTextWithin, he]

lemma NamesOnOneLine.exprText (e : ExprId) : '\n' ∉ (p.exprText e).toList :=
  hp.exprTextWithin _ e

lemma NamesOnOneLine.typedValueText (v : TypedValue) : '\n' ∉ (p.typedValueText v).toList := by
  cases hinit : v.init with
  | none => simp [Program.typedValueText, hinit, hp.exprText]
  | some e => simp [Program.typedValueText, hinit, hp.exprText]

/-! ### Nodes -/

omit hp in
lemma newline_not_mem_originText (flag : String) (hflag : '\n' ∉ flag.toList) (c : Origin) :
    '\n' ∉ (originText flag c).toList := by
  have hfile : '\n' ∉ (Text.quotedString c.file).toList :=
    Text.newline_not_mem_quoted (by decide) c.file.toList
  unfold originText
  split <;> simp [hflag, hfile]

lemma NamesOnOneLine.caseText (c : Case) : '\n' ∉ (p.caseText c).toList := by
  have hvalues := newline_not_mem_intercalate ", " (by simp)
    (List.forall_mem_map.mpr fun e (_ : e ∈ c.values) => hp.exprText e)
  simpa [Program.caseText] using hvalues

lemma NamesOnOneLine.initText (s : StmtId) : '\n' ∉ (p.initText s).toList := by
  unfold Program.initText
  split
  · exact hp.exprText _
  · split
    · simp [hp.symbolText, hp.typedValueText]
    · exact hp.symbolText _
  · simp

lemma NamesOnOneLine.forText (init : Option StmtId) (cond advance : Option ExprId) :
    '\n' ∉ (p.forText init cond advance).toList := by
  have hinit := newline_not_mem_getD hp.initText init
  have hcond := newline_not_mem_getD hp.exprText cond
  have hadvance := newline_not_mem_getD hp.exprText advance
  simp [Program.forText, hinit, hcond, hadvance]

lemma NamesOnOneLine.parameterText (v : SymbolId) : '\n' ∉ (p.parameterText v).toList := by
  unfold Program.parameterText
  split <;> simp [hp.symbolText, hp.typedValueText]

lemma NamesOnOneLine.methodText (n : Name) (m : Method) :
    '\n' ∉ (p.methodText (p.text n) m).toList := by
  have hparameters := newline_not_mem_intercalate ", " (by simp)
    (List.forall_mem_map.mpr fun v (_ : v ∈ m.parameters) => hp.parameterText v)
  have hresult : '\n' ∉ ((m.returnType.map p.exprText).getD "void").toList := by
    cases m.returnType with
    | none => simp
    | some e => exact hp.exprText e
  have hflags : '\n' ∉ (", ".intercalate ([m.callable.visibility.display, m.modifier.display] ++
      if m.isMutator then ["mutator"] else [])).toList := by
    refine newline_not_mem_intercalate ", " (by simp) ?_
    simp [m.callable.visibility.newline_not_mem_display, m.modifier.newline_not_mem_display]
  simp only [Program.methodText, String.toList_append, List.mem_append, hp.text n, hparameters,
    hresult, hflags, or_false]
  simp

lemma NamesOnOneLine.classText (n : Name) (c : ClassInfo) :
    '\n' ∉ (p.classText (p.text n) c).toList := by
  have hbase := newline_not_mem_getD
    (f := fun b : BaseClass => " : " ++ p.referenceText b.reference) (by simp [hp.referenceText])
    c.baseClass
  have horigin := newline_not_mem_originText _ c.modifier.newline_not_mem_display c.origin
  simp [Program.classText, hp.text, hbase, horigin]

lemma NamesOnOneLine.enumText (n : Name) (t : EnumInfo) :
    '\n' ∉ (enumText (p.text n) t).toList := by
  have horigin := newline_not_mem_originText (if t.isFlags then "flags" else "plain")
    (by split <;> simp) t.origin
  simp [Program.enumText, hp.text, horigin]

end Program

/-! ### Layouts -/

namespace Piece

/-- The texts of the pieces are each on one line. -/
def OnOneLine (xs : List Piece) : Prop := ∀ x ∈ xs, ∀ s, x.item = .text s → '\n' ∉ s.toList

section OnOneLine

variable {xs ys : List Piece} {α : Type}

@[simp] lemma onOneLine_nil : OnOneLine [] := by simp [OnOneLine]

@[simp] lemma onOneLine_label {text : String} :
    OnOneLine (label text :: xs) ↔ '\n' ∉ text.toList ∧ OnOneLine xs := by
  simp [OnOneLine, label]

@[simp] lemma onOneLine_line {text : String} {l : Line} :
    OnOneLine (line text l :: xs) ↔ '\n' ∉ text.toList ∧ OnOneLine xs := by
  simp [line]

@[simp] lemma onOneLine_stmt {s : StmtId} : OnOneLine (stmt s :: xs) ↔ OnOneLine xs := by
  simp [OnOneLine, stmt]

@[simp] lemma onOneLine_symbol {v : SymbolId} : OnOneLine (symbol v :: xs) ↔ OnOneLine xs := by
  simp [OnOneLine, symbol]

@[simp] lemma onOneLine_append : OnOneLine (xs ++ ys) ↔ OnOneLine xs ∧ OnOneLine ys :=
  List.forall_mem_append

@[simp] lemma onOneLine_nested : OnOneLine (nested xs) ↔ OnOneLine xs := by
  simp [nested, OnOneLine]

@[simp] lemma onOneLine_map {f : α → Piece} {l : List α} :
    OnOneLine (l.map f) ↔ ∀ x ∈ l, OnOneLine [f x] := by
  simp [OnOneLine]

@[simp] lemma onOneLine_flatMap {f : α → List Piece} {l : List α} :
    OnOneLine (l.flatMap f) ↔ ∀ x ∈ l, OnOneLine (f x) :=
  List.forall_mem_flatMap

end OnOneLine

end Piece

namespace Program.NamesOnOneLine

variable {p : Program} (hp : p.NamesOnOneLine)
include hp

lemma ofCase (c : Case) : Piece.OnOneLine (Piece.ofCase p c) := by
  simp [Piece.ofCase, hp.caseText, hp.exprText]

lemma ofStmt (x : Stmt) : Piece.OnOneLine (Piece.ofStmt p x) := by
  cases x with
  | switch value cases defaultBody l => simp [Piece.ofStmt, hp.exprText, hp.ofCase]
  | forLoop init cond advance body l => simp [Piece.ofStmt, hp.forText]
  | returnValue value l =>
    have hvalue := newline_not_mem_getD (f := fun e => " " ++ p.exprText e) (by simp [hp.exprText])
      value
    simp [Piece.ofStmt, hvalue]
  | _ => simp [Piece.ofStmt, hp.exprText]

lemma ofEnumValue (v : SymbolId) : Piece.OnOneLine [Piece.ofEnumValue p v] := by
  have hinit := newline_not_mem_getD (f := fun e => " = " ++ p.exprText e) (by simp [hp.exprText])
    ((p.typedValue? v).bind (·.init))
  simpa [Piece.ofEnumValue, hp.symbolText] using hinit

lemma ofSymbol (x : Symbol) : Piece.OnOneLine (Piece.ofSymbol p x) := by
  obtain ⟨n, l, kind⟩ := x
  cases kind with
  | var v => simp [Piece.ofSymbol, hp.text, hp.typedValueText]
  | field m =>
    simp [Piece.ofSymbol, hp.text, hp.typedValueText, SymbolKind.display,
      m.visibility.newline_not_mem_display]
  | const m =>
    simp [Piece.ofSymbol, hp.text, hp.typedValueText, SymbolKind.display,
      m.visibility.newline_not_mem_display]
  | constructor c => simp [Piece.ofSymbol, c.visibility.newline_not_mem_display]
  | method m => simp [Piece.ofSymbol, hp.methodText]
  | enumType t => simp [Piece.ofSymbol, hp.enumText, hp.ofEnumValue]
  | classType c => simp [Piece.ofSymbol, hp.classText]
  | builtin b => simp [Piece.ofSymbol, hp.text]

/-- No text in an outline has a line break. -/
lemma layout (item : Item) : Piece.OnOneLine (p.layout item) := by
  cases item with
  | text s => exact Piece.onOneLine_nil
  | stmt s =>
    cases h : p.stmt? s with
    | none => simp [Program.layout, h]
    | some x => simpa [Program.layout, h] using hp.ofStmt x
  | symbol v =>
    cases h : p.symbol? v with
    | none => simp [Program.layout, h]
    | some x => simpa [Program.layout, h] using hp.ofSymbol x

end Program.NamesOnOneLine

end NameBinding
