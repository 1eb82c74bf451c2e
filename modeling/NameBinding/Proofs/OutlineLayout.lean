import NameBinding.Proofs.Traversals

/-!
The layout of an outline. For a node it is a row of pieces, each at so many levels below the node:
a line that belongs to the node itself, or a statement or a symbol that has an outline of its own.
What an outline does with depths follows from the layouts.
-/

namespace NameBinding

namespace OutlineLine

/-- The line some levels further down. -/
def deeper (k : Nat) (l : OutlineLine) : OutlineLine := { l with depth := k + l.depth }

end OutlineLine

/-! ### Pieces -/

inductive Item
  | text (text : String)
  | stmt (id : StmtId)
  | symbol (id : SymbolId)

/-- An item that stands some levels below the node it belongs to. -/
structure Piece where
  depth : Nat
  item : Item

namespace Piece

def label (text : String) : Piece := ⟨0, .text text⟩

/-- A label that shows where its node stands in the source. -/
def line (text : String) (line : Line) : Piece :=
  label (text ++ " @" ++ line.number.toNat.repr)

def stmt (s : StmtId) : Piece := ⟨0, .stmt s⟩

def symbol (v : SymbolId) : Piece := ⟨0, .symbol v⟩

/-- The pieces one level further down. -/
def nested (xs : List Piece) : List Piece := xs.map fun x => { x with depth := x.depth + 1 }

/-! ### The pieces of a node -/

def ofCase (p : Program) (c : Case) : List Piece :=
  line (p.caseText c) c.line :: nested (c.body.map stmt ++
    c.fallthrough.toList.map fun e => label ("fallthrough " ++ p.exprText e))

def ofStmt (p : Program) : Stmt → List Piece
  | .block b => line "block" b.line :: nested (b.statements.map stmt)
  | .branch cond onTrue onFalse l => line ("if " ++ p.exprText cond) l :: nested [stmt onTrue] ++
    onFalse.toList.flatMap fun s => label "else" :: nested [stmt s]
  | .whileLoop cond body l => line ("while " ++ p.exprText cond) l :: nested [stmt body]
  | .doWhile body cond l =>
    line "do" l :: nested [stmt body] ++ [label ("while " ++ p.exprText cond)]
  | .forLoop init cond advance body l => line (p.forText init cond advance) l :: nested [stmt body]
  | .breakLoop l => [line "break" l]
  | .continueLoop l => [line "continue" l]
  | .returnValue value l =>
    [line ("return" ++ (value.map fun e => " " ++ p.exprText e).getD "") l]
  | .throwMessage e l => [line ("throw " ++ p.exprText e) l]
  | .deleteTarget e l => [line ("delete " ++ p.exprText e) l]
  | .switch value cases defaultBody l => line ("switch " ++ p.exprText value) l ::
    nested (cases.flatMap (ofCase p) ++
      defaultBody.toList.flatMap fun body => label "default" :: nested (body.map stmt))
  | .expr e l => [line (p.exprText e) l]
  | .var v _ => [symbol v]

def ofEnumValue (p : Program) (v : SymbolId) : Piece :=
  let init := ((p.typedValue? v).bind (·.init)).map fun e => " = " ++ p.exprText e
  line ("value " ++ p.symbolText v ++ init.getD "") (p.symbolLine v)

def ofSymbol (p : Program) (s : Symbol) : List Piece :=
  let name := p.text s.name
  match s.kind with
  | .var v => [line ("var " ++ name ++ ": " ++ p.typedValueText v) s.line]
  | .field m | .const m => [line (s.kind.display ++ " " ++ name ++ ": " ++
      p.typedValueText m.value ++ " (" ++ m.visibility.display ++ ")") s.line]
  | .constructor c => line ("constructor (" ++ c.visibility.display ++ ")") s.line ::
    nested (c.body.toList.map stmt)
  | .method m => line (p.methodText name m) s.line :: nested (m.callable.body.toList.map stmt)
  | .enumType t => line (Program.enumText name t) s.line ::
    nested ((p.members t.scope).map (ofEnumValue p))
  | .classType c => line (p.classText name c) s.line ::
    nested ((c.consts ++ c.fields ++ c.constructor.toList).map symbol ++
      (c.destructor.toList.flatMap (fun b =>
        line "destructor" b.line :: nested (b.statements.map stmt)) ++
      c.methods.map symbol))
  | .builtin _ => [line ("builtin " ++ name) s.line]

end Piece

/-! ### Lines -/

/-- The lines for an item, given those for symbols and statements. -/
def Item.lines (symbol : Nat → SymbolId → Option (List OutlineLine))
    (stmt : Nat → StmtId → Option (List OutlineLine)) (depth : Nat) :
    Item → Option (List OutlineLine)
  | .text s => some [⟨depth, s⟩]
  | .stmt s => stmt depth s
  | .symbol v => symbol depth v

namespace Piece

/-- The lines for a row of pieces. -/
def lines (symbol : Nat → SymbolId → Option (List OutlineLine))
    (stmt : Nat → StmtId → Option (List OutlineLine)) (depth : Nat) (xs : List Piece) :
    Option (List OutlineLine) :=
  gather (fun x => x.item.lines symbol stmt (depth + x.depth)) xs

section Lines

variable {sym : Nat → SymbolId → Option (List OutlineLine)}
  {st : Nat → StmtId → Option (List OutlineLine)} {p : Program}

@[simp] lemma lines_nil (depth : Nat) : lines sym st depth [] = some [] := rfl

@[simp] lemma lines_nested (depth : Nat) (xs : List Piece) :
    lines sym st depth (nested xs) = lines sym st (depth + 1) xs := by
  rw [lines, nested, gather_map, lines]
  refine gather_congr fun x _ => ?_
  rw [← Nat.add_assoc, Nat.add_right_comm]

@[simp] lemma lines_append (depth : Nat) (xs ys : List Piece) :
    lines sym st depth (xs ++ ys) = (lines sym st depth xs).bind fun as =>
      (lines sym st depth ys).map (as ++ ·) :=
  gather_append ..

@[simp] lemma lines_label (depth : Nat) (text : String) (xs : List Piece) :
    lines sym st depth (label text :: xs) =
      (lines sym st depth xs).map (⟨depth, text⟩ :: ·) := by
  simp [lines, label, Item.lines]

@[simp] lemma lines_line (depth : Nat) (text : String) (l : Line) (xs : List Piece) :
    lines sym st depth (line text l :: xs) =
      (lines sym st depth xs).map (OutlineLine.node depth text l :: ·) :=
  lines_label ..

@[simp] lemma lines_stmts (depth : Nat) (ss : List StmtId) :
    lines sym st depth (ss.map stmt) = gather (st depth) ss :=
  gather_map ..

@[simp] lemma lines_stmt (depth : Nat) (s : StmtId) : lines sym st depth [stmt s] = st depth s := by
  rw [← List.map_singleton, lines_stmts, gather_cons, gather_nil]
  simp

@[simp] lemma lines_symbols (depth : Nat) (vs : List SymbolId) :
    lines sym st depth (vs.map symbol) = gather (sym depth) vs :=
  gather_map ..

@[simp] lemma lines_flatMap {α : Type} (f : α → List Piece) (depth : Nat) (xs : List α) :
    lines sym st depth (xs.flatMap f) = gather (fun x => lines sym st depth (f x)) xs := by
  induction xs with
  | nil => rfl
  | cons x xs ih => rw [List.flatMap_cons, lines_append, ih, gather_cons]

@[simp] lemma lines_symbol (depth : Nat) (v : SymbolId) :
    lines sym st depth [symbol v] = sym depth v := by
  rw [← List.map_singleton, lines_symbols, gather_cons, gather_nil]
  simp

lemma caseLines_eq (depth : Nat) (c : Case) :
    p.caseLines st depth c = lines sym st depth (ofCase p c) := by
  cases hfall : c.fallthrough with
  | none => simp [Program.caseLines, ofCase, hfall, Option.map_eq_bind]
  | some e => simp [Program.caseLines, ofCase, hfall, Option.map_eq_bind, Option.bind_assoc]

/-- The lines for a statement are those of its layout. -/
lemma stmtStep_eq (depth : Nat) (x : Stmt) :
    p.stmtStep sym st depth x = lines sym st depth (ofStmt p x) := by
  cases x with
  | block b => simp [Program.stmtStep, ofStmt, Option.map_eq_bind]
  | branch cond onTrue onFalse l =>
    simp [Program.stmtStep, ofStmt, Option.map_eq_bind, Option.bind_assoc]
  | whileLoop cond body l => simp [Program.stmtStep, ofStmt, Option.map_eq_bind]
  | doWhile body cond l =>
    simp [Program.stmtStep, ofStmt, Option.map_eq_bind, Option.bind_assoc]
  | forLoop init cond advance body l => simp [Program.stmtStep, ofStmt, Option.map_eq_bind]
  | switch value cases defaultBody l =>
    simp [Program.stmtStep, ofStmt, Option.map_eq_bind, Option.bind_assoc, ← caseLines_eq]
  | var v l => simp [Program.stmtStep, ofStmt]
  | _ => rfl

/-- The lines for a symbol are those of its layout. -/
lemma symbolStep_eq (depth : Nat) (x : Symbol) :
    p.symbolStep sym st depth x = lines sym st depth (ofSymbol p x) := by
  obtain ⟨n, l, kind⟩ := x
  cases kind with
  | constructor c => simp [Program.symbolStep, ofSymbol, Option.map_eq_bind]
  | method m => simp [Program.symbolStep, ofSymbol, Option.map_eq_bind]
  | enumType t =>
    have hvalues (vs : List SymbolId) : lines sym st (depth + 1) (vs.map (ofEnumValue p)) =
        some (vs.map (p.enumValueLine (depth + 1))) := by
      induction vs with
      | nil => rfl
      | cons v vs ih => simp [ofEnumValue, ih, Program.enumValueLine]
    simp [Program.symbolStep, ofSymbol, hvalues]
  | classType c =>
    simp [Program.symbolStep, ofSymbol, gather_append, Option.map_eq_bind, Option.bind_assoc]
  | _ => rfl

end Lines

end Piece

/-! ### Outlines -/

section Gather

variable {α β : Type} {f g : α → Option (List β)} {xs : List α} {bs : List β}

lemma gather_map_lines (k : β → β) :
    gather (fun x => (f x).map (List.map k)) xs = (gather f xs).map (List.map k) := by
  induction xs with
  | nil => rfl
  | cons x xs ih =>
    rw [gather_cons, gather_cons, ih]
    cases f x <;> cases gather f xs <;> simp

lemma gather_mono (h : ∀ x ∈ xs, ∀ cs, f x = some cs → g x = some cs)
    (hbs : gather f xs = some bs) : gather g xs = some bs := by
  induction xs generalizing bs with
  | nil => exact hbs
  | cons x xs ih =>
    obtain ⟨hx, hxs⟩ := List.forall_mem_cons.mp h
    rw [gather_cons] at hbs ⊢
    obtain ⟨cs, hcs, hbs⟩ := Option.bind_eq_some_iff.mp hbs
    obtain ⟨ds, hds, rfl⟩ := Option.map_eq_some_iff.mp hbs
    rw [hx cs hcs, ih hxs hds]
    rfl

lemma exists_of_mem_gather (hbs : gather f xs = some bs) {b : β} (hb : b ∈ bs) :
    ∃ x ∈ xs, ∃ cs, f x = some cs ∧ b ∈ cs := by
  induction xs generalizing bs with
  | nil =>
    obtain rfl := Option.some.inj hbs
    simp at hb
  | cons x xs ih =>
    rw [gather_cons] at hbs
    obtain ⟨cs, hcs, hbs⟩ := Option.bind_eq_some_iff.mp hbs
    obtain ⟨ds, hds, rfl⟩ := Option.map_eq_some_iff.mp hbs
    rcases List.mem_append.mp hb with hb | hb
    · exact ⟨x, List.mem_cons_self, cs, hcs, hb⟩
    · obtain ⟨y, hy, h⟩ := ih hds hb
      exact ⟨y, List.mem_cons_of_mem x hy, h⟩

end Gather

namespace Program

variable {p : Program}

/-- The pieces of an item. Of a line there are none. -/
def layout (p : Program) : Item → List Piece
  | .text _ => []
  | .stmt s => ((p.stmt? s).map (Piece.ofStmt p)).getD []
  | .symbol v => ((p.symbol? v).map (Piece.ofSymbol p)).getD []

/-- The lines for an item at a depth, if its tree ends within `fuel` levels. -/
def itemLines (p : Program) (fuel : Nat) : Nat → Item → Option (List OutlineLine) :=
  Item.lines (p.symbolLines fuel) (p.stmtLines fuel)

/-- The lines for a row of pieces. -/
def layoutLines (p : Program) (fuel : Nat) : Nat → List Piece → Option (List OutlineLine) :=
  Piece.lines (p.symbolLines fuel) (p.stmtLines fuel)

lemma stmtLines_succ (fuel depth : Nat) (s : StmtId) :
    p.stmtLines (fuel + 1) depth s = p.layoutLines fuel depth (p.layout (.stmt s)) := by
  rw [stmtLines, layout]
  cases p.stmt? s with
  | none => rfl
  | some x => exact Piece.stmtStep_eq depth x

lemma symbolLines_succ (fuel depth : Nat) (v : SymbolId) :
    p.symbolLines (fuel + 1) depth v = p.layoutLines fuel depth (p.layout (.symbol v)) := by
  rw [symbolLines, layout]
  cases p.symbol? v with
  | none => rfl
  | some x => exact Piece.symbolStep_eq depth x

/-- What holds of lines of their own, and of a node if it holds of its pieces one level below, holds
of every item. -/
lemma itemLines_induct {motive : Nat → Item → Prop} (text : ∀ fuel s, motive fuel (.text s))
    (zero : ∀ item, (∀ depth, p.itemLines 0 depth item = none) → motive 0 item)
    (succ : ∀ fuel item, (∀ n depth, p.itemLines (n + 1) depth item =
        p.layoutLines n depth (p.layout item)) →
      (∀ x ∈ p.layout item, motive fuel x.item) → motive (fuel + 1) item)
    (fuel : Nat) (item : Item) : motive fuel item := by
  induction fuel generalizing item with
  | zero =>
    cases item with
    | text s => exact text 0 s
    | stmt s => exact zero _ fun depth => by rw [itemLines, Item.lines, stmtLines]
    | symbol v => exact zero _ fun depth => by rw [itemLines, Item.lines, symbolLines]
  | succ fuel ih =>
    cases item with
    | text s => exact text _ s
    | stmt s => exact succ fuel _ (fun n depth => stmtLines_succ n depth s) fun x _ => ih x.item
    | symbol v => exact succ fuel _ (fun n depth => symbolLines_succ n depth v) fun x _ => ih x.item

/-- An outline is the same at every depth, but for the depths of its lines. -/
lemma itemLines_add (fuel : Nat) (item : Item) (k depth : Nat) :
    p.itemLines fuel (k + depth) item =
      (p.itemLines fuel depth item).map (List.map (OutlineLine.deeper k)) := by
  induction fuel, item using itemLines_induct (p := p) generalizing depth with
  | text fuel s => rfl
  | zero item h => rw [h, h, Option.map_none]
  | succ fuel item h ih =>
    rw [h, h, layoutLines, Piece.lines, Piece.lines, ← gather_map_lines]
    refine gather_congr fun x hx => ?_
    rw [Nat.add_assoc]
    exact ih x hx (depth + x.depth)

/-- More levels do not change an outline that has come to its end. -/
lemma itemLines_succ_of_some {fuel : Nat} (item : Item) {depth : Nat} {ls : List OutlineLine}
    (h : p.itemLines fuel depth item = some ls) : p.itemLines (fuel + 1) depth item = some ls := by
  induction fuel, item using itemLines_induct (p := p) generalizing depth ls with
  | text fuel s => exact h
  | zero item hnone => simp [hnone] at h
  | succ fuel item hsucc ih =>
    rw [hsucc] at h ⊢
    exact gather_mono (fun x hx cs => ih x hx) h

/-- A character that is in none of the texts of the layouts is in no line. -/
lemma not_mem_text_of_itemLines {c : Char}
    (hlayout : ∀ item, ∀ x ∈ p.layout item, ∀ s, x.item = .text s → c ∉ s.toList)
    {fuel : Nat} (item : Item) {depth : Nat} {ls : List OutlineLine}
    (h : p.itemLines fuel depth item = some ls) (hitem : ∀ s, item = .text s → c ∉ s.toList) :
    ∀ l ∈ ls, c ∉ l.text.toList := by
  induction fuel, item using itemLines_induct (p := p) generalizing depth ls with
  | text fuel s =>
    obtain rfl : [⟨depth, s⟩] = ls := Option.some.inj h
    simpa using hitem s rfl
  | zero item hnone => simp [hnone] at h
  | succ fuel item hsucc ih =>
    rw [hsucc] at h
    intro l hl
    obtain ⟨x, hx, cs, hcs, hl⟩ := exists_of_mem_gather h hl
    exact ih x hx hcs (hlayout item x hx) l hl

end Program

end NameBinding
