import NameBinding.Proofs.OneLineTexts

/-!
Printing an outline into a buffer. The printer writes line after line at the end of the buffer and
keeps count of the depth; what is nested is printed with the depth one greater. It prints the
outline of each statement, indented by the depth it is called at, and comes back to that depth.
-/

namespace NameBinding

/-! ### Indented text -/

/-- Inserts the spaces at the start of each line. -/
def indentLines (spaces : List Char) : Bool → List Char → List Char
  | _, [] => []
  | fresh, c :: cs => (if fresh then spaces else []) ++ c :: indentLines spaces (c = '\n') cs

/-- The text with two more spaces per level at the start of each line. -/
def indent (depth : Nat) (text : String) : String :=
  String.ofList (indentLines (List.replicate (2 * depth) ' ') true text.toList)

lemma indentLines_line {w : List Char} (hw : '\n' ∉ w) (spaces : List Char) (fresh : Bool)
    (r : List Char) : indentLines spaces fresh (w ++ '\n' :: r) =
      (if fresh then spaces else []) ++ (w ++ '\n' :: indentLines spaces true r) := by
  induction w generalizing fresh with
  | nil => simp [indentLines]
  | cons c w ih =>
    obtain ⟨hc, hw⟩ : '\n' ≠ c ∧ '\n' ∉ w := by simpa using hw
    rw [List.cons_append, indentLines, decide_eq_false hc.symm, ih hw]
    rfl

namespace OutlineLine

lemma toList_render (l : OutlineLine) :
    l.render.toList = List.replicate (2 * l.depth) ' ' ++ (l.text.toList ++ ['\n']) := by
  simp [render]

@[simp] lemma renderAll_nil : renderAll [] = "" := rfl

lemma toList_renderAll (ls : List OutlineLine) :
    (renderAll ls).toList = ls.flatMap fun l => l.render.toList := by
  simp [renderAll, String.toList_join, List.flatMap_def, Function.comp_def]

lemma renderAll_append (ls ms : List OutlineLine) :
    renderAll (ls ++ ms) = renderAll ls ++ renderAll ms := by
  rw [← String.toList_inj]
  simp [toList_renderAll]

lemma renderAll_cons (l : OutlineLine) (ls : List OutlineLine) :
    renderAll (l :: ls) = l.render ++ renderAll ls := by
  rw [← String.toList_inj]
  simp [toList_renderAll]

/-- Lines are indented by putting them further down. -/
lemma indent_renderAll {ls : List OutlineLine} (h : ∀ l ∈ ls, '\n' ∉ l.text.toList) (k : Nat) :
    indent k (renderAll ls) = renderAll (ls.map (deeper k)) := by
  rw [← String.toList_inj, indent, String.toList_ofList]
  induction ls with
  | nil => rfl
  | cons l ls ih =>
    obtain ⟨hl, hls⟩ := List.forall_mem_cons.mp h
    have hline : '\n' ∉ List.replicate (2 * l.depth) ' ' ++ l.text.toList := by simp [hl]
    have hrender : (renderAll (l :: ls)).toList =
        (List.replicate (2 * l.depth) ' ' ++ l.text.toList) ++ '\n' :: (renderAll ls).toList := by
      simp [renderAll_cons, toList_render]
    rw [hrender, indentLines_line hline, ih hls, List.map_cons, renderAll_cons,
      String.toList_append, toList_render, deeper, Nat.mul_add, List.replicate_add]
    simp only [if_true, List.append_assoc, List.cons_append, List.nil_append]

end OutlineLine

/-! ### The printer -/

structure Printer where
  out : String
  depth : Nat

namespace Printer

/-- What the printer does. It does not come to an end if the tree does not. -/
abbrev Action := Printer → Option Printer

def label (text : String) : Action := fun pr =>
  some { pr with out := pr.out ++ String.join (List.replicate pr.depth "  ") ++ text ++ "\n" }

def line (text : String) (l : Line) : Action := label (text ++ " @" ++ l.number.toNat.repr)

def nested (body : Action) : Action := fun pr =>
  (body { pr with depth := pr.depth + 1 }).map fun pr => { pr with depth := pr.depth - 1 }

def each {α : Type} (f : α → Action) : List α → Action
  | [] => some
  | x :: xs => f x >=> each f xs

variable (p : Program)

def caseStep (stmt : StmtId → Action) (c : Case) : Action :=
  line (p.caseText c) c.line >=> nested (each stmt c.body >=>
    each (fun e => label ("fallthrough " ++ p.exprText e)) c.fallthrough.toList)

def stmtStep (symbol : SymbolId → Action) (stmt : StmtId → Action) : Stmt → Action
  | .block b => line "block" b.line >=> nested (each stmt b.statements)
  | .branch cond onTrue onFalse l => line ("if " ++ p.exprText cond) l >=> nested (stmt onTrue) >=>
    each (fun s => label "else" >=> nested (stmt s)) onFalse.toList
  | .whileLoop cond body l => line ("while " ++ p.exprText cond) l >=> nested (stmt body)
  | .doWhile body cond l =>
    line "do" l >=> nested (stmt body) >=> label ("while " ++ p.exprText cond)
  | .forLoop init cond advance body l =>
    line (p.forText init cond advance) l >=> nested (stmt body)
  | .breakLoop l => line "break" l
  | .continueLoop l => line "continue" l
  | .returnValue value l => line ("return" ++ (value.map fun e => " " ++ p.exprText e).getD "") l
  | .throwMessage e l => line ("throw " ++ p.exprText e) l
  | .deleteTarget e l => line ("delete " ++ p.exprText e) l
  | .switch value cases defaultBody l => line ("switch " ++ p.exprText value) l >=>
    nested (each (caseStep p stmt) cases >=>
      each (fun body => label "default" >=> nested (each stmt body)) defaultBody.toList)
  | .expr e l => line (p.exprText e) l
  | .var v _ => symbol v

def enumValue (v : SymbolId) : Action :=
  let init := ((p.typedValue? v).bind (·.init)).map fun e => " = " ++ p.exprText e
  line ("value " ++ p.symbolText v ++ init.getD "") (p.symbolLine v)

def symbolStep (symbol : SymbolId → Action) (stmt : StmtId → Action) (s : Symbol) : Action :=
  let name := p.text s.name
  match s.kind with
  | .var v => line ("var " ++ name ++ ": " ++ p.typedValueText v) s.line
  | .field m | .const m => line (s.kind.display ++ " " ++ name ++ ": " ++
      p.typedValueText m.value ++ " (" ++ m.visibility.display ++ ")") s.line
  | .constructor c => line ("constructor (" ++ c.visibility.display ++ ")") s.line >=>
    nested (each stmt c.body.toList)
  | .method m => line (p.methodText name m) s.line >=> nested (each stmt m.callable.body.toList)
  | .enumType t => line (Program.enumText name t) s.line >=>
    nested (each (enumValue p) (p.members t.scope))
  | .classType c => line (p.classText name c) s.line >=>
    nested (each symbol (c.consts ++ c.fields ++ c.constructor.toList) >=>
      each (fun b => line "destructor" b.line >=> nested (each stmt b.statements))
        c.destructor.toList >=>
      each symbol c.methods)
  | .builtin _ => line ("builtin " ++ name) s.line

mutual

/-- Prints a symbol, if its tree ends within `fuel` levels. -/
def symbol : Nat → SymbolId → Action
  | 0, _ => fun _ => none
  | fuel + 1, v => ((p.symbol? v).map (symbolStep p (symbol fuel) (stmt fuel))).getD some

/-- Prints a statement, if its tree ends within `fuel` levels. -/
def stmt : Nat → StmtId → Action
  | 0, _ => fun _ => none
  | fuel + 1, s => ((p.stmt? s).map (stmtStep p (symbol fuel) (stmt fuel))).getD some

end

/-- Prints every class, then every enum. -/
def program : Action := each (symbol p p.depth) (p.classes ++ p.enums)

/-! ### What is printed -/

variable {p} {fuel : Nat} {f g : Action} {xs ys : List Piece} {α : Type}

/-- The action prints the lines for the pieces after what is in the buffer, and keeps the depth. -/
structure Prints (p : Program) (fuel : Nat) (f : Action) (xs : List Piece) : Prop where
  run : ∀ out depth, f ⟨out, depth⟩ =
    (p.layoutLines fuel depth xs).map fun ls => ⟨out ++ OutlineLine.renderAll ls, depth⟩

lemma prints_nothing : Prints p fuel some [] where
  run out depth := by simp [Program.layoutLines]

lemma join_replicate (depth : Nat) : String.join (List.replicate depth "  ") =
    String.ofList (List.replicate (2 * depth) ' ') := by
  rw [← String.toList_inj, String.toList_join, String.toList_ofList]
  induction depth with
  | zero => rfl
  | succ depth ih =>
    rw [List.replicate_succ, List.flatMap_cons, ih, Nat.mul_succ, Nat.add_comm, List.replicate_add]
    simp

lemma prints_label (text : String) : Prints p fuel (label text) [.label text] where
  run out depth := by
    simp [Program.layoutLines, label, join_replicate, OutlineLine.renderAll_cons,
      OutlineLine.render, String.append_assoc]

lemma prints_line (text : String) (l : Line) : Prints p fuel (line text l) [.line text l] :=
  prints_label _

lemma Prints.nested (h : Prints p fuel f xs) : Prints p fuel (nested f) (Piece.nested xs) where
  run out depth := by
    rw [Printer.nested, h.run, Program.layoutLines, Piece.lines_nested, Option.map_map]
    rfl

lemma Prints.append (hf : Prints p fuel f xs) (hg : Prints p fuel g ys) :
    Prints p fuel (f >=> g) (xs ++ ys) where
  run out depth := by
    rw [Bind.kleisliRight, hf.run, Program.layoutLines, Piece.lines_append]
    cases Piece.lines (p.symbolLines fuel) (p.stmtLines fuel) depth xs with
    | none => rfl
    | some as =>
      refine (hg.run (out ++ OutlineLine.renderAll as) depth).trans ?_
      rw [Program.layoutLines, Option.bind_some, Option.map_map]
      simp only [Function.comp_def, OutlineLine.renderAll_append, String.append_assoc]

lemma Prints.each {f : α → Action} {k : α → List Piece} (h : ∀ x, Prints p fuel (f x) (k x))
    (l : List α) : Prints p fuel (each f l) (l.flatMap k) := by
  induction l with
  | nil => exact prints_nothing
  | cons x l ih => exact (h x).append ih

/-- Pieces that are printed one by one. -/
lemma Prints.each_map {f : α → Action} {k : α → Piece} (h : ∀ x, Prints p fuel (f x) [k x])
    (l : List α) : Prints p fuel (Printer.each f l) (l.map k) := by
  rw [List.map_eq_flatMap]
  exact .each h l

section Steps

variable {sym : SymbolId → Action} {st : StmtId → Action}
  (hsymbol : ∀ v, Prints p fuel (sym v) [.symbol v]) (hstmt : ∀ s, Prints p fuel (st s) [.stmt s])
include hstmt

lemma prints_caseStep (c : Case) : Prints p fuel (caseStep p st c) (Piece.ofCase p c) :=
  (prints_line ..).append (.nested (.append (.each_map hstmt c.body)
    (.each_map (fun _ => prints_label _) _)))

include hsymbol

lemma prints_stmtStep (x : Stmt) : Prints p fuel (stmtStep p sym st x) (Piece.ofStmt p x) := by
  cases x with
  | block b => exact (prints_line ..).append (.nested (.each_map hstmt b.statements))
  | branch cond onTrue onFalse l =>
    exact (prints_line ..).append (.append (hstmt onTrue).nested
      (.each (fun s => (prints_label _).append (hstmt s).nested) onFalse.toList))
  | whileLoop cond body l => exact (prints_line ..).append (hstmt body).nested
  | doWhile body cond l =>
    exact (prints_line ..).append (.append (hstmt body).nested (prints_label _))
  | forLoop init cond advance body l => exact (prints_line ..).append (hstmt body).nested
  | switch value cases defaultBody l =>
    exact (prints_line ..).append (.nested (.append (.each (prints_caseStep hstmt) cases)
      (.each (fun body => (prints_label _).append (.nested (.each_map hstmt body)))
        defaultBody.toList)))
  | var v l => exact hsymbol v
  | _ => exact prints_line ..

lemma prints_symbolStep (x : Symbol) :
    Prints p fuel (symbolStep p sym st x) (Piece.ofSymbol p x) := by
  obtain ⟨n, l, kind⟩ := x
  cases kind with
  | constructor c => exact (prints_line ..).append (.nested (.each_map hstmt _))
  | method m => exact (prints_line ..).append (.nested (.each_map hstmt _))
  | enumType t =>
    exact (prints_line ..).append (.nested (.each_map (fun v => prints_line ..) _))
  | classType c =>
    have hdestructor (b : Block) :=
      (prints_line (p := p) "destructor" b.line).append (.nested (.each_map hstmt b.statements))
    exact (prints_line ..).append (.nested (.append (.each_map hsymbol _)
      (.append (.each hdestructor _) (.each_map hsymbol _))))
  | _ => exact prints_line ..

end Steps

/-- The printer prints the outline, and comes to no end where the outline does not. -/
lemma prints_nodes (fuel : Nat) : (∀ v, Prints p fuel (symbol p fuel v) [.symbol v]) ∧
    ∀ s, Prints p fuel (stmt p fuel s) [.stmt s] := by
  induction fuel with
  | zero =>
    exact ⟨fun v => ⟨fun out depth => by simp [symbol, Program.layoutLines, Program.symbolLines]⟩,
      fun s => ⟨fun out depth => by simp [stmt, Program.layoutLines, Program.stmtLines]⟩⟩
  | succ fuel ih =>
    obtain ⟨hsymbol, hstmt⟩ := ih
    constructor
    · intro v
      have hlayout : Prints p fuel (symbol p (fuel + 1) v) (p.layout (.symbol v)) := by
        rw [symbol, Program.layout]
        cases p.symbol? v with
        | none => exact prints_nothing
        | some x => exact prints_symbolStep hsymbol hstmt x
      exact ⟨fun out depth => by
        rw [hlayout.run, Program.layoutLines, Program.layoutLines, Piece.lines_symbol,
          Program.symbolLines_succ, Program.layoutLines]⟩
    · intro s
      have hlayout : Prints p fuel (stmt p (fuel + 1) s) (p.layout (.stmt s)) := by
        rw [stmt, Program.layout]
        cases p.stmt? s with
        | none => exact prints_nothing
        | some x => exact prints_stmtStep hsymbol hstmt x
      exact ⟨fun out depth => by
        rw [hlayout.run, Program.layoutLines, Program.layoutLines, Piece.lines_stmt,
          Program.stmtLines_succ, Program.layoutLines]⟩

end Printer

end NameBinding
