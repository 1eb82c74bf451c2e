import NameBinding.Outline.Expression
import NameBinding.Walk

/-!
The outline of a program: a node on each line, indented by its depth, with its source line at the
end. A tree without an end has no outline.
-/

namespace NameBinding

/-- A line of an outline. -/
structure OutlineLine where
  depth : Nat
  text : String
deriving DecidableEq

namespace OutlineLine

def render (l : OutlineLine) : String :=
  String.ofList (List.replicate (2 * l.depth) ' ') ++ l.text ++ "\n"

/-- A line for a node, which shows where the node stands in the source. -/
def node (depth : Nat) (text : String) (line : Line) : OutlineLine :=
  ⟨depth, text ++ " @" ++ line.number.toNat.repr⟩

/-- The lines of an outline as one text. -/
def renderAll (ls : List OutlineLine) : String := String.join (ls.map render)

end OutlineLine

namespace Program

open OutlineLine

/-- The flags of a type and the file it was declared in. -/
def originText (flag : String) (c : Origin) : String :=
  "(" ++ flag ++ (if c.isPublic then ", public" else "") ++ ", " ++
    Text.quotedString c.file ++ ")"

def classText (p : Program) (name : String) (c : ClassInfo) : String :=
  "class " ++ name ++ ((c.baseClass.map fun b => " : " ++ p.referenceText b.reference).getD "") ++
    " " ++ originText c.modifier.display c.origin

def enumText (name : String) (t : EnumInfo) : String :=
  "enum " ++ name ++ " " ++ originText (if t.isFlags then "flags" else "plain") t.origin

/-- A value of an enum; its type goes without saying. -/
def enumValueLine (p : Program) (depth : Nat) (s : SymbolId) : OutlineLine :=
  let init := ((p.typedValue? s).bind (·.init)).map fun e => " = " ++ p.exprText e
  node depth ("value " ++ p.symbolText s ++ init.getD "") (p.symbolLine s)

def parameterText (p : Program) (s : SymbolId) : String :=
  match (p.symbol? s).map Symbol.kind with
  | some (.var v) => p.symbolText s ++ ": " ++ p.typedValueText v
  | _ => p.symbolText s

def methodText (p : Program) (name : String) (m : Method) : String :=
  let result := (m.returnType.map p.exprText).getD "void"
  let flags := [m.callable.visibility.display, m.modifier.display] ++
    if m.isMutator then ["mutator"] else []
  "method " ++ name ++ "(" ++ ", ".intercalate (m.parameters.map p.parameterText) ++ "): " ++
    result ++ " (" ++ ", ".intercalate flags ++ ")"

/-- The first part of the head of a for loop. -/
def initText (p : Program) (s : StmtId) : String :=
  match p.stmt? s with
  | some (.expr e _) => p.exprText e
  | some (.var v _) =>
    match p.typedValue? v with
    | some value => "var " ++ p.symbolText v ++ ": " ++ p.typedValueText value
    | none => p.symbolText v
  | _ => "..."

def forText (p : Program) (init : Option StmtId) (cond advance : Option ExprId) : String :=
  "for (" ++ (init.map p.initText).getD "" ++ "; " ++ (cond.map p.exprText).getD "" ++ "; " ++
    (advance.map p.exprText).getD "" ++ ")"

def caseText (p : Program) (c : Case) : String :=
  "case " ++ ", ".intercalate (c.values.map p.exprText)

/-- The lines for a case: its values, then its body and where it falls through to. -/
def caseLines (p : Program) (stmt : Nat → StmtId → Option (List OutlineLine)) (depth : Nat)
    (c : Case) : Option (List OutlineLine) := do
  let body ← gather (stmt (depth + 1)) c.body
  let tail := c.fallthrough.toList.map fun e =>
    OutlineLine.mk (depth + 1) ("fallthrough " ++ p.exprText e)
  return node depth (p.caseText c) c.line :: (body ++ tail)

/-- The lines for a statement, given those for the symbols and statements below it. -/
def stmtStep (p : Program) (symbol : Nat → SymbolId → Option (List OutlineLine))
    (stmt : Nat → StmtId → Option (List OutlineLine)) (depth : Nat) :
    Stmt → Option (List OutlineLine)
  | .block b => do
    let body ← gather (stmt (depth + 1)) b.statements
    return node depth "block" b.line :: body
  | .branch cond onTrue onFalse line => do
    let yes ← stmt (depth + 1) onTrue
    let no ← gather (fun s => (stmt (depth + 1) s).map (⟨depth, "else"⟩ :: ·)) onFalse.toList
    return node depth ("if " ++ p.exprText cond) line :: (yes ++ no)
  | .whileLoop cond body line => do
    let body ← stmt (depth + 1) body
    return node depth ("while " ++ p.exprText cond) line :: body
  | .doWhile body cond line => do
    let body ← stmt (depth + 1) body
    return node depth "do" line :: (body ++ [⟨depth, "while " ++ p.exprText cond⟩])
  | .forLoop init cond advance body line => do
    let body ← stmt (depth + 1) body
    return node depth (p.forText init cond advance) line :: body
  | .breakLoop line => some [node depth "break" line]
  | .continueLoop line => some [node depth "continue" line]
  | .returnValue value line =>
    some [node depth ("return" ++ (value.map fun e => " " ++ p.exprText e).getD "") line]
  | .throwMessage e line => some [node depth ("throw " ++ p.exprText e) line]
  | .deleteTarget e line => some [node depth ("delete " ++ p.exprText e) line]
  | .switch value cases defaultBody line => do
    let cases ← gather (p.caseLines stmt (depth + 1)) cases
    let rest ← gather
      (fun body => (gather (stmt (depth + 2)) body).map (⟨depth + 1, "default"⟩ :: ·))
      defaultBody.toList
    return node depth ("switch " ++ p.exprText value) line :: (cases ++ rest)
  | .expr e line => some [node depth (p.exprText e) line]
  | .var s _ => symbol depth s

/-- The lines for a symbol, given those for the symbols and statements below it. -/
def symbolStep (p : Program) (symbol : Nat → SymbolId → Option (List OutlineLine))
    (stmt : Nat → StmtId → Option (List OutlineLine)) (depth : Nat) (s : Symbol) :
    Option (List OutlineLine) :=
  let name := p.text s.name
  match s.kind with
  | .var v => some [node depth ("var " ++ name ++ ": " ++ p.typedValueText v) s.line]
  | .field m | .const m =>
    some [node depth (s.kind.display ++ " " ++ name ++ ": " ++ p.typedValueText m.value ++
      " (" ++ m.visibility.display ++ ")") s.line]
  | .constructor c => do
    let body ← gather (stmt (depth + 1)) c.body.toList
    return node depth ("constructor (" ++ c.visibility.display ++ ")") s.line :: body
  | .method m => do
    let body ← gather (stmt (depth + 1)) m.callable.body.toList
    return node depth (p.methodText name m) s.line :: body
  | .enumType t =>
    some (node depth (enumText name t) s.line ::
      (p.members t.scope).map (p.enumValueLine (depth + 1)))
  | .classType c => do
    let first ← gather (symbol (depth + 1)) (c.consts ++ c.fields ++ c.constructor.toList)
    let destructor ← gather
      (fun (b : Block) => (gather (stmt (depth + 2)) b.statements).map
        (node (depth + 1) "destructor" b.line :: ·))
      c.destructor.toList
    let methods ← gather (symbol (depth + 1)) c.methods
    return node depth (p.classText name c) s.line :: (first ++ destructor ++ methods)
  | .builtin _ => some [node depth ("builtin " ++ name) s.line]

mutual

/-- The lines for a symbol at a depth, if its tree ends within `fuel` levels. -/
def symbolLines (p : Program) : Nat → Nat → SymbolId → Option (List OutlineLine)
  | 0, _, _ => none
  | fuel + 1, depth, s =>
    match p.symbol? s with
    | none => some []
    | some sym => p.symbolStep (p.symbolLines fuel) (p.stmtLines fuel) depth sym

/-- The lines for a statement at a depth, if its tree ends within `fuel` levels. -/
def stmtLines (p : Program) : Nat → Nat → StmtId → Option (List OutlineLine)
  | 0, _, _ => none
  | fuel + 1, depth, s =>
    match p.stmt? s with
    | none => some []
    | some stmt => p.stmtStep (p.symbolLines fuel) (p.stmtLines fuel) depth stmt

end

/-- The outline of one statement. -/
def outlineStmt (p : Program) (s : StmtId) : Option String :=
  (p.stmtLines p.depth 0 s).map renderAll

/-- The outline of one symbol. -/
def outlineSymbol (p : Program) (s : SymbolId) : Option String :=
  (p.symbolLines p.depth 0 s).map renderAll

/-- The outline of the program: every class, then every enum. -/
def outline (p : Program) : Option String :=
  (gather (p.symbolLines p.depth 0) (p.classes ++ p.enums)).map renderAll

end Program

end NameBinding
