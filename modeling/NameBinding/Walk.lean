import NameBinding.Program.Basic

/-!
Walking a program: every node below the classes and enums, each before its parts, and the parts in
the order in which they are written. A node is met as often as it is used.

Tables may hold a tree without an end (a local declaration may name the method it stands in); the
walk of such a tree is `none`.
-/

namespace NameBinding

inductive Node
  | symbol (id : SymbolId)
  | stmt (id : StmtId)
  /-- A case of a switch, with whether it is the last one and whether a default clause follows. -/
  | case (clause : Case) (isLast hasDefault : Bool)
  | expr (id : ExprId)
  | reference (expr : ExprId) (name : Name)
  | gotoDefault (expr : ExprId)
deriving DecidableEq

/-- The part of a switch that statements stand in. -/
inductive Clause
  | case (hasDefault : Bool)
  | default
deriving DecidableEq

/-- A node together with what stands around it. -/
structure Place where
  node : Node
  /-- The innermost clause around the node. -/
  clause : Option Clause := none
  /-- Whether the last case of a switch falls through to this expression. -/
  afterLastCase : Bool := false
deriving DecidableEq

/-- All the results in a row, if there is one for each element. -/
def gather {α β : Type} (f : α → Option (List β)) (xs : List α) : Option (List β) :=
  (xs.mapM f).map List.flatten

@[simp] theorem gather_nil {α β : Type} (f : α → Option (List β)) : gather f [] = some [] := rfl

@[simp] theorem gather_cons {α β : Type} (f : α → Option (List β)) (x : α) (xs : List α) :
    gather f (x :: xs) = (f x).bind fun bs => (gather f xs).map (bs ++ ·) := by
  simp only [gather, List.mapM_cons]
  cases f x <;> cases xs.mapM f <;> rfl

namespace Program

/-- The types, initializers, bodies and members of a symbol. -/
def symbolParts (p : Program) (s : Symbol) : List Node :=
  match s.kind with
  | .var v => v.exprs.map .expr
  | .field m | .const m => m.value.exprs.map .expr
  | .constructor c => c.body.toList.map .stmt
  | .method m =>
    m.parameters.map .symbol ++ m.returnType.toList.map .expr ++ m.callable.body.toList.map .stmt
  | .enumType t => (p.members t.scope).map .symbol
  | .classType c =>
    (c.consts ++ c.fields ++ c.constructor.toList).map .symbol ++
      ((c.destructor.map (·.statements)).getD []).map .stmt ++ c.methods.map .symbol
  | .builtin _ => []

/-- The parts of a statement other than a switch. -/
def stmtParts : Stmt → List Node
  | .block b => b.statements.map .stmt
  | .branch cond onTrue onFalse _ => .expr cond :: .stmt onTrue :: onFalse.toList.map .stmt
  | .whileLoop cond body _ => [.expr cond, .stmt body]
  | .doWhile body cond _ => [.stmt body, .expr cond]
  | .forLoop init cond advance body _ =>
    init.toList.map .stmt ++ cond.toList.map .expr ++ advance.toList.map .expr ++ [.stmt body]
  | .breakLoop _ | .continueLoop _ => []
  | .returnValue value _ => value.toList.map .expr
  | .throwMessage e _ | .deleteTarget e _ | .expr e _ => [.expr e]
  | .switch .. => []
  | .var s _ => [.symbol s]

/-- The cases of a switch in order, each told whether it is the last. -/
def caseNodes (hasDefault : Bool) : List Case → List Node
  | [] => []
  | [c] => [.case c true hasDefault]
  | c :: cs => .case c false hasDefault :: caseNodes hasDefault cs

/-- The operands of an expression, then the name it uses or the jump it makes. -/
def exprParts (id : ExprId) (e : Expr) : List Node :=
  e.children.map .expr ++ (e.reference?.map fun r => Node.reference id r.name).toList ++
    if e.isGotoDefault then [.gotoDefault id] else []

/-- The parts of a node. The values of a switch and of its cases belong to what encloses it. -/
def parts (p : Program) (place : Place) : List Place :=
  let here (n : Node) : Place := { node := n, clause := place.clause }
  match place.node with
  | .symbol s => ((p.symbol? s).map p.symbolParts).getD [] |>.map here
  | .stmt s =>
    match p.stmt? s with
    | none => []
    | some (.switch value cases defaultBody _) =>
      (.expr value :: caseNodes defaultBody.isSome cases).map here ++
        (defaultBody.getD []).map fun t => { node := .stmt t, clause := some .default }
    | some stmt => (stmtParts stmt).map here
  | .case c isLast hasDefault =>
    let inside := some (Clause.case hasDefault)
    c.values.map (fun v => here (.expr v)) ++
      c.body.map (fun t => { node := .stmt t, clause := inside }) ++
      c.fallthrough.toList.map fun e =>
        { node := .expr e, clause := inside, afterLastCase := isLast }
  | .expr e => ((p.expr? e).map (exprParts e)).getD [] |>.map here
  | .reference .. | .gotoDefault _ => []

/-- The node and everything below it, down to `depth` levels; `none` if the tree is deeper. -/
def visit (p : Program) : Nat → Place → Option (List Place)
  | 0, _ => none
  | depth + 1, place => (gather (p.visit depth) (p.parts place)).map (place :: ·)

/--
A bound for the depth of a tree that has an end: a path goes through each symbol, statement and
expression once, through one case for each switch, and ends in a name or a jump.
-/
def depth (p : Program) : Nat := p.symbols.size + 2 * p.stmts.size + p.exprs.size + 1

/-- The walk of one node. -/
def walkFrom (p : Program) (n : Node) : Option (List Place) := p.visit p.depth { node := n }

/-- The classes, then the enums. -/
def roots (p : Program) : List Node := (p.classes ++ p.enums).map .symbol

/-- The walk of the whole program. -/
def walk (p : Program) : Option (List Place) := gather p.walkFrom p.roots

end Program

end NameBinding
