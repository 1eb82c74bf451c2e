import NameBinding.Proofs.ScopeTree
import NameBinding.Resolve.Journal

/-!
Lexical resolution with a list of frames. There is no tree of scopes here: a part that has names of
its own is resolved with one more frame in front, which is dropped on the way out. What comes out is
the sequence of the names bound, the names not found and the names declared twice.
-/

namespace NameBinding

/-- What becomes of a name that is looked up or declared in frames. -/
inductive LexicalEvent
  | bound (e : ExprId) (target : SymbolId)
  | failed (cause : Cause) (line : Line)
deriving DecidableEq

namespace LexicalEvent

/-- The target that the name of `e` is bound to. -/
def target? (e : ExprId) : LexicalEvent → Option SymbolId
  | bound e' t => if e' = e then some t else none
  | failed _ _ => none

def error? : LexicalEvent → Option (Cause × Line)
  | bound _ _ => none
  | failed c line => some (c, line)

/-- The target that the name of `e` is bound to last. -/
def lastTarget? (events : List LexicalEvent) (e : ExprId) : Option SymbolId :=
  (events.filterMap (target? e)).getLast?

end LexicalEvent

/-- The frames at hand, the innermost first, and what has been found so far. -/
structure FrameStack where
  frames : List Frame
  events : List LexicalEvent
deriving DecidableEq

namespace FrameStack

variable (p : Program) (depth : Nat)

/-- What becomes of the name that an expression uses itself. Members are not looked up in frames. -/
def nameEvents (frames : List Frame) (e : ExprId) : Expr → List LexicalEvent
  | .ident (.free n) line =>
    match frames.findSome? (·.get? n) with
    | some t => [.bound e t]
    | none => [.failed (.unknownName (p.text n)) line]
  | _ => []

/-- What becomes of the names in an expression down to `depth` levels, the operands first. -/
def exprEvents (frames : List Frame) : Nat → ExprId → List LexicalEvent
  | 0, _ => []
  | depth + 1, e =>
    match p.expr? e with
    | none => []
    | some x => x.children.flatMap (exprEvents frames depth) ++ nameEvents p frames e x

def exprs (st : FrameStack) (es : List ExprId) : FrameStack :=
  { st with events := st.events ++ es.flatMap (exprEvents p st.frames depth) }

/-- Enters a variable into the innermost frame, unless that declares its name already. -/
def declare (st : FrameStack) (v : SymbolId) : FrameStack :=
  match p.symbol? v, st.frames with
  | some sym, top :: outer =>
    match top.get? sym.name with
    | some w =>
      let error := BuildError.duplicate (p.text sym.name) sym.line (p.symbolLine w)
      { st with events := st.events ++ [.failed (.build error) sym.line] }
    | none => { st with frames := top.insertIfNew sym.name v :: outer }
  | _, _ => st

/-- A variable is entered after its type and its initializer. -/
def localVar (st : FrameStack) (v : SymbolId) : FrameStack :=
  declare p (exprs p depth st (((p.typedValue? v).map TypedValue.exprs).getD [])) v

/-- Runs `body` with a fresh frame, and drops the frame afterwards. -/
def withFrame (body : FrameStack → FrameStack) (st : FrameStack) : FrameStack :=
  { body { st with frames := .empty :: st.frames } with frames := st.frames }

section Statements

-- how a statement below the one at hand is resolved
variable (stmt : FrameStack → StmtId → FrameStack)

/-- A branch or the body of a loop gets a frame, unless it is a block, which brings its own. -/
def nested (st : FrameStack) (s : StmtId) : FrameStack :=
  if ((p.stmt? s).map Stmt.isBlock).getD false then stmt st s else st.withFrame fun st => stmt st s

/-- The values and the fallthrough of a case stand outside of the frame of its body. -/
def case (st : FrameStack) (c : Case) : FrameStack :=
  let st := exprs p depth st c.values
  let st := st.withFrame fun st => c.body.foldl stmt st
  exprs p depth st c.fallthrough.toList

def stmtStep (st : FrameStack) : Stmt → FrameStack
  | .block b => st.withFrame fun st => b.statements.foldl stmt st
  | .branch cond onTrue onFalse _ =>
    (onTrue :: onFalse.toList).foldl (nested p stmt) (exprs p depth st [cond])
  | .whileLoop cond body _ => nested p stmt (exprs p depth st [cond]) body
  | .doWhile body cond _ => exprs p depth (nested p stmt st body) [cond]
  | .forLoop init cond advance body _ => st.withFrame fun st =>
    let st := init.toList.foldl stmt st
    nested p stmt (exprs p depth st (cond.toList ++ advance.toList)) body
  | .breakLoop _ | .continueLoop _ => st
  | .returnValue value _ => exprs p depth st value.toList
  | .throwMessage e _ | .deleteTarget e _ | .expr e _ => exprs p depth st [e]
  | .switch value cases defaultBody _ =>
    let st := cases.foldl (case p depth stmt) (exprs p depth st [value])
    match defaultBody with
    | none => st
    | some body => st.withFrame fun st => body.foldl stmt st
  | .var v _ => localVar p depth st v

end Statements

/-- Resolves a statement down to `n` levels. -/
def stmtWithin : Nat → FrameStack → StmtId → FrameStack
  | 0, st, _ => st
  | n + 1, st, s =>
    match p.stmt? s with
    | none => st
    | some x => stmtStep p depth (stmtWithin n) st x

def stmt (st : FrameStack) (s : StmtId) : FrameStack := stmtWithin p depth depth st s

/-- The result type of a method stands outside of the frame of its parameters and locals. -/
def method (st : FrameStack) (s : SymbolId) : FrameStack :=
  match (p.symbol? s).bind (·.method?) with
  | none => st
  | some m => (exprs p depth st m.returnType.toList).withFrame fun st =>
    m.callable.body.toList.foldl (stmt p depth) (m.parameters.foldl (localVar p depth) st)

def constructor (st : FrameStack) (s : SymbolId) : FrameStack :=
  match (p.symbol? s).bind (·.constructor?) with
  | none => st
  | some c => st.withFrame fun st => c.body.toList.foldl (stmt p depth) st

def destructor (st : FrameStack) (b : Block) : FrameStack :=
  st.withFrame fun st => b.statements.foldl (stmt p depth) st

def value (st : FrameStack) (s : SymbolId) : FrameStack :=
  exprs p depth st (((p.typedValue? s).map TypedValue.exprs).getD [])

/-- The frames in which the members of a type stand: those members, and the global names. -/
def atType (events : List LexicalEvent) (scope : ScopeId) : FrameStack :=
  ⟨[p.scopes.frame scope, p.scopes.frame ScopeTree.global], events⟩

def classType (events : List LexicalEvent) (s : SymbolId) : List LexicalEvent :=
  match p.class? s with
  | none => events
  | some c =>
    let st := (c.consts ++ c.fields).foldl (value p depth) (atType p events c.scope)
    let st := c.constructor.toList.foldl (constructor p depth) st
    let st := c.destructor.toList.foldl (destructor p depth) st
    (c.methods.foldl (method p depth) st).events

def enumType (events : List LexicalEvent) (s : SymbolId) : List LexicalEvent :=
  match (p.symbol? s).bind (·.enum?) with
  | none => events
  | some t => ((p.members t.scope).foldl (value p depth) (atType p events t.scope)).events

/-- Everything that becomes of the names of a program, looked at down to `depth` levels. -/
def run : List LexicalEvent :=
  p.enums.foldl (enumType p depth) (p.classes.foldl (classType p depth) [])

end FrameStack

end NameBinding
