import NameBinding.Program.Build
import NameBinding.Resolve.Bases
import NameBinding.Resolve.Names

/-!
The second part of the pass: the declarations and bodies of every class and enum. The scope in which
a part stands is handed down to it.
-/

namespace NameBinding.Pass

variable (p : Program)

/-! ### Statements -/

/-- Enters a local or a parameter into the scope. -/
def declare (scope : ScopeId) (st : Pass) (s : SymbolId) : Pass :=
  match p.symbol? s with
  | none => st
  | some sym =>
    match st.scopes.add scope sym.name s with
    | .ok scopes => { st with scopes }
    | .error existing =>
      st.note (.fault ⟨.build (p.duplicate sym.name sym.line existing), sym.line, []⟩)

/-- Resolves a local or a parameter, and enters it: an initializer does not see its own variable. -/
def localVar (scope : ScopeId) (st : Pass) (s : SymbolId) : Pass :=
  declare p scope (value p scope st s) s

section Statements

-- how a statement below the one at hand is resolved
variable (stmt : ScopeId → Pass → StmtId → Pass)

/-- Resolves a branch or the body of a loop, in a scope of its own. A block brings its own. -/
def nested (scope : ScopeId) (st : Pass) (s : StmtId) : Pass :=
  if ((p.stmt? s).map Stmt.isBlock).getD false then stmt scope st s
  else
    let (inner, st) := st.openScope scope .block
    (stmt inner st s).recordBlock s inner

/-- Resolves the body of a clause in a scope of its own, and records the scope. -/
def clauseBody (scope : ScopeId) (st : Pass) (s : StmtId) (c : SwitchClause)
    (body : List StmtId) : Pass :=
  let (inner, st) := st.openScope scope .block
  (body.foldl (stmt inner) st).recordClause s c inner

/-- Resolves a case. Its values and its fallthrough stand outside of the scope of its body. -/
def case (scope : ScopeId) (s : StmtId) (st : Pass) (c : Case × Nat) : Pass :=
  let st := exprs p scope st c.1.values
  let st := clauseBody stmt scope st s (.case c.2) c.1.body
  exprs p scope st c.1.fallthrough.toList

/-- Resolves a statement, given how those below it are resolved. -/
def stmtStep (scope : ScopeId) (st : Pass) (s : StmtId) : Stmt → Pass
  | .block b =>
    let (inner, st) := st.openScope scope .block
    (b.statements.foldl (stmt inner) st).recordBlock s inner
  | .branch cond onTrue onFalse _ =>
    (onTrue :: onFalse.toList).foldl (nested p stmt scope) (expr p scope st cond)
  | .whileLoop cond body _ => nested p stmt scope (expr p scope st cond) body
  | .doWhile body cond _ => expr p scope (nested p stmt scope st body) cond
  | .forLoop init cond advance body _ =>
    let (inner, st) := st.openScope scope .block
    let st := init.toList.foldl (stmt inner) st
    let st := exprs p inner st (cond.toList ++ advance.toList)
    (nested p stmt inner st body).recordBlock s inner
  | .breakLoop _ | .continueLoop _ => st
  | .returnValue value _ => exprs p scope st value.toList
  | .throwMessage e _ | .deleteTarget e _ | .expr e _ => expr p scope st e
  | .switch value cases defaultBody _ =>
    let st := cases.zipIdx.foldl (case p stmt scope s) (expr p scope st value)
    match defaultBody with
    | none => st
    | some body => clauseBody stmt scope st s .default body
  | .var v _ => localVar p scope st v

end Statements

/-- Resolves a statement down to `depth` levels. -/
def stmtWithin : Nat → ScopeId → Pass → StmtId → Pass
  | 0, _, st, _ => st
  | depth + 1, scope, st, s =>
    match p.stmt? s with
    | none => st
    | some stmt => stmtStep p (stmtWithin depth) scope st s stmt

/-- Resolves a statement. The statements below have smaller indices, which bounds the depth. -/
def stmt (scope : ScopeId) (st : Pass) (s : StmtId) : Pass := stmtWithin p (s.index + 1) scope st s

/-! ### Types -/

/-- Resolves a method. Its result type is resolved outside of its scope. -/
def method (scope : ScopeId) (st : Pass) (s : SymbolId) : Pass :=
  match (p.symbol? s).bind (·.method?) with
  | none => st
  | some m =>
    let st := exprs p scope st m.returnType.toList
    let (inner, st) := st.openMethod scope s
    let st := m.parameters.foldl (localVar p inner) st
    m.callable.body.toList.foldl (stmt p inner) st

def constructor (scope : ScopeId) (st : Pass) (s : SymbolId) : Pass :=
  match (p.symbol? s).bind (·.constructor?) with
  | none => st
  | some c =>
    let (inner, st) := st.openMethod scope s
    c.body.toList.foldl (stmt p inner) st

/-- Resolves the destructor of the class `s`, whose statements stand directly in its scope. -/
def destructor (scope : ScopeId) (s : SymbolId) (st : Pass) (b : Block) : Pass :=
  let (inner, st) := st.openMethod scope s
  b.statements.foldl (stmt p inner) st

def classType (st : Pass) (s : SymbolId) : Pass :=
  match p.class? s with
  | none => st
  | some c =>
    let st := (c.consts ++ c.fields).foldl (value p c.scope) st
    let st := c.constructor.toList.foldl (constructor p c.scope) st
    let st := c.destructor.toList.foldl (destructor p c.scope s) st
    c.methods.foldl (method p c.scope) st

def enumType (st : Pass) (s : SymbolId) : Pass :=
  match (p.symbol? s).bind (·.enum?) with
  | none => st
  | some t => (p.members t.scope).foldl (value p t.scope) st

/-- Resolves the declarations and bodies of every class, then of every enum. -/
def bodies (st : Pass) : Pass :=
  let st := p.classes.foldl (classType p) st
  let st := p.enums.foldl (enumType p) st
  st.note (.bodiesDone st.bindings.references.size st.scopes.size)

/-- The whole pass. -/
def run : Pass := bodies p (bases p { scopes := p.scopes })

end NameBinding.Pass
