import NameBinding.Program.Basic
import NameBinding.Program.BuildError

/-!
What the names of a program bind to, and the program in which every name is bound.
-/

namespace NameBinding

/-- A clause of a switch: a case by its position, or the default clause. -/
inductive SwitchClause
  | case (index : Nat)
  | default
deriving DecidableEq

structure Bindings where
  references : OrderedMap ExprId SymbolId := .empty
  baseClasses : OrderedMap SymbolId SymbolId := .empty
  methodScopes : OrderedMap SymbolId ScopeId := .empty
  blockScopes : OrderedMap StmtId ScopeId := .empty
  clauseScopes : OrderedMap (StmtId × SwitchClause) ScopeId := .empty
  /-- The tree of scopes that takes the place of the program's own. -/
  scopes : Option ScopeTree := none
deriving DecidableEq

/-- A program in which every name is bound, with the scopes that were opened for its bodies. -/
structure BoundProgram where
  program : Program
  methodScopes : OrderedMap SymbolId ScopeId
  blockScopes : OrderedMap StmtId ScopeId
  clauseScopes : OrderedMap (StmtId × SwitchClause) ScopeId
deriving DecidableEq

namespace BoundProgram

/-- The declaration that an expression binds to. -/
def binding? (r : BoundProgram) (e : ExprId) : Option SymbolId :=
  (r.program.reference? e).bind (·.target?)

def baseClass? (r : BoundProgram) (s : SymbolId) : Option SymbolId :=
  ((r.program.symbol? s).bind (·.baseClass?)).bind (·.reference.target?)

def methodScope? (r : BoundProgram) (s : SymbolId) : Option ScopeId := r.methodScopes.get? s

def blockScope? (r : BoundProgram) (s : StmtId) : Option ScopeId := r.blockScopes.get? s

def clauseScope? (r : BoundProgram) (s : StmtId) (c : SwitchClause) : Option ScopeId :=
  r.clauseScopes.get? (s, c)

end BoundProgram

/-- Names that were left unbound, with the program as it was. -/
structure Unbound where
  program : Program
  errors : List BuildError
deriving DecidableEq

namespace Program

/-- The error for an expression whose name is bound neither in the program nor by `b`. -/
def unboundExpr? (p : Program) (b : Bindings) (e : ExprId) : Option BuildError := do
  let expr ← p.expr? e
  let r ← expr.reference?
  if r.isBound || b.references.contains e then none
  else some (.unbound (p.text r.name) expr.line)

/-- The error for a class whose base class is bound neither in the program nor by `b`. -/
def unboundBase? (p : Program) (b : Bindings) (s : SymbolId) : Option BuildError := do
  let sym ← p.symbol? s
  let base ← sym.baseClass?
  if base.reference.isBound || b.baseClasses.contains s then none
  else some (.unbound (p.text base.reference.name) base.line)

/-- The unbound base classes of the classes at the top, then the unbound expressions. -/
def unbound (p : Program) (b : Bindings) : List BuildError :=
  p.classes.filterMap (p.unboundBase? b) ++ p.exprIds.filterMap (p.unboundExpr? b)

/-- Writes the bindings into the tables. -/
def bind (p : Program) (b : Bindings) : Program :=
  { p with
    exprs := p.exprs.mapIdx fun i e => ((b.references.get? ⟨i⟩).map e.bind).getD e
    symbols := p.symbols.mapIdx fun i s =>
      ((b.baseClasses.get? ⟨i⟩).map fun t => s.mapClass (·.bindBase t)).getD s
    scopes := b.scopes.getD p.scopes }

/-- Applies the bindings if they leave no name unbound. -/
def applyBindings (p : Program) (b : Bindings) : Except Unbound BoundProgram :=
  match p.unbound b with
  | [] => .ok ⟨p.bind b, b.methodScopes, b.blockScopes, b.clauseScopes⟩
  | errors => .error ⟨p, errors⟩

end Program

end NameBinding
