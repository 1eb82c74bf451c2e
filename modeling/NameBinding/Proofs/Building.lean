import Mathlib
import NameBinding.Program.Build

/-!
The programs that can be built: those that building operations lead to from the new program, when
every operation names only nodes and texts that are there already.
-/

namespace NameBinding

/-! ### Identifiers -/

lemma ExprId.index_injective : Function.Injective ExprId.index :=
  fun ⟨_⟩ ⟨_⟩ h => congrArg ExprId.mk h

lemma SymbolId.index_injective : Function.Injective SymbolId.index :=
  fun ⟨_⟩ ⟨_⟩ h => congrArg SymbolId.mk h

/-! ### The parts of a node -/

namespace Stmt

/-- The statements directly below, in the order in which they are written. -/
def children : Stmt → List StmtId
  | block b => b.statements
  | branch _ onTrue onFalse _ => onTrue :: onFalse.toList
  | whileLoop _ body _ | doWhile body _ _ => [body]
  | forLoop init _ _ body _ => init.toList ++ [body]
  | switch _ cases defaultBody _ => cases.flatMap Case.body ++ defaultBody.getD []
  | _ => []

/-- The statements below that are branches or bodies of loops. -/
def bodies : Stmt → List StmtId
  | branch _ onTrue onFalse _ => onTrue :: onFalse.toList
  | whileLoop _ body _ | doWhile body _ _ | forLoop _ _ _ body _ => [body]
  | _ => []

/-- The other statements below: those of blocks and clauses, and the first one of a `for`. -/
def directs : Stmt → List StmtId
  | block b => b.statements
  | forLoop init _ _ _ _ => init.toList
  | switch _ cases defaultBody _ => cases.flatMap Case.body ++ defaultBody.getD []
  | _ => []

/-- The expressions that stand directly in a statement. -/
def exprs : Stmt → List ExprId
  | branch cond _ _ _ | whileLoop cond _ _ | doWhile _ cond _ => [cond]
  | forLoop _ cond advance _ _ => cond.toList ++ advance.toList
  | returnValue value _ => value.toList
  | throwMessage e _ | deleteTarget e _ | expr e _ => [e]
  | switch value cases _ _ => value :: cases.flatMap fun c => c.values ++ c.fallthrough.toList
  | _ => []

/-- The symbol that a local declaration declares. -/
def declared? : Stmt → Option SymbolId
  | var v _ => some v
  | _ => none

end Stmt

namespace SymbolKind

/-- The expressions that stand directly in a declaration. -/
def exprs : SymbolKind → List ExprId
  | var v => v.exprs
  | field m | const m => m.value.exprs
  | method m => m.returnType.toList
  | _ => []

/-- The statements that stand directly in a declaration. -/
def stmts : SymbolKind → List StmtId
  | constructor c => c.body.toList
  | method m => m.callable.body.toList
  | classType c => (c.destructor.map Block.statements).getD []
  | _ => []

/-- The parameters of a method, or the members that a class lists. -/
def symbols : SymbolKind → List SymbolId
  | method m => m.parameters
  | classType c => c.constructor.toList ++ c.consts ++ c.fields ++ c.methods
  | _ => []

end SymbolKind

/-! ### What is allocated -/

/-- How far each table is filled. -/
structure Extent where
  names : Nat
  exprs : Nat
  stmts : Nat
  symbols : Nat
  scopes : Nat

/-- One extent is at least as large as the other in every table. -/
structure Extent.Le (x y : Extent) : Prop where
  names : x.names ≤ y.names
  exprs : x.exprs ≤ y.exprs
  stmts : x.stmts ≤ y.stmts
  symbols : x.symbols ≤ y.symbols
  scopes : x.scopes ≤ y.scopes

def Program.extent (p : Program) : Extent where
  names := p.names.size
  exprs := p.exprs.size
  stmts := p.stmts.size
  symbols := p.symbols.size
  scopes := p.scopes.size

section Within

variable (x : Extent)

/-- The name and the target are allocated. -/
def Reference.Within (r : Reference) : Prop :=
  r.name.key < x.names ∧ ∀ t ∈ r.target?.toList, t.index < x.symbols

/-- The operands and the reference are allocated. -/
def Expr.Within (e : Expr) : Prop :=
  (∀ c ∈ e.children, c.index < x.exprs) ∧ ∀ r ∈ e.reference?.toList, r.Within x

/-- The statements, expressions and the symbol that a statement names are allocated. -/
def Stmt.Within (s : Stmt) : Prop :=
  (∀ c ∈ s.children, c.index < x.stmts) ∧ (∀ e ∈ s.exprs, e.index < x.exprs) ∧
    ∀ v ∈ s.declared?.toList, v.index < x.symbols

/-- All that a declaration names is allocated. -/
def Symbol.Within (s : Symbol) : Prop :=
  s.name.key < x.names ∧ (∀ e ∈ s.kind.exprs, e.index < x.exprs) ∧
    (∀ t ∈ s.kind.stmts, t.index < x.stmts) ∧ (∀ v ∈ s.kind.symbols, v.index < x.symbols) ∧
    (∀ sc ∈ s.scope?.toList, sc.index < x.scopes) ∧
    ∀ b ∈ s.baseClass?.toList, b.reference.Within x

instance (r : Reference) : Decidable (r.Within x) := inferInstanceAs (Decidable (_ ∧ _))

instance (e : Expr) : Decidable (e.Within x) := inferInstanceAs (Decidable (_ ∧ _))

instance (s : Stmt) : Decidable (s.Within x) := inferInstanceAs (Decidable (_ ∧ _))

instance (s : Symbol) : Decidable (s.Within x) := inferInstanceAs (Decidable (_ ∧ _))

end Within

/-! ### Operations -/

/-- An operation that builds on a program. -/
inductive Operation
  | intern (text : String)
  | addExpr (e : Expr)
  | addStmt (s : Stmt)
  | addVar (text : String) (line : Line) (value : TypedValue)
  | declare (scope : ScopeId) (s : Symbol)
  | declareClass (text : String) (line : Line) (head : ClassHead)
  | declareEnum (text : String) (line : Line) (head : EnumHead)
  | declareMember (owner : SymbolId) (s : Symbol)
  | defineConstructor (s : SymbolId) (line : Line) (c : Callable)
  | defineDestructor (s : SymbolId) (body : Block)

/-- What an operation names is allocated. -/
def Operation.Within (x : Extent) : Operation → Prop
  | intern _ | declareClass _ _ _ | declareEnum _ _ _ => True
  | addExpr e => e.Within x
  | addStmt s => s.Within x
  | addVar _ _ value => ∀ e ∈ value.exprs, e.index < x.exprs
  | declare scope s => scope.index < x.scopes ∧ s.Within x
  | declareMember owner s => owner.index < x.symbols ∧ s.Within x
  | defineConstructor s _ c => s.index < x.symbols ∧ ∀ t ∈ c.body.toList, t.index < x.stmts
  | defineDestructor s body => s.index < x.symbols ∧ ∀ t ∈ body.statements, t.index < x.stmts

instance (x : Extent) : (op : Operation) → Decidable (op.Within x)
  | .intern _ | .declareClass _ _ _ | .declareEnum _ _ _ => inferInstanceAs (Decidable True)
  | .addExpr e => inferInstanceAs (Decidable (e.Within x))
  | .addStmt s => inferInstanceAs (Decidable (s.Within x))
  | .addVar _ _ value => inferInstanceAs (Decidable (∀ e ∈ value.exprs, e.index < x.exprs))
  | .declare _ _ | .declareMember _ _ | .defineConstructor _ _ _ | .defineDestructor _ _ =>
    inferInstanceAs (Decidable (_ ∧ _))

namespace Program

/-- The program after an operation, whether it was accepted or refused. -/
def perform (p : Program) : Operation → Program
  | .intern text => (p.intern text).2
  | .addExpr e => (p.addExpr e).2
  | .addStmt s => (p.addStmt s).2
  | .addVar text line value => (p.addVar text line value).2
  | .declare scope s => (p.declare scope s).2
  | .declareClass text line head => (p.declareClass text line head).2
  | .declareEnum text line head => (p.declareEnum text line head).2
  | .declareMember owner s => (p.declareMember owner s).2
  | .defineConstructor s line c => (p.defineConstructor s line c).2
  | .defineDestructor s body => (p.defineDestructor s body).2

/-- A program that operations on allocated nodes lead to. -/
inductive Built : Program → Prop
  | new : Built .new
  | perform {p : Program} {op : Operation} : Built p → op.Within p.extent → Built (p.perform op)

/-- The program that a list of operations leads to, if each names allocated nodes only. -/
def build? (p : Program) : List Operation → Option Program
  | [] => some p
  | op :: ops => if op.Within p.extent then (p.perform op).build? ops else none

lemma Built.build? {p q : Program} {ops : List Operation} (hp : p.Built)
    (h : p.build? ops = some q) : q.Built := by
  induction ops generalizing p with
  | nil =>
    obtain rfl := Option.some.inj h
    exact hp
  | cons op ops ih =>
    unfold Program.build? at h
    split at h
    · next hop => exact ih (hp.perform hop) h
    · simp at h

end Program

end NameBinding
