import NameBinding.Resolve.Inheritance
import NameBinding.Resolve.Pass

/-!
Binding the names in expressions. A plain name is looked up in the scope in which it stands; a
member is looked up in the type it is selected from and in the ancestors of that type.
-/

namespace NameBinding.Pass

variable (p : Program)

/-- The declaration that an expression is bound to, in the program or so far. -/
def bound? (st : Pass) (e : ExprId) : Option SymbolId :=
  (p.reference? e).bind fun r => r.target?.or (st.bindings.references.get? e)

/-- What a name means in the scope in which it stands. -/
def lexical (st : Pass) (scope : ScopeId) (r : Reference) (line : Line) : Binding :=
  if r.isBound then .kept
  else
    match st.scopes.lookup scope r.name with
    | some t => .lexical t
    | none => .failed ⟨.unknownName (p.text r.name), line,
        (st.scopes.namesInReach scope).map p.text⟩

/-- What a member is selected from. -/
inductive Owner
  | type (s : SymbolId)
  | unknown
  /-- Something without members, in words. -/
  | nothing (what : String)
deriving DecidableEq

/-- The declared type of a value. One not bound yet is sought in the global scope. -/
def declaredType? (st : Pass) (v : TypedValue) : Option SymbolId :=
  (st.bound? p v.type).or ((p.reference? v.type).bind fun r =>
    st.scopes.declared? ScopeTree.global r.name)

/-- The owner that a bound name stands for: a type, or the declared type of a value. -/
def ownerOf (st : Pass) (t : SymbolId) (sym : Symbol) : Owner :=
  match sym.kind with
  | .classType _ | .enumType _ => .type t
  | .var v | .field ⟨_, v⟩ | .const ⟨_, v⟩ =>
    match st.declaredType? p v with
    | none => .unknown
    | some ty =>
      if ((p.symbol? ty).bind (·.scope?)).isSome then .type ty
      else .nothing s!"`{p.text sym.name}` of type `{p.symbolText ty}`"
  | .builtin _ | .method _ | .constructor _ =>
    .nothing s!"{sym.kind.display} `{p.text sym.name}`"

/-- What the members of an expression are selected from. -/
def owner (st : Pass) (object : ExprId) : Owner :=
  match st.bound? p object with
  | none => if (p.reference? object).isSome then .unknown else .nothing "an expression"
  | some t =>
    match p.symbol? t with
    | none => .unknown
    | some sym => st.ownerOf p t sym

/-- The scopes of a type and its ancestors, the nearest first. -/
def lineageScopes (st : Pass) (owner : SymbolId) : List ScopeId :=
  (p.lineage st.bindings owner).filterMap fun s => (p.symbol? s).bind (·.scope?)

/-- What a member means: the declaration of the nearest type that has one. -/
def selected (st : Pass) (object : ExprId) (r : Reference) (line : Line) : Binding :=
  if r.isBound then .kept
  else
    match st.owner p object with
    | .unknown => .skipped
    | .nothing what => .failed ⟨.noMembers (p.text r.name) what, line, []⟩
    | .type owner =>
      match (st.lineageScopes p owner).findSome? fun s => st.scopes.declared? s r.name with
      | some t => .member owner t
      | none => .failed ⟨.unknownMember (p.symbolText owner) (p.text r.name), line,
          ((st.lineageScopes p owner).flatMap st.scopes.names).map p.text⟩

/-- Binds the name that an expression uses itself, its operands being done. -/
def bindOwn (scope : ScopeId) (st : Pass) (e : ExprId) : Pass :=
  match p.expr? e with
  | some (.ident r line) => st.settle e (st.lexical p scope r line)
  | some (.select object r line) => st.settle e (st.selected p object r line)
  | _ => st

/-- Resolves an expression down to `depth` levels: its operands in order, then its own name. -/
def exprWithin : Nat → ScopeId → Pass → ExprId → Pass
  | 0, _, st, _ => st
  | depth + 1, scope, st, e =>
    let children := ((p.expr? e).map Expr.children).getD []
    bindOwn p scope (children.foldl (exprWithin depth scope) (st.note (.expr e))) e

/-- Resolves an expression. Operands have smaller indices, which bounds the depth. -/
def expr (scope : ScopeId) (st : Pass) (e : ExprId) : Pass := exprWithin p (e.index + 1) scope st e

def exprs (scope : ScopeId) (st : Pass) (es : List ExprId) : Pass := es.foldl (expr p scope) st

/-- Resolves the type and the initializer of a symbol that has them. -/
def value (scope : ScopeId) (st : Pass) (s : SymbolId) : Pass :=
  exprs p scope st (((p.typedValue? s).map TypedValue.exprs).getD [])

end NameBinding.Pass
