import NameBinding.Program.Bindings
import NameBinding.Resolve.Journal

/-!
The state of the pass that binds names. The program is only read: scopes for methods, blocks and
clauses are opened in a copy of its tree of scopes.
-/

namespace NameBinding

structure Pass where
  scopes : ScopeTree
  bindings : Bindings := {}
  journal : Array Entry := #[]
deriving DecidableEq

namespace Pass

def note (st : Pass) (e : Entry) : Pass := { st with journal := st.journal.push e }

/-- Records what became of the name that an expression uses. -/
def settle (st : Pass) (e : ExprId) (b : Binding) : Pass :=
  let st :=
    match b with
    | .lexical t | .member _ t =>
      { st with bindings.references := st.bindings.references.insert e t }
    | _ => st
  st.note (.name e b)

/-- Opens a scope under `scope`. -/
def openScope (st : Pass) (scope : ScopeId) (kind : ScopeKind) : ScopeId × Pass :=
  let (inner, scopes) := st.scopes.addChild scope kind
  (inner, { st with scopes })

/-- Opens the scope of a method, a constructor or the destructor of a class. -/
def openMethod (st : Pass) (scope : ScopeId) (s : SymbolId) : ScopeId × Pass :=
  let (inner, st) := st.openScope scope (.method s)
  (inner, { st with bindings.methodScopes := st.bindings.methodScopes.insert s inner })

def recordBlock (st : Pass) (s : StmtId) (scope : ScopeId) : Pass :=
  { st with bindings.blockScopes := st.bindings.blockScopes.insert s scope }

def recordClause (st : Pass) (s : StmtId) (c : SwitchClause) (scope : ScopeId) : Pass :=
  { st with bindings.clauseScopes := st.bindings.clauseScopes.insert (s, c) scope }

end Pass

end NameBinding
