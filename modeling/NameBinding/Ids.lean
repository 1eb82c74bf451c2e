/-!
Identifiers of the nodes of a program. Each table hands out 0, 1, 2, … in the order of entry, and
every table has an identifier type of its own, so that none is used in place of another.
-/

namespace NameBinding

structure ExprId where
  index : Nat
deriving DecidableEq

structure StmtId where
  index : Nat
deriving DecidableEq

structure SymbolId where
  index : Nat
deriving DecidableEq

structure ScopeId where
  index : Nat
deriving DecidableEq

end NameBinding
