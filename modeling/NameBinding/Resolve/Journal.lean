import NameBinding.Options
import NameBinding.Resolve.Diagnostic

/-!
The journal of a resolution: what was met and what became of it, in order. It does not depend on the
options; errors and trace are read off it afterwards.
-/

namespace NameBinding

/-- Something that went wrong, with the names that were in reach of a name not found. -/
structure Fault where
  cause : Cause
  line : Line
  inReach : List String := []
deriving DecidableEq

/-- The error for a fault: of the names in reach, the nearest are offered. -/
def Fault.report (o : Options) (f : Fault) : Diagnostic where
  cause := f.cause
  line := f.line
  suggestions :=
    match f.cause.missing? with
    | some name => Suggestion.nearest name f.inReach o.maxSuggestionDistance o.maxSuggestions
    | none => []

/-- What became of a name that was to be bound. -/
inductive Binding
  /-- It was bound before. -/
  | kept
  /-- It is bound to a declaration in an enclosing scope. -/
  | lexical (target : SymbolId)
  /-- It is bound to a member of a type. -/
  | member (owner target : SymbolId)
  /-- What it is selected from is unknown, which has been reported. -/
  | skipped
  | failed (fault : Fault)
deriving DecidableEq

inductive Entry
  /-- A base class is bound. -/
  | base (derived target : SymbolId)
  /-- A declaration is refused. -/
  | fault (fault : Fault)
  /-- All base classes have been looked at. -/
  | basesDone (bound : Nat)
  /-- An expression is met. -/
  | expr (id : ExprId)
  /-- The name that an expression uses has been looked up. -/
  | name (id : ExprId) (binding : Binding)
  /-- All bodies have been looked at. -/
  | bodiesDone (references scopes : Nat)
  /-- All switches have been looked at. -/
  | switchesDone (errors : Nat)
deriving DecidableEq

/-- The fault that an entry records. -/
def Entry.fault? : Entry → Option Fault
  | .fault f | .name _ (.failed f) => some f
  | _ => none

end NameBinding
