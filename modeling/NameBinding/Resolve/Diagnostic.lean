import NameBinding.Program.BuildError
import NameBinding.Program.Basic
import NameBinding.Suggestion

/-!
What resolution reports. An error is a cause at a line, with the names offered in place of one that
is not found.
-/

namespace NameBinding

inductive Cause
  | build (error : BuildError)
  | unknownName (name : String)
  | unknownMember (owner name : String)
  | noMembers (name object : String)
  | unknownBase (derived name : String)
  | baseNotAClass (derived name kind : String)
  | cyclicInheritance (name : String)
  | jumpOutsideCase
  | jumpWithoutDefault
  | fallFromLastCase
deriving DecidableEq

/-- The name that was sought and not found. -/
def Cause.missing? : Cause → Option String
  | unknownName name | unknownMember _ name | unknownBase _ name => some name
  | _ => none

structure Diagnostic where
  cause : Cause
  line : Line
  suggestions : List String := []
deriving DecidableEq

namespace Diagnostic

/-- A refused declaration or binding as an error of resolution. -/
def ofBuild (e : BuildError) : Diagnostic := { cause := .build e, line := e.line }

def message (e : Diagnostic) : String :=
  let l := e.line.display
  match e.cause with
  | .build t => t.message
  | .unknownName name => s!"cannot find `{name}` in this scope ({l})"
  | .unknownMember owner name => s!"`{owner}` has no member `{name}` ({l})"
  | .noMembers name object => s!"cannot select `{name}` from {object} ({l})"
  | .unknownBase derived name =>
    s!"base class `{name}` of `{derived}` is not declared ({l})"
  | .baseNotAClass derived name kind =>
    s!"`{name}` is a {kind}, so `{derived}` cannot derive from it ({l})"
  | .cyclicInheritance name => s!"class `{name}` inherits from itself ({l})"
  | .jumpOutsideCase => s!"`goto default` outside of a switch case ({l})"
  | .jumpWithoutDefault => s!"`goto default` in a switch without a default clause ({l})"
  | .fallFromLastCase => s!"the last case of a switch cannot fall through ({l})"

def code (e : Diagnostic) : String :=
  match e.cause with
  | .build t => t.code
  | .unknownName _ => "resolve::unresolved_identifier"
  | .unknownMember .. => "resolve::unresolved_member"
  | .noMembers .. => "resolve::no_members"
  | .unknownBase .. => "resolve::unresolved_base_class"
  | .baseNotAClass .. => "resolve::base_not_a_class"
  | .cyclicInheritance _ => "resolve::cyclic_inheritance"
  | .jumpOutsideCase => "resolve::goto_default_outside_switch"
  | .jumpWithoutDefault => "resolve::goto_default_without_default"
  | .fallFromLastCase => "resolve::fallthrough_from_last_case"

def help (e : Diagnostic) : Option String :=
  match e.cause with
  | .build t => t.help
  | .noMembers .. => some "members live in classes, enums and values declared with those types"
  | .baseNotAClass .. => some "only classes can be used as base classes"
  | .fallFromLastCase => some "use `goto default` or end the case body instead"
  | _ => Suggestion.help e.suggestions

end Diagnostic

/-- The program that could not be resolved, as it was, with the errors found in it. -/
structure Failure where
  program : Program
  errors : List Diagnostic
deriving DecidableEq

namespace Failure

def message (f : Failure) : String :=
  s!"name resolution failed with {f.errors.length} error(s)"

def code : String := "resolve::failed"

end Failure

end NameBinding
