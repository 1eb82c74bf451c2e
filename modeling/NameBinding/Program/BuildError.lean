import NameBinding.Line

/-!
Why a declaration or a binding is refused.
-/

namespace NameBinding

inductive BuildError
  | duplicate (name : String) (line previous : Line)
  | notAType (name kind : String) (line : Line)
  | misplacedMember (owner ownerKind memberKind : String) (line : Line)
  | secondConstructor (owner : String) (line : Line)
  | secondDestructor (owner : String) (line : Line)
  | unbound (name : String) (line : Line)
deriving DecidableEq

namespace BuildError

def line : BuildError → Line
  | duplicate _ l _ | notAType _ _ l | misplacedMember _ _ _ l
  | secondConstructor _ l | secondDestructor _ l | unbound _ l => l

def message : BuildError → String
  | duplicate name l previous =>
    s!"`{name}` is already declared in this scope " ++
      s!"({l.display}, first declared at {previous.display})"
  | notAType name kind l => s!"`{name}` is a {kind}, not a class or enum ({l.display})"
  | misplacedMember owner ownerKind memberKind l =>
    s!"a {memberKind} cannot be declared in {ownerKind} `{owner}` ({l.display})"
  | secondConstructor owner l => s!"class `{owner}` already has a constructor ({l.display})"
  | secondDestructor owner l => s!"class `{owner}` already has a destructor ({l.display})"
  | unbound name l => s!"`{name}` was not bound by the resolver ({l.display})"

def code : BuildError → String
  | duplicate .. => "tree::duplicate_declaration"
  | notAType .. => "tree::not_a_type"
  | misplacedMember .. => "tree::invalid_member"
  | secondConstructor .. => "tree::constructor_already_set"
  | secondDestructor .. => "tree::destructor_already_set"
  | unbound .. => "tree::unbound_reference"

def help : BuildError → Option String
  | duplicate .. =>
    some "rename one of the declarations; shadowing is only allowed in nested scopes"
  | misplacedMember .. => some "classes hold consts, fields and methods; enums hold consts only"
  | _ => none

end BuildError

end NameBinding
