import NameBinding.Resolve.Journal
import NameBinding.Walk

/-!
The rules of a switch. A case may jump to the default clause if there is one, and the last case has
nothing to fall through to.
-/

namespace NameBinding

/-- The fault of a jump to the default clause from within `clause`. -/
def Clause.jumpCause? : Option Clause → Option Cause
  | some (.case true) => none
  | some (.case false) => some .jumpWithoutDefault
  | some .default | none => some .jumpOutsideCase

namespace Program

/-- The rule that is broken at a place. -/
def switchFault? (p : Program) (place : Place) : Option Fault :=
  match place.node with
  | .gotoDefault e => (Clause.jumpCause? place.clause).map fun c => ⟨c, p.exprLine e, []⟩
  | .expr e =>
    if place.afterLastCase && !((p.expr? e).map Expr.isGotoDefault).getD false then
      some ⟨.fallFromLastCase, p.exprLine e, []⟩
    else none
  | _ => none

/-- The faults of all switches, in the order of the walk. -/
def switchFaults (p : Program) : Option (List Fault) :=
  p.walk.map (·.filterMap p.switchFault?)

end Program

end NameBinding
