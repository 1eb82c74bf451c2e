import NameBinding.Resolve.Bodies
import NameBinding.Resolve.Switches
import NameBinding.Resolve.Trace

/-!
What is reported of a journal: errors up to the limit, a count of those dropped, and the trace.
-/

namespace NameBinding

structure Report where
  errors : List Diagnostic := []
  dropped : Nat := 0
  trace : List TraceEvent := []
deriving DecidableEq

namespace Report

variable (p : Program) (o : Options)

/-- Adds an event to the trace. -/
def log (r : Report) (e : TraceEvent) : Report := { r with trace := r.trace ++ [e] }

/-- Keeps an error, or counts it as dropped once the limit is reached. -/
def add (r : Report) (e : Diagnostic) : Report :=
  if o.limitReached r.errors.length then
    let r := if r.dropped = 0 then r.log (.limitReached o.maxErrors) else r
    { r with dropped := r.dropped + 1 }
  else { r with errors := r.errors ++ [e] }

/-- The name that a class gives to its base. -/
def baseText (s : SymbolId) : String :=
  (((p.symbol? s).bind (·.baseClass?)).map fun b => p.text b.reference.name).getD ""

/-- The name that an expression uses. -/
def usedText (e : ExprId) : String := ((p.reference? e).map fun r => p.text r.name).getD ""

def entry (r : Report) : Entry → Report
  | .base s _ => r.log (.boundBase (p.symbolText s) (baseText p s))
  | .fault f => r.add o (f.report o)
  | .basesDone bound => r.log (.resolvedBases bound r.errors.length)
  | .expr _ => r
  | .name e (.lexical t) =>
    r.log (.boundReference (usedText p e) (p.exprLine e) (p.symbolLine t))
  | .name e (.member owner _) =>
    r.log (.boundMember (p.symbolText owner) (usedText p e) (p.exprLine e))
  | .name _ (.failed f) => r.add o (f.report o)
  | .name _ .kept | .name _ .skipped => r
  | .bodiesDone references scopes => r.log (.resolvedBodies references scopes r.errors.length)
  | .switchesDone errors => r.log (.validatedSwitches errors)

/-- The entries for the faults of switches. -/
def switchEntries : List Entry :=
  let faults := p.switchFaults.getD []
  .switchesDone faults.length :: faults.map .fault

/-- The report of a pass, with the switches if the options ask for them. -/
def of (st : Pass) : Report :=
  let entries := st.journal.toList ++ if o.validateSwitches then switchEntries p else []
  let start : Report := { trace := [.started p.classes.length p.enums.length] }
  let r := entries.foldl (entry p o) start
  if 0 < r.dropped then r.log (.droppedErrors r.dropped) else r

end Report

end NameBinding
