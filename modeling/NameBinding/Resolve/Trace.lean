import NameBinding.Resolve.Journal

/-!
The trace of a resolution: events with a level, a message and named fields.
-/

namespace NameBinding

inductive TraceEvent
  | started (classes enums : Nat)
  | boundBase (derived base : String)
  | resolvedBases (bound errors : Nat)
  | boundReference (name : String) (line targetLine : Line)
  | boundMember (owner member : String) (line : Line)
  | resolvedBodies (references scopes errors : Nat)
  | validatedSwitches (errors : Nat)
  | limitReached (limit : Nat)
  | droppedErrors (dropped : Nat)
  | resolvedTree (outline : String)
deriving DecidableEq

inductive TraceLevel
  | info | warn | debug | trace
deriving DecidableEq

def TraceLevel.display : TraceLevel → String
  | info => "INFO"
  | warn => "WARN"
  | debug => "DEBUG"
  | trace => "TRACE"

/-- The value of a field of an event. -/
inductive TraceValue
  | number (n : Nat)
  | text (s : String)
deriving DecidableEq

namespace TraceEvent

def level : TraceEvent → TraceLevel
  | started .. => .info
  | limitReached _ => .warn
  | resolvedBases .. | resolvedBodies .. | validatedSwitches _ | droppedErrors _ => .debug
  | boundBase .. | boundReference .. | boundMember .. | resolvedTree _ => .trace

def message : TraceEvent → String
  | started .. => "span resolve"
  | boundBase .. => "bound base class"
  | resolvedBases .. => "resolved base classes"
  | boundReference .. => "bound reference"
  | boundMember .. => "bound member"
  | resolvedBodies .. => "resolved declarations and bodies"
  | validatedSwitches _ => "validated switches"
  | limitReached _ => "error limit reached, further errors are dropped"
  | droppedErrors _ => "errors over the limit were dropped"
  | resolvedTree _ => "resolved tree"

def fields : TraceEvent → List (String × TraceValue)
  | started classes enums => [("classes", .number classes), ("enums", .number enums)]
  | boundBase derived base => [("class", .text derived), ("base", .text base)]
  | resolvedBases bound errors => [("bound", .number bound), ("errors", .number errors)]
  | boundReference name line targetLine =>
    [("name", .text name), ("line", .number line.number.toNat),
      ("target_line", .number targetLine.number.toNat)]
  | boundMember owner member line =>
    [("owner", .text owner), ("member", .text member), ("line", .number line.number.toNat)]
  | resolvedBodies references scopes errors =>
    [("references", .number references), ("scopes", .number scopes), ("errors", .number errors)]
  | validatedSwitches errors => [("errors", .number errors)]
  | limitReached limit => [("limit", .number limit)]
  | droppedErrors dropped => [("dropped", .number dropped)]
  | resolvedTree outline => [("tree", .text outline)]

end TraceEvent

end NameBinding
