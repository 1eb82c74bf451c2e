import NameBinding.Outline.Tree
import NameBinding.Resolve.Report

/-!
Resolution: every name of a program is bound, or the errors are reported and the program stays as
it was.
-/

namespace NameBinding

namespace Program

/-- The bindings of a program, with the tree of scopes they refer to, and the errors found. -/
def bindings (p : Program) (o : Options) : Bindings × List Diagnostic :=
  let st := Pass.run p
  ({ st.bindings with scopes := some st.scopes }, (Report.of p o st).errors)

/-- Resolves the names of a program. -/
def resolve (p : Program) (o : Options) : Except Failure BoundProgram :=
  match p.bindings o with
  | (b, []) =>
    match p.applyBindings b with
    | .ok r => .ok r
    | .error u => .error ⟨u.program, u.errors.map .ofBuild⟩
  | (_, errors) => .error ⟨p, errors⟩

/-- The trace of a resolution. If it succeeds, the outline of its result stands at the end. -/
def resolveTrace (p : Program) (o : Options) : List TraceEvent :=
  (Report.of p o (Pass.run p)).trace ++
    match p.resolve o with
    | .ok r => (r.program.outline.map TraceEvent.resolvedTree).toList
    | .error _ => []

end Program

end NameBinding
