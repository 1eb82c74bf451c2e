import NameBinding.Proofs.Building
import NameBinding.Proofs.Reports

/-!
What the options change. They decide how many errors are kept, which names are offered in them and
whether switches are looked at; what is bound does not depend on them.
-/

namespace NameBinding

namespace Program

/-- The faults of a program: those of the pass, then those of its switches if asked for. -/
def faults (p : Program) (switches : Bool) : List Fault :=
  (Pass.run p).journal.toList.filterMap Entry.fault? ++
    if switches then p.switchFaults.getD [] else []

/-- The errors of a program are its faults, reported up to the limit. -/
theorem errors_eq_keep (p : Program) (o : Options) :
    (p.bindings o).2 = o.keep ((p.faults o.validateSwitches).map (Fault.report o)) := by
  have herrors : (p.bindings o).2 = (Report.of p o (Pass.run p)).errors := rfl
  have hswitch : (Report.switchEntries p).filterMap Entry.fault? = p.switchFaults.getD [] := by
    rw [Report.switchEntries, List.filterMap_cons_none rfl, List.filterMap_map]
    exact List.filterMap_some
  have hfaults : (Report.entries p o (Pass.run p)).filterMap Entry.fault? =
      p.faults o.validateSwitches := by
    rw [Report.entries, List.filterMap_append, faults]
    cases o.validateSwitches <;> simp [hswitch]
  rw [herrors, Report.errors_of_eq_keep, ← hfaults, List.map_filterMap]

/-- No names are offered for the faults of switches. -/
lemma report_of_mem_switchFaults {p : Program} {f : Fault} (hf : f ∈ p.switchFaults.getD [])
    (o : Options) : f.report o = { cause := f.cause, line := f.line } := by
  have hcause := ofSwitch_of_mem hf
  have hmissing : f.cause.missing? = none := by
    cases hc : f.cause <;> simp_all [Cause.OfSwitch, Cause.missing?]
  simp [Fault.report, hmissing]

end Program

/-- An error without the names offered in it. -/
def Diagnostic.withoutSuggestions (d : Diagnostic) : Diagnostic := { d with suggestions := [] }

/-- A body with two names that are not declared, and a jump outside of any switch. -/
def misspeltSteps : List Operation :=
  [.declareClass "Cat" ⟨1⟩ {}, .intern "m", .intern "Cot", .intern "Dog",
    .addExpr (.ident (.free ⟨9⟩) ⟨3⟩), .addExpr (.gotoDefault ⟨4⟩),
    .addExpr (.ident (.free ⟨10⟩) ⟨5⟩), .addStmt (.expr ⟨0⟩ ⟨3⟩), .addStmt (.expr ⟨1⟩ ⟨4⟩),
    .addStmt (.expr ⟨2⟩ ⟨5⟩), .addStmt (.block ⟨[⟨0⟩, ⟨1⟩, ⟨2⟩], ⟨2⟩⟩),
    .declareMember ⟨7⟩ ⟨⟨8⟩, ⟨2⟩, .method ⟨⟨.pub, some ⟨3⟩⟩, none, .normal, false, []⟩⟩]

def misspelt : Program := (Program.new.build? misspeltSteps).getD .new

end NameBinding
