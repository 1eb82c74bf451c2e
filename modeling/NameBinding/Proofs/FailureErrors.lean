import NameBinding.Proofs.Coverage
import NameBinding.Proofs.ReportedErrors

/-!
What a failed resolution returns: the program as it was, and at least one error. The errors of the
pass are cut at the limit. The names that a pass without errors leaves unbound are not.
-/

namespace NameBinding

namespace Program

variable {p : Program} {o : Options} {f : Failure}

/-- The names that are bound neither in the program nor by the pass. -/
def unboundNames (p : Program) : List ExprId :=
  p.exprIds.filter fun e =>
    (p.reference? e).isSome && (p.boundBy (Pass.run p).journal.toList e).isNone

/-- Resolution fails for the errors of the pass, or else for what these leave unbound. -/
lemma resolve_eq_error_iff : p.resolve o = .error f ↔
    ((p.bindings o).2 ≠ [] ∧ f = ⟨p, (p.bindings o).2⟩) ∨
    (p.bindings o).2 = [] ∧ p.unbound (p.bindings o).1 ≠ [] ∧
      f = ⟨p, (p.unbound (p.bindings o).1).map .ofBuild⟩ := by
  rcases h : p.bindings o with ⟨b, errors⟩
  cases errors with
  | cons e es =>
    have hfails : p.resolve o = .error ⟨p, e :: es⟩ := by simp [resolve, h]
    rw [hfails, Except.error.injEq, eq_comm]
    simp
  | nil =>
    cases hu : p.unbound b with
    | nil => simp [resolve, h, applyBindings, hu]
    | cons e es =>
      have hfails : p.resolve o = .error ⟨p, (e :: es).map .ofBuild⟩ := by
        simp [resolve, h, applyBindings, hu]
      rw [hfails, Except.error.injEq, eq_comm]
      simp

/-- A name is bound by the pass as the bindings have it. -/
lemma boundBy_run (hp : p.Listed) (e : ExprId) : p.boundBy (Pass.run p).journal.toList e =
    (p.reference? e).bind fun r => r.target?.or ((p.bindings o).1.references.get? e) := by
  have hdone : ∀ a b, (Entry.bodiesDone a b).target? e = none := fun _ _ => rfl
  rw [Pass.journal_run, boundBy_append_of_target? (by simp [hdone]), boundBy, bindings_fst]
  simp only [Pass.recorded_finish hp e]

/-- There is one error for each unbound name. -/
lemma filterMap_unboundExpr? (hp : p.Listed) :
    p.exprIds.filterMap (p.unboundExpr? (p.bindings o).1) =
      p.unboundNames.map fun e => .unbound (Report.usedText p e) (p.exprLine e) := by
  rw [unboundNames, ← List.filterMap_eq_map, List.filterMap_filter]
  refine List.filterMap_congr fun e _ => ?_
  rw [boundBy_run (o := o) hp e]
  cases he : p.expr? e with
  | none => simp [unboundExpr?, reference?, he]
  | some x =>
    cases href : x.reference? with
    | none => simp [unboundExpr?, reference?, he, href]
    | some r =>
      have htext : Report.usedText p e = p.text r.name := by
        simp [Report.usedText, reference?, he, href]
      have hline : p.exprLine e = x.line := by simp [exprLine, he]
      cases ht : r.target? <;> cases hget : (p.bindings o).1.references.get? e <;>
        simp [unboundExpr?, reference?, he, href, htext, hline, Reference.isBound, ht,
          OrderedMap.contains, hget]

/-- A pass without errors leaves no base class unbound, only names. -/
lemma unbound_of_errors_eq_nil (hp : p.Built) (hquiet : (p.bindings o).2 = []) :
    p.unbound (p.bindings o).1 =
      p.unboundNames.map fun e => .unbound (Report.usedText p e) (p.exprLine e) := by
  have hbases : p.classes.filterMap (p.unboundBase? (p.bindings o).1) = [] :=
    List.filterMap_eq_nil_iff.mpr fun s hs =>
      unboundBase?_eq_none_iff.mpr fun b => covered_base hp hquiet hs
  rw [unbound, hbases, List.nil_append, filterMap_unboundExpr? hp.wellFormed.listed]

/-- The errors of the pass keep to the limit. -/
lemma length_errors_le (p : Program) (ho : 0 < o.maxErrors) :
    (p.bindings o).2.length ≤ o.maxErrors := by
  rw [errors_eq_keep, Options.keep, if_neg ho.ne', List.length_take]
  exact Nat.min_le_left ..

end Program

/-- **What a failed resolution returns.** The program is as it was, and there is an error: those of
the pass if it has any, or else one for each name that is left unbound. So the errors keep to the
limit exactly if the pass has errors, or no more names are left unbound than the limit allows. -/
theorem failure_keeps_limit_unless_unbound {p : Program} {o : Options} {f : Failure} (hp : p.Built)
    (ho : 0 < o.maxErrors) (h : p.resolve o = .error f) :
    f.program = p ∧ 1 ≤ f.errors.length ∧
    ((p.bindings o).2 ≠ [] → f.errors = (p.bindings o).2) ∧
    ((p.bindings o).2 = [] → f.errors = p.unboundNames.map fun e =>
      .ofBuild (.unbound (Report.usedText p e) (p.exprLine e))) ∧
    (f.errors.length ≤ o.maxErrors ↔
      (p.bindings o).2 ≠ [] ∨ p.unboundNames.length ≤ o.maxErrors) := by
  rcases Program.resolve_eq_error_iff.mp h with ⟨herrors, rfl⟩ | ⟨hquiet, hunbound, rfl⟩
  · refine ⟨rfl, List.length_pos_iff.mpr herrors, fun _ => rfl, fun hquiet => absurd hquiet herrors,
      iff_of_true (p.length_errors_le ho) (.inl herrors)⟩
  · have heq : (p.unbound (p.bindings o).1).map Diagnostic.ofBuild = p.unboundNames.map fun e =>
        .ofBuild (.unbound (Report.usedText p e) (p.exprLine e)) := by
      rw [Program.unbound_of_errors_eq_nil hp hquiet, List.map_map]
      rfl
    refine ⟨rfl, ?_, fun herrors => absurd hquiet herrors, fun _ => heq, ?_⟩
    · rw [List.length_map]
      exact List.length_pos_iff.mpr hunbound
    · simp only [heq, List.length_map, hquiet, ne_eq, not_true, false_or]

/-- Two names that stand nowhere in the program. -/
def strayNameSteps : List Operation :=
  [.intern "a", .intern "b", .addExpr (.ident (.free ⟨7⟩) ⟨2⟩), .addExpr (.ident (.free ⟨8⟩) ⟨3⟩)]

def strayNames : Program := (Program.new.build? strayNameSteps).getD .new

lemma strayNames_built : strayNames.Built := by
  have hsteps : Program.new.build? strayNameSteps = some strayNames := by decide
  exact Program.Built.new.build? hsteps

theorem failures_within_limit :
    (misspelt.Built ∧ ∃ f, misspelt.resolve { maxErrors := 2 } = .error f ∧
      (misspelt.faults true).length = 3 ∧ f.program = misspelt ∧ f.errors.length ≤ 2) ∧
    strayNames.Built ∧ ∃ f, strayNames.resolve { maxErrors := 2 } = .error f ∧
      f.errors = [.ofBuild (.unbound "a" ⟨2⟩), .ofBuild (.unbound "b" ⟨3⟩)] ∧
      f.program = strayNames ∧ f.errors.length ≤ 2 := by
  have hsteps : Program.new.build? misspeltSteps = some misspelt := by decide
  have hbuilt : misspelt.Built := Program.Built.new.build? hsteps
  have hmisspelt : misspelt.resolve { maxErrors := 2 } =
      .error ⟨misspelt, (misspelt.bindings { maxErrors := 2 }).2⟩ := by decide
  have hstray : strayNames.resolve { maxErrors := 2 } = .error ⟨strayNames,
      [.ofBuild (.unbound "a" ⟨2⟩), .ofBuild (.unbound "b" ⟨3⟩)]⟩ := by decide
  obtain ⟨hprogram, -, -, -, hlimit⟩ :=
    failure_keeps_limit_unless_unbound hbuilt (by decide) hmisspelt
  obtain ⟨hprogram', -, -, -, hlimit'⟩ :=
    failure_keeps_limit_unless_unbound strayNames_built (by decide) hstray
  exact ⟨⟨hbuilt, _, hmisspelt, by decide, hprogram, hlimit.mpr (.inl (by decide))⟩,
    strayNames_built, _, hstray, rfl, hprogram', hlimit'.mpr (.inr (by decide))⟩

/-- A limit of one does not keep the second name from being reported. -/
theorem stray_names_exceed_limit : strayNames.Built ∧
    ∃ f, strayNames.resolve { maxErrors := 1 } = .error f ∧
      f.errors = [.ofBuild (.unbound "a" ⟨2⟩), .ofBuild (.unbound "b" ⟨3⟩)] ∧
      ¬ f.errors.length ≤ 1 :=
  ⟨strayNames_built, ⟨strayNames, [.ofBuild (.unbound "a" ⟨2⟩), .ofBuild (.unbound "b" ⟨3⟩)]⟩,
    by decide, rfl, by decide⟩

end NameBinding
