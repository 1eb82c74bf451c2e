import NameBinding.Proofs.History
import NameBinding.Proofs.Reports

/-!
What a successful resolution gives. The journal has no fault, every name is bound, and the bindings,
base classes and scopes of the result are those that the pass has found.
-/

namespace NameBinding

variable {p : Program} {o : Options} {r : BoundProgram}

namespace Pass

lemma journal_run (p : Program) : (run p).journal.toList = (finish p).journal.toList ++
    [.bodiesDone (finish p).bindings.references.size (finish p).scopes.size] := by
  rw [run_eq]
  exact Array.toList_push

/-- No error is reported exactly if neither the pass nor the switches give a fault. -/
lemma errors_eq_nil_iff (p : Program) (o : Options) : (p.bindings o).2 = [] ↔
    (∀ x ∈ (finish p).journal.toList, x.fault? = none) ∧
      (o.validateSwitches = true → p.switchFaults.getD [] = []) := by
  have herrors : (p.bindings o).2 = (Report.of p o (run p)).errors := rfl
  rw [herrors, Report.errors_of_eq_nil_iff, Report.entries, journal_run]
  have hswitch : (∀ y ∈ (if o.validateSwitches then Report.switchEntries p else []),
      y.fault? = none) ↔ (o.validateSwitches = true → p.switchFaults.getD [] = []) := by
    cases o.validateSwitches with
    | false => simp
    | true =>
      simp only [if_true, Report.switchEntries, List.forall_mem_cons, List.forall_mem_map,
        Entry.fault?, reduceCtorEq, imp_false, true_and, forall_const]
      exact List.eq_nil_iff_forall_not_mem.symm
  have hdone : ∀ a b, (Entry.bodiesDone a b).fault? = none := fun _ _ => rfl
  simp only [List.forall_mem_append, List.forall_mem_singleton, hdone, and_true, hswitch]

end Pass

namespace Program

/-- The bindings that the pass has found. -/
lemma bindings_fst (p : Program) (o : Options) : (p.bindings o).1 =
    { (Pass.finish p).bindings with scopes := some (Pass.finish p).scopes } := by
  simp only [bindings, Pass.run_eq]
  rfl

lemma resolve_eq_ok_iff : p.resolve o = .ok r ↔ (p.bindings o).2 = [] ∧
    p.unbound (p.bindings o).1 = [] ∧ r = ⟨p.bind (p.bindings o).1, (p.bindings o).1.methodScopes,
      (p.bindings o).1.blockScopes, (p.bindings o).1.clauseScopes⟩ := by
  rcases h : p.bindings o with ⟨b, errors⟩
  cases errors with
  | cons e es => simp [resolve, h]
  | nil =>
    cases hu : p.unbound b with
    | nil => simp [resolve, h, applyBindings, hu, eq_comm]
    | cons e es => simp [resolve, h, applyBindings, hu]

lemma unboundBase?_eq_none_iff {b : Bindings} {s : SymbolId} : p.unboundBase? b s = none ↔
    ∀ base, (p.symbol? s).bind (·.baseClass?) = some base → base.reference.isBound = false →
      b.baseClasses.contains s = true := by
  cases hbase : (p.symbol? s).bind (·.baseClass?) with
  | none => simp [unboundBase?, ← Option.bind_assoc, hbase]
  | some base => simp [unboundBase?, ← Option.bind_assoc, hbase]

/-- Bindings leave nothing unbound if they bind the base classes and the names that are not bound
already. -/
lemma unbound_eq_nil_iff {b : Bindings} : p.unbound b = [] ↔
    (∀ s ∈ p.classes, ∀ base, (p.symbol? s).bind (·.baseClass?) = some base →
      base.reference.isBound = false → b.baseClasses.contains s = true) ∧
    ∀ e ref, p.reference? e = some ref → ref.isBound = false → b.references.contains e = true := by
  rw [unbound, List.append_eq_nil_iff, List.filterMap_eq_nil_iff, List.filterMap_eq_nil_iff]
  refine and_congr (forall₂_congr fun s _ => unboundBase?_eq_none_iff)
    ⟨fun h e ref he => ?_, fun h e _ => ?_⟩
  · obtain ⟨x, hx, href⟩ := Option.bind_eq_some_iff.mp he
    have hlt : e.index < p.exprs.size := (Array.getElem?_eq_some_iff.mp hx).1
    have hnone := h e (List.mem_map.mpr ⟨e.index, List.mem_range.mpr hlt, rfl⟩)
    simpa [unboundExpr?, hx, href] using hnone
  · cases hx : p.expr? e with
    | none => simp [unboundExpr?, hx]
    | some x =>
      cases href : x.reference? with
      | none => simp [unboundExpr?, hx, href]
      | some ref => simpa [unboundExpr?, hx, href] using h e ref (by simp [reference?, hx, href])

/-- Where only free bases are bound, a class has the base that the bindings give to it. -/
lemma base?_bind {b : Bindings} (hb : ∀ s t, b.baseClasses.get? s = some t → p.NamesBase s t)
    (s : SymbolId) :
    (((p.bind b).symbol? s).bind (·.baseClass?)).bind (·.reference.target?) = p.base? b s := by
  simp only [base?, symbol?, bind, Array.getElem?_mapIdx]
  cases hget : b.baseClasses.get? s with
  | none => cases p.symbols[s.index]? <;> rfl
  | some t =>
    obtain ⟨base, hbase, hfree, -⟩ := hb s t hget
    obtain ⟨sym, hsym, hclass⟩ := Option.bind_eq_some_iff.mp hbase
    have hsym' : p.symbols[s.index]? = some sym := hsym
    obtain ⟨n, l, k⟩ := sym
    cases k with
    | classType c =>
      have hc : c.baseClass = some base := hclass
      obtain ⟨reference, line⟩ := base
      cases reference with
      | free n => simp [hsym', Symbol.mapClass, Symbol.baseClass?, Symbol.class?,
          ClassInfo.bindBase, hc, Reference.bind, Reference.target?]
      | bound n t => simp [Reference.isBound, Reference.target?] at hfree
    | _ => simp [Symbol.baseClass?, Symbol.class?] at hclass

end Program

/-! ### The tables of the result -/

section Success

variable (h : p.resolve o = .ok r)
include h

lemma no_fault_of_resolve : ∀ x ∈ (Pass.finish p).journal.toList, x.fault? = none :=
  ((Pass.errors_eq_nil_iff p o).mp (Program.resolve_eq_ok_iff.mp h).1).1

lemma program_of_resolve : r.program = p.bind (p.bindings o).1 := by
  obtain ⟨-, -, rfl⟩ := Program.resolve_eq_ok_iff.mp h
  rfl

lemma scopes_of_resolve : r.program.scopes = (Pass.finish p).scopes := by
  rw [program_of_resolve h, Program.bindings_fst]
  rfl

/-- The names of the result are bound as the journal has it last. -/
lemma binding?_of_resolve (hp : p.Listed) (e : ExprId) :
    r.binding? e = p.boundBy (Pass.finish p).journal.toList e := by
  have hget := Pass.recorded_finish hp e
  unfold BoundProgram.binding? Program.boundBy
  rw [← hget, program_of_resolve h, Program.bindings_fst]
  simp only [Program.reference?, Program.expr?, Program.bind, Array.getElem?_mapIdx]
  cases p.exprs[e.index]? with
  | none => rfl
  | some x =>
    cases (Pass.finish p).bindings.references.get? e with
    | none => cases x with
      | ident r l => cases r <;> rfl
      | select o r l => cases r <;> rfl
      | _ => rfl
    | some t => cases x with
      | ident r l => cases r <;> rfl
      | select o r l => cases r <;> rfl
      | _ => rfl

/-- Every name of the result is bound. -/
lemma bound_of_resolve (hp : p.Listed) {e : ExprId} {ref : Reference}
    (he : p.reference? e = some ref) : (r.binding? e).isSome := by
  obtain ⟨-, hunbound, -⟩ := Program.resolve_eq_ok_iff.mp h
  have hbound := (Program.unbound_eq_nil_iff.mp hunbound).2 e ref he
  rw [binding?_of_resolve h hp, Program.boundBy, he, Option.bind_some, ← Pass.recorded_finish hp e]
  cases htarget : ref.target? with
  | some t => rfl
  | none =>
    have hcontains := hbound (by simp [Reference.isBound, htarget])
    rw [Program.bindings_fst] at hcontains
    exact hcontains

/-- The symbols of the result are those of the program, with the bases of classes bound. -/
lemma symbol?_of_resolve (hp : p.Listed) (v : SymbolId) : r.program.symbol? v =
    (p.symbol? v).map fun sym => (((Pass.start p).bindings.baseClasses.get? v).map fun t =>
      sym.mapClass (·.bindBase t)).getD sym := by
  rw [program_of_resolve h, Program.bindings_fst, ← (Pass.steps_finish hp).baseClasses]
  simp only [Program.symbol?, Program.bind, Array.getElem?_mapIdx]

/-- What does not depend on the base of a class is as in the program. -/
lemma bind_symbol?_of_resolve (hp : p.Listed) {α : Type} (f : Symbol → Option α)
    (hf : ∀ sym t, f (sym.mapClass (·.bindBase t)) = f sym) (v : SymbolId) :
    (r.program.symbol? v).bind f = (p.symbol? v).bind f := by
  rw [symbol?_of_resolve h hp]
  cases p.symbol? v with
  | none => rfl
  | some sym =>
    cases (Pass.start p).bindings.baseClasses.get? v with
    | none => rfl
    | some t => exact hf sym t

lemma scope?_of_resolve (hp : p.Listed) (v : SymbolId) :
    (r.program.symbol? v).bind (·.scope?) = (p.symbol? v).bind (·.scope?) := by
  refine bind_symbol?_of_resolve h hp _ (fun sym t => ?_) v
  obtain ⟨n, l, k⟩ := sym
  cases k <;> rfl

/-- The base classes of the result are those that members were looked up along. -/
lemma baseClass?_of_resolve (s : SymbolId) :
    r.baseClass? s = p.base? (Pass.start p).bindings s := by
  have hbases : (p.bindings o).1.baseClasses = (Pass.start p).bindings.baseClasses := by
    rw [Program.bindings_fst]
    exact Pass.baseClasses_finish p
  have hnamed : ∀ v t, (p.bindings o).1.baseClasses.get? v = some t → p.NamesBase v t := by
    rw [hbases]
    exact (Pass.onlyBases_start p).named
  rw [BoundProgram.baseClass?, program_of_resolve h, Program.base?_bind hnamed, Program.base?,
    hbases]
  rfl

end Success

end NameBinding
