import Mathlib
import NameBinding.Resolve

/-!
The errors of a report are the faults of its entries, in order. A limit keeps the first of them, so
that there is no error exactly if there is no fault.
-/

namespace NameBinding

/-- The part of a list of errors that the limit leaves. -/
def Options.keep {α : Type} (o : Options) (xs : List α) : List α :=
  if o.maxErrors = 0 then xs else xs.take o.maxErrors

lemma Options.map_keep {α β : Type} (o : Options) (f : α → β) (xs : List α) :
    (o.keep xs).map f = o.keep (xs.map f) := by
  unfold keep
  split
  · rfl
  · exact List.map_take

lemma Options.keep_eq_nil_iff {α : Type} {o : Options} {xs : List α} :
    o.keep xs = [] ↔ xs = [] := by
  unfold keep
  split
  · exact Iff.rfl
  · next ho => simp [ho]

namespace Report

variable {p : Program} {o : Options}

/-- The entries that a report is made of. -/
def entries (p : Program) (o : Options) (st : Pass) : List Entry :=
  st.journal.toList ++ if o.validateSwitches then switchEntries p else []

lemma errors_of (st : Pass) : (Report.of p o st).errors =
    ((entries p o st).foldl (entry p o)
      { trace := [.started p.classes.length p.enums.length] }).errors := by
  have hlog : ∀ r : Report, (if 0 < r.dropped then r.log (.droppedErrors r.dropped) else r).errors =
      r.errors := by
    intro r
    split <;> rfl
  exact hlog _

/-- Entries that record no fault add no error. -/
lemma errors_entry_of_none (r : Report) {x : Entry} (hx : x.fault? = none) :
    (r.entry p o x).errors = r.errors := by
  cases x with
  | fault f => simp [Entry.fault?] at hx
  | name e b =>
    cases b with
    | failed f => simp [Entry.fault?] at hx
    | _ => rfl
  | _ => rfl

lemma entry_of_some (r : Report) {x : Entry} {f : Fault} (hx : x.fault? = some f) :
    r.entry p o x = r.add o (f.report o) := by
  cases x with
  | fault g =>
    obtain rfl : g = f := by simpa [Entry.fault?] using hx
    rfl
  | name e b =>
    cases b with
    | failed g =>
      obtain rfl : g = f := by simpa [Entry.fault?] using hx
      rfl
    | _ => simp [Entry.fault?] at hx
  | _ => simp [Entry.fault?] at hx

/-! ### Without a limit -/

lemma errors_foldl_unlimited (ho : o.maxErrors = 0) (xs : List Entry) (r : Report) :
    (xs.foldl (entry p o) r).errors =
      r.errors ++ xs.filterMap fun x => x.fault?.map (Fault.report o) := by
  induction xs generalizing r with
  | nil => simp
  | cons x xs ih =>
    rw [List.foldl_cons, ih]
    cases hx : x.fault? with
    | none => simp [errors_entry_of_none r hx, hx]
    | some f =>
      have hadd : (r.entry p o x).errors = r.errors ++ [f.report o] := by
        simp [entry_of_some r hx, add, Options.limitReached, ho]
      simp [hadd, hx]

theorem errors_of_unlimited (ho : o.maxErrors = 0) (st : Pass) : (Report.of p o st).errors =
    (entries p o st).filterMap fun x => x.fault?.map (Fault.report o) := by
  rw [errors_of, errors_foldl_unlimited ho]
  rfl

/-! ### With a limit -/

/-- One more error is kept if there is room for it. -/
lemma errors_add_of_le (ho : 0 < o.maxErrors) {r : Report} (hr : r.errors.length ≤ o.maxErrors)
    (d : Diagnostic) : (r.add o d).errors = (r.errors ++ [d]).take o.maxErrors := by
  by_cases hfull : o.maxErrors ≤ r.errors.length
  · have hlimit : o.limitReached r.errors.length = true := by
      simp [Options.limitReached, ho.ne', hfull]
    have hadd : (r.add o d).errors = r.errors := by
      rw [add, if_pos hlimit]
      simp only
      split <;> rfl
    rw [hadd, List.take_append_of_le_length hfull, List.take_of_length_le hr]
  · have hlimit : o.limitReached r.errors.length = false := by
      simp [Options.limitReached, hfull]
    have hadd : (r.add o d).errors = r.errors ++ [d] := by simp [add, hlimit]
    have hlen : (r.errors ++ [d]).length ≤ o.maxErrors := by
      rw [List.length_append, List.length_singleton]
      omega
    rw [hadd, List.take_of_length_le hlen]

lemma errors_entry_of_le (ho : 0 < o.maxErrors) {r : Report} (hr : r.errors.length ≤ o.maxErrors)
    (x : Entry) : (r.entry p o x).errors =
      (r.errors ++ (x.fault?.map (Fault.report o)).toList).take o.maxErrors := by
  cases hx : x.fault? with
  | none => simp [errors_entry_of_none r hx, List.take_of_length_le hr]
  | some f => rw [entry_of_some r hx, errors_add_of_le ho hr]; rfl

lemma take_append_take {α : Type} (k : Nat) (xs ys : List α) :
    (xs.take k ++ ys).take k = (xs ++ ys).take k := by
  simp only [List.take_append, List.take_take, List.length_take, Nat.min_self]
  congr 2
  omega

/-- Under a limit the errors are the first faults of the entries. -/
lemma errors_foldl_of_le (ho : 0 < o.maxErrors) (xs : List Entry) {r : Report}
    (hr : r.errors.length ≤ o.maxErrors) : (xs.foldl (entry p o) r).errors =
      (r.errors ++ xs.filterMap fun x => x.fault?.map (Fault.report o)).take o.maxErrors := by
  induction xs generalizing r with
  | nil => simp [List.take_of_length_le hr]
  | cons x xs ih =>
    have hstep := errors_entry_of_le (p := p) ho hr x
    have hle : (r.entry p o x).errors.length ≤ o.maxErrors := by
      rw [hstep, List.length_take]
      exact Nat.min_le_left ..
    rw [List.foldl_cons, ih hle, hstep, take_append_take, List.append_assoc]
    cases hx : x.fault? <;> simp [hx]

theorem errors_of_eq_keep (st : Pass) : (Report.of p o st).errors =
    o.keep ((entries p o st).filterMap fun x => x.fault?.map (Fault.report o)) := by
  by_cases ho : o.maxErrors = 0
  · rw [errors_of_unlimited ho, Options.keep, if_pos ho]
  · rw [errors_of, errors_foldl_of_le (Nat.pos_of_ne_zero ho) _ (Nat.zero_le _), Options.keep,
      if_neg ho]
    rfl

theorem errors_of_eq_nil_iff (st : Pass) :
    (Report.of p o st).errors = [] ↔ ∀ x ∈ entries p o st, x.fault? = none := by
  rw [errors_of_eq_keep, Options.keep_eq_nil_iff, List.filterMap_eq_nil_iff]
  simp only [Option.map_eq_none_iff]

end Report

/-- The causes that a switch can give. -/
def Cause.OfSwitch : Cause → Prop
  | .jumpOutsideCase | .jumpWithoutDefault | .fallFromLastCase => True
  | _ => False

lemma Program.ofSwitch_of_mem {p : Program} {f : Fault} (hf : f ∈ p.switchFaults.getD []) :
    f.cause.OfSwitch := by
  unfold switchFaults at hf
  cases hw : p.walk with
  | none => simp [hw] at hf
  | some places =>
    simp only [hw, Option.map_some, Option.getD_some] at hf
    obtain ⟨place, -, hplace⟩ := List.mem_filterMap.mp hf
    unfold switchFault? at hplace
    split at hplace
    · next e _ =>
      obtain ⟨c, hc, rfl⟩ := Option.map_eq_some_iff.mp hplace
      unfold Clause.jumpCause? at hc
      split at hc <;> simp at hc <;> subst hc <;> trivial
    · split at hplace
      · obtain rfl := Option.some.inj hplace
        trivial
      · simp at hplace
    · simp at hplace

end NameBinding
