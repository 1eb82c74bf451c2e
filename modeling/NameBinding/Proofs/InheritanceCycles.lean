import NameBinding.Proofs.ReportedErrors
import NameBinding.Proofs.Success

/-!
Classes that inherit from themselves. Going up from base to base, a class comes back to itself
within as many steps as there are symbols, or never. The errors for such classes are reported once
all bases are bound, one for each listed class on a cycle and none for a class that only leads to
one.
-/

namespace NameBinding

/-! ### The way up -/

section Above

variable {base : SymbolId → Option SymbolId} {s t goal : SymbolId}

/-- The type that stands `n` steps above `s`. -/
def above (base : SymbolId → Option SymbolId) : Nat → SymbolId → Option SymbolId
  | 0, s => some s
  | n + 1, s => (base s).bind (above base n)

lemma above_add (m n : Nat) (s : SymbolId) :
    above base (m + n) s = (above base m s).bind (above base n) := by
  induction m generalizing s with
  | zero => rw [Nat.zero_add, above, Option.bind_some]
  | succ m ih =>
    have hsum : m + 1 + n = m + n + 1 := by omega
    rw [hsum, above, above, Option.bind_assoc]
    congr 1
    funext r
    exact ih r

lemma above_one (s : SymbolId) : above base 1 s = base s := by
  cases h : base s <;> simp [above, h]

lemma transGen_iff_above :
    Relation.TransGen (fun s t => base s = some t) s t ↔ ∃ n, above base (n + 1) s = some t := by
  constructor
  · intro h
    induction h with
    | single hstep => exact ⟨0, (above_one s).trans hstep⟩
    | tail _ hstep ih =>
      obtain ⟨n, hn⟩ := ih
      exact ⟨n + 1, by rw [above_add, hn, Option.bind_some, above_one, hstep]⟩
  · rintro ⟨n, hn⟩
    induction n generalizing s with
    | zero => exact .single ((above_one s).symm.trans hn)
    | succ n ih =>
      obtain ⟨r, hr, hrest⟩ := Option.bind_eq_some_iff.mp hn
      exact .head hr (ih hrest)

lemma arrives_iff {n : Nat} :
    arrives base goal n s = true ↔ ∃ k < n, above base (k + 1) s = some goal := by
  induction n generalizing s with
  | zero => simp [arrives]
  | succ n ih =>
    rw [arrives]
    cases hs : base s with
    | none => simp [above, hs]
    | some t =>
      have hup : ∀ k, above base (k + 1) s = above base k t := fun k => by
        rw [above, hs, Option.bind_some]
      simp only [Bool.or_eq_true, decide_eq_true_eq, ih, hup]
      constructor
      · rintro (rfl | ⟨k, hk, hgoal⟩)
        · exact ⟨0, by omega, rfl⟩
        · exact ⟨k + 1, by omega, hgoal⟩
      · rintro ⟨k, hk, hgoal⟩
        cases k with
        | zero => exact .inl (Option.some.inj hgoal)
        | succ k => exact .inr ⟨k, by omega, hgoal⟩

/-- From each type on the way back the rest of the way leads back too. -/
lemma exists_above_of_cycle {k i : Nat} (hk : above base (k + 1) s = some s) (hi : i ≤ k) :
    ∃ t, above base i s = some t ∧ above base (k - i + 1) t = some s := by
  have hsum : k + 1 = i + (k - i + 1) := by omega
  rw [hsum, above_add] at hk
  exact Option.bind_eq_some_iff.mp hk

/-- On the shortest way back no type occurs twice. -/
lemma injOn_above_of_first {k : Nat} (hk : above base (k + 1) s = some s)
    (hfirst : ∀ m < k, above base (m + 1) s ≠ some s) :
    Set.InjOn (fun i => above base i s) (Set.Iic k) := by
  -- if a type occurred twice, the part in between could be left out
  have hdistinct : ∀ i j, i < j → j ≤ k → above base i s ≠ above base j s := by
    intro i j hij hjk heq
    obtain ⟨t, ht, hrest⟩ := exists_above_of_cycle hk hjk
    have hshort : above base (i + (k - j) + 1) s = some s := by
      rw [Nat.add_assoc, above_add, heq, ht, Option.bind_some, hrest]
    exact hfirst (i + (k - j)) (by omega) hshort
  intro i hi j hj heq
  rcases lt_trichotomy i j with hij | hij | hij
  · exact absurd heq (hdistinct i j hij hj)
  · exact hij
  · exact absurd heq.symm (hdistinct j i hij hi)

/-- The shortest way back has no more steps than there are symbols, where only these have bases. -/
lemma exists_lt_of_cycle {size : Nat} (hsource : ∀ s t, base s = some t → s.index < size) {n : Nat}
    (h : above base (n + 1) s = some s) : ∃ k < size, above base (k + 1) s = some s := by
  classical
  have hback : ∃ k, above base (k + 1) s = some s := ⟨n, h⟩
  set k := Nat.find hback
  have hk : above base (k + 1) s = some s := Nat.find_spec hback
  have hinj := injOn_above_of_first hk fun m => Nat.find_min hback
  have hcount : (Finset.range (k + 1)).card ≤ (Finset.range size).card := by
    refine Finset.card_le_card_of_injOn (fun i => ((above base i s).getD s).index) ?_ ?_
    · intro i hi
      obtain ⟨t, ht, hrest⟩ := exists_above_of_cycle hk (Finset.mem_range_succ_iff.mp hi)
      obtain ⟨u, hu, -⟩ := Option.bind_eq_some_iff.mp hrest
      simpa [ht] using hsource t u hu
    · intro i hi j hj heq
      have hik : i ≤ k := Finset.mem_range_succ_iff.mp hi
      have hjk : j ≤ k := Finset.mem_range_succ_iff.mp hj
      obtain ⟨t, ht, -⟩ := exists_above_of_cycle hk hik
      obtain ⟨u, hu, -⟩ := exists_above_of_cycle hk hjk
      have hsame : t = u := SymbolId.index_injective (by simpa [ht, hu] using heq)
      exact hinj hik hjk (by simp only [ht, hu, hsame])
  rw [Finset.card_range, Finset.card_range] at hcount
  exact ⟨k, by omega, hk⟩

/-- To look as many steps up as there are symbols is enough to see every cycle. -/
lemma arrives_self_iff {size : Nat} (hsource : ∀ s t, base s = some t → s.index < size) :
    arrives base s size s = true ↔ Relation.TransGen (fun s t => base s = some t) s s := by
  rw [arrives_iff, transGen_iff_above]
  constructor
  · rintro ⟨k, -, hk⟩
    exact ⟨k, hk⟩
  · rintro ⟨n, hn⟩
    exact exists_lt_of_cycle hsource hn

end Above

/-! ### Entries that report no cycle -/

/-- The entry does not say that a class inherits from itself. -/
def Entry.NoCycle (x : Entry) : Prop :=
  ∀ f, x.fault? = some f → ∀ n, f.cause ≠ .cyclicInheritance n

namespace Pass

variable {p : Program} {st st' st'' : Pass}

/-- The journal goes on with entries that report no cycle. -/
def AddsNoCycle (st st' : Pass) : Prop :=
  ∃ new, st'.journal.toList = st.journal.toList ++ new ∧ ∀ x ∈ new, x.NoCycle

lemma AddsNoCycle.of_journal (h : st'.journal = st.journal) : AddsNoCycle st st' :=
  ⟨[], by rw [h, List.append_nil], by simp⟩

lemma AddsNoCycle.of_push {x : Entry} (h : st'.journal = st.journal.push x) (hx : x.NoCycle) :
    AddsNoCycle st st' :=
  ⟨[x], by rw [h, Array.toList_push], by simpa using hx⟩

lemma AddsNoCycle.trans (h : AddsNoCycle st st') (h' : AddsNoCycle st' st'') :
    AddsNoCycle st st'' := by
  obtain ⟨new, hnew, hall⟩ := h
  obtain ⟨new', hnew', hall'⟩ := h'
  refine ⟨new ++ new', by rw [hnew', hnew, List.append_assoc], fun x hx => ?_⟩
  exact (List.mem_append.mp hx).elim (hall x) (hall' x)

lemma addsNoCycle_bindBase (st : Pass) (s : SymbolId) : AddsNoCycle st (st.bindBase p s) := by
  unfold bindBase
  split
  · exact .of_journal rfl
  · split
    · exact .of_journal rfl
    · simp only
      split
      · split
        · exact .of_push rfl (by simp [Entry.NoCycle, Entry.fault?])
        · exact .of_push rfl (by simp [Entry.NoCycle, Entry.fault?])
      · exact .of_push rfl (by simp [Entry.NoCycle, Entry.fault?])

lemma addsNoCycle_foldl_bindBase (xs : List SymbolId) (st : Pass) :
    AddsNoCycle st (xs.foldl (bindBase p) st) := by
  induction xs generalizing st with
  | nil => exact .of_journal rfl
  | cons s xs ih => exact (addsNoCycle_bindBase st s).trans (ih _)

lemma noCycle_lexical (st : Pass) (scope : ScopeId) (r : Reference) (line : Line) (e : ExprId) :
    (Entry.name e (st.lexical p scope r line)).NoCycle := by
  unfold lexical
  split
  · simp [Entry.NoCycle, Entry.fault?]
  · split <;> simp [Entry.NoCycle, Entry.fault?]

lemma noCycle_selected (st : Pass) (object : ExprId) (r : Reference) (line : Line) (e : ExprId) :
    (Entry.name e (st.selected p object r line)).NoCycle := by
  unfold selected
  split
  · simp [Entry.NoCycle, Entry.fault?]
  · split
    · simp [Entry.NoCycle, Entry.fault?]
    · simp [Entry.NoCycle, Entry.fault?]
    · split <;> simp [Entry.NoCycle, Entry.fault?]

lemma addsNoCycle_run (c : Script) (scope : ScopeId) (st : Pass) :
    AddsNoCycle st (c.run p scope st) := by
  induction c generalizing scope st with
  | skip => exact .of_journal rfl
  | seq a b iha ihb => exact (iha scope st).trans (ihb scope _)
  | meet e => exact .of_push rfl (by simp [Entry.NoCycle, Entry.fault?])
  | bind e =>
    obtain ⟨r, l, -, h⟩ | ⟨o, r, l, -, h⟩ | ⟨-, h⟩ := bindOwn_cases p scope st e
    · exact .of_push (by rw [Script.run, h, journal_settle]) (noCycle_lexical st scope r l e)
    · exact .of_push (by rw [Script.run, h, journal_settle]) (noCycle_selected st o r l e)
    · exact .of_journal (by rw [Script.run, h])
  | enter v =>
    obtain ⟨-, h⟩ | ⟨sym, -, ⟨t, -, h⟩ | ⟨w, -, h⟩⟩ := declare_cases p scope st v
    · exact .of_journal (by rw [Script.run, h])
    · exact .of_journal (by rw [Script.run, h])
    · exact .of_push (by rw [Script.run, h]; rfl) (by simp [Entry.NoCycle, Entry.fault?])
  | within key body ih =>
    have hopen : AddsNoCycle st (st.openFor scope key) := .of_journal (journal_openFor st scope key)
    exact (hopen.trans (ih _ _)).trans (.of_journal (journal_closeFor _ _ key))

lemma addsNoCycle_runAll (scripts : List (ScopeId × Script)) (st : Pass) :
    AddsNoCycle st (Script.runAll p scripts st) := by
  induction scripts generalizing st with
  | nil => exact .of_journal rfl
  | cons x xs ih => exact (addsNoCycle_run x.2 x.1 st).trans (ih _)

end Pass

/-! ### The errors for cycles -/

namespace Program

variable {p : Program} {o : Options}

/-- A class comes back to itself from base to base. -/
def OnCycle (p : Program) (b : Bindings) (c : SymbolId) : Prop :=
  Relation.TransGen (fun s t => p.base? b s = some t) c c

open Classical in
/-- An error for each listed class on a cycle. -/
noncomputable def cycleErrors (p : Program) (b : Bindings) : List Diagnostic :=
  (p.classes.filter fun c => p.OnCycle b c).map fun c =>
    { cause := .cyclicInheritance (p.symbolText c), line := p.symbolLine c }

/-- The errors that the first part of the pass gives. -/
def baseErrors (p : Program) (o : Options) : List Diagnostic :=
  ((Pass.bases p { scopes := p.scopes }).journal.toList.filterMap Entry.fault?).map
    (Fault.report o)

/-- Only symbols of the program have bases. -/
lemma lt_of_base? {s t : SymbolId} (h : p.base? (Pass.start p).bindings s = some t) :
    s.index < p.symbols.size := by
  have hbase : ∃ b, (p.symbol? s).bind (·.baseClass?) = some b := by
    rcases Option.or_eq_some_iff.mp h with h | ⟨-, h⟩
    · obtain ⟨b, hb, -⟩ := (Pass.onlyBases_start p).named s t h
      exact ⟨b, hb⟩
    · obtain ⟨b, hb, -⟩ := Option.bind_eq_some_iff.mp h
      exact ⟨b, hb⟩
  obtain ⟨b, hb⟩ := hbase
  obtain ⟨x, hx, -⟩ := Option.bind_eq_some_iff.mp hb
  exact (Array.getElem?_eq_some_iff.mp hx).1

lemma isOwnAncestor_start_iff (c : SymbolId) : p.isOwnAncestor (Pass.start p).bindings c = true ↔
    p.OnCycle (Pass.start p).bindings c :=
  arrives_self_iff fun _ _ => lt_of_base?

/-- The bases that the pass has bound in the end are those that it started on the bodies with. -/
lemma base?_bindings : p.base? (p.bindings o).1 = p.base? (Pass.start p).bindings := by
  funext s
  simp only [base?, bindings_fst, Pass.baseClasses_finish]

lemma onCycle_bindings (c : SymbolId) :
    p.OnCycle (p.bindings o).1 c ↔ p.OnCycle (Pass.start p).bindings c := by
  unfold OnCycle
  rw [base?_bindings]

lemma cycleErrors_bindings : p.cycleErrors (p.bindings o).1 =
    ((p.classes.filter (p.isOwnAncestor (Pass.start p).bindings)).map fun s =>
      (⟨.cyclicInheritance (p.symbolText s), p.symbolLine s, []⟩ : Fault)).map (Fault.report o) := by
  classical
  have hsame : ∀ c ∈ p.classes, decide (p.OnCycle (p.bindings o).1 c) =
      p.isOwnAncestor (Pass.start p).bindings c := by
    intro c _
    rw [Bool.eq_iff_iff, decide_eq_true_iff, onCycle_bindings, isOwnAncestor_start_iff]
  rw [cycleErrors, List.filter_congr hsame, List.map_map]
  rfl

/-- The errors for cycles stand after those for single bases. -/
lemma exists_baseErrors_eq (p : Program) (o : Options) : ∃ before,
    p.baseErrors o = before ++ p.cycleErrors (p.bindings o).1 ∧
      ∀ d ∈ before, ∀ n, d.cause ≠ .cyclicInheritance n := by
  obtain ⟨new, hnew, hall⟩ :=
    Pass.addsNoCycle_foldl_bindBase (p := p) p.classes { scopes := p.scopes }
  refine ⟨(new.filterMap Entry.fault?).map (Fault.report o), ?_, fun d hd n => ?_⟩
  · have hjournal : (Pass.start p).journal.toList.filterMap Entry.fault? =
        new.filterMap Entry.fault? ++
          (p.classes.filter (p.isOwnAncestor (Pass.start p).bindings)).map fun s =>
            ⟨.cyclicInheritance (p.symbolText s), p.symbolLine s, []⟩ := by
      rw [Pass.journal_start, hnew]
      simp [Entry.fault?, List.filterMap_map, Function.comp_def]
    rw [cycleErrors_bindings, ← List.map_append, ← hjournal]
    rfl
  · obtain ⟨f, hf, rfl⟩ := List.mem_map.mp hd
    obtain ⟨x, hx, hxf⟩ := List.mem_filterMap.mp hf
    exact hall x hx f hxf n

/-- Past the bases no error is about a cycle. -/
lemma exists_errors_eq (p : Program) (ho : o.maxErrors = 0) : ∃ after,
    (p.bindings o).2 = p.baseErrors o ++ after ∧
      ∀ d ∈ after, ∀ n, d.cause ≠ .cyclicInheritance n := by
  obtain ⟨new, hnew, hall⟩ := Pass.addsNoCycle_runAll (p := p) p.scripts (Pass.start p)
  set switches := if o.validateSwitches then p.switchFaults.getD [] else []
  refine ⟨(new.filterMap Entry.fault? ++ switches).map (Fault.report o), ?_, fun d hd n => ?_⟩
  · have hfaults : p.faults o.validateSwitches =
        (Pass.start p).journal.toList.filterMap Entry.fault? ++
          (new.filterMap Entry.fault? ++ switches) := by
      rw [faults, Pass.journal_run, Pass.finish, hnew]
      simp [Entry.fault?, switches]
    rw [errors_eq_keep, Options.keep, if_pos ho, hfaults, List.map_append]
    rfl
  · obtain ⟨f, hf, rfl⟩ := List.mem_map.mp hd
    rcases List.mem_append.mp hf with hf | hf
    · obtain ⟨x, hx, hxf⟩ := List.mem_filterMap.mp hf
      exact hall x hx f hxf n
    · have hswitch : f ∈ p.switchFaults.getD [] := by
        cases hv : o.validateSwitches <;> simp_all [switches]
      have hcause := ofSwitch_of_mem hswitch
      intro hcycle
      rw [show f.cause = .cyclicInheritance n from hcycle] at hcause
      exact hcause

end Program

/-- **Cycles of inheritance are reported exactly.** Without a limit on errors, the first part of the
pass ends with one error for each listed class that comes back to itself from base to base, in the
order of the list, and no other error is about a cycle. So no listed class of a resolved program is
its own ancestor. -/
theorem cycles_reported_exactly (p : Program) :
    (∀ o : Options, o.maxErrors = 0 → ∃ before after,
      p.baseErrors o = before ++ p.cycleErrors (p.bindings o).1 ∧
      (p.bindings o).2 = p.baseErrors o ++ after ∧
      ∀ d ∈ before ++ after, ∀ n, d.cause ≠ .cyclicInheritance n) ∧
    ∀ o r, p.resolve o = .ok r → ∀ c ∈ p.classes,
      ¬ Relation.TransGen (fun s t => r.baseClass? s = some t) c c := by
  refine ⟨fun o ho => ?_, fun o r hr c hc hcycle => ?_⟩
  · obtain ⟨before, hbases, hbefore⟩ := p.exists_baseErrors_eq o
    obtain ⟨after, herrors, hafter⟩ := p.exists_errors_eq ho
    exact ⟨before, after, hbases, herrors, fun d hd =>
      (List.mem_append.mp hd).elim (hbefore d) (hafter d)⟩
  · obtain ⟨new, hnew, -⟩ := Pass.addsNoCycle_runAll (p := p) p.scripts (Pass.start p)
    have hquiet : ∀ x ∈ (Pass.start p).journal.toList, x.fault? = none := fun x hx =>
      no_fault_of_resolve hr x (by rw [Pass.finish, hnew]; exact List.mem_append_left _ hx)
    have hnot := Pass.isOwnAncestor_start hquiet hc
    simp only [baseClass?_of_resolve hr] at hcycle
    have hown := (Program.isOwnAncestor_start_iff c).mpr hcycle
    simp [hnot] at hown

/-- Each of `A` and `B` is the base of the other, `C` derives from `A`, and `D` from itself. -/
def knottedSteps : List Operation :=
  [.declareClass "A" ⟨1⟩ { baseClass := some "B" }, .declareClass "B" ⟨2⟩ { baseClass := some "A" },
    .declareClass "C" ⟨3⟩ { baseClass := some "A" },
    .declareClass "D" ⟨4⟩ { baseClass := some "D" }]

def knotted : Program := (Program.new.build? knottedSteps).getD .new

/-- A chain of three classes. -/
def chainedSteps : List Operation :=
  [.declareClass "A" ⟨1⟩ { baseClass := some "B" }, .declareClass "B" ⟨2⟩ { baseClass := some "C" },
    .declareClass "C" ⟨3⟩ {}]

def chained : Program := (Program.new.build? chainedSteps).getD .new

theorem knotted_cycles_reported :
    Program.new.build? knottedSteps = some knotted ∧
    knotted.cycleErrors (knotted.bindings { maxErrors := 0 }).1 =
      [⟨.cyclicInheritance "A", ⟨1⟩, []⟩, ⟨.cyclicInheritance "B", ⟨2⟩, []⟩,
        ⟨.cyclicInheritance "D", ⟨4⟩, []⟩] ∧
    Program.new.build? chainedSteps = some chained ∧
    ∃ r, chained.resolve {} = .ok r ∧ r.baseClass? ⟨7⟩ = some ⟨8⟩ ∧
      ¬ Relation.TransGen (fun s t => r.baseClass? s = some t) ⟨7⟩ ⟨7⟩ := by
  have hknotted : Program.new.build? knottedSteps = some knotted := by decide
  have hchained : Program.new.build? chainedSteps = some chained := by decide
  have hall : (knotted.bindings { maxErrors := 0 }).2 =
      [⟨.cyclicInheritance "A", ⟨1⟩, []⟩, ⟨.cyclicInheritance "B", ⟨2⟩, []⟩,
        ⟨.cyclicInheritance "D", ⟨4⟩, []⟩] := by decide
  have hresolve : chained.resolve {} = .ok ⟨chained.bind (chained.bindings {}).1, .empty, .empty,
      .empty⟩ := by decide
  obtain ⟨before, after, hbases, herrors, hother⟩ :=
    (cycles_reported_exactly knotted).1 { maxErrors := 0 } rfl
  rw [hbases, hall] at herrors
  have hcyclic : ∀ d ∈ before ++ knotted.cycleErrors (knotted.bindings { maxErrors := 0 }).1 ++
      after, ∃ n, d.cause = .cyclicInheritance n := by
    rw [← herrors]
    simp
  -- all errors are about cycles, so there are no others before or after
  have hbefore : before = [] := List.eq_nil_iff_forall_not_mem.mpr fun d hd => by
    obtain ⟨n, hn⟩ := hcyclic d (by simp [hd])
    exact hother d (by simp [hd]) n hn
  have hafter : after = [] := List.eq_nil_iff_forall_not_mem.mpr fun d hd => by
    obtain ⟨n, hn⟩ := hcyclic d (by simp [hd])
    exact hother d (by simp [hd]) n hn
  rw [hbefore, hafter, List.nil_append, List.append_nil] at herrors
  exact ⟨hknotted, herrors.symm, hchained, _, hresolve, by decide,
    (cycles_reported_exactly chained).2 {} _ hresolve ⟨7⟩ (by decide)⟩

end NameBinding
