import NameBinding.Proofs.ProperTrees

/-!
The walk and the pass meet the same expressions. The pass over the bodies is a script, and so the
expressions that it meets at a node are the node itself, if it is an expression, and those that it
meets at the nodes that stand in it; so it is for the walk. The two keep to the same order but in
methods, where the pass looks at the result type before the parameters.
-/

namespace NameBinding

/-! ### Expressions met -/

/-- The expression that an entry meets. -/
def Entry.met? : Entry → Option ExprId
  | .expr e => some e
  | _ => none

/-- The expression that a node is. -/
def Node.met? : Node → Option ExprId
  | .expr e => some e
  | _ => none

/-- The expression whose name a node is. -/
def Node.used? : Node → Option ExprId
  | .reference e _ => some e
  | _ => none

/-- An expression that uses a name itself, else nothing. -/
def Program.uses (p : Program) (e : ExprId) : List ExprId :=
  if (p.reference? e).isSome then [e] else []

namespace Script

variable {p : Program}

/-- The expressions that a script meets, in order. -/
def meets : Script → List ExprId
  | skip | bind _ | enter _ => []
  | seq a b => a.meets ++ b.meets
  | meet e => [e]
  | within _ body => body.meets

@[simp] lemma meets_each {α : Type} (f : α → Script) (xs : List α) :
    (each f xs).meets = xs.flatMap fun x => (f x).meets := by
  induction xs with
  | nil => rfl
  | cons x xs ih => simp [each, meets, ih]

@[simp] lemma meets_exprs (es : List ExprId) :
    (exprs p es).meets = es.flatMap fun e => (expr p e).meets :=
  meets_each _ _

@[simp] lemma meets_nested (f : StmtId → Script) (s : StmtId) :
    (nested p f s).meets = (f s).meets := by
  unfold nested
  split <;> rfl

lemma meets_expr (hp : p.Allocated) (e : ExprId) :
    (expr p e).meets = e :: (p.operands e).flatMap fun c => (expr p c).meets := by
  rw [expr_eq hp]
  simp [meets]

/-- A script writes an entry for each expression that it meets. -/
lemma met_run (c : Script) (scope : ScopeId) (st : Pass) :
    (c.run p scope st).journal.toList.filterMap Entry.met? =
      st.journal.toList.filterMap Entry.met? ++ c.meets := by
  induction c generalizing scope st with
  | skip => simp [run, meets]
  | seq a b iha ihb => rw [run, ihb, iha, meets, List.append_assoc]
  | meet e => simp [run, meets, Pass.note, Entry.met?]
  | bind e =>
    obtain ⟨r, l, -, h⟩ | ⟨o, r, l, -, h⟩ | ⟨-, h⟩ := Pass.bindOwn_cases p scope st e <;>
      simp [run, meets, h, Entry.met?]
  | enter v =>
    obtain ⟨-, h⟩ | ⟨sym, -, ⟨t, ht, h⟩ | ⟨w, -, h⟩⟩ := Pass.declare_cases p scope st v <;>
      simp [run, meets, h, Pass.note, Entry.met?]
  | within key body ih =>
    simp only [run, meets, Pass.journal_closeFor]
    rw [ih, Pass.journal_openFor]

lemma met_runAll (scripts : List (ScopeId × Script)) (st : Pass) :
    (runAll p scripts st).journal.toList.filterMap Entry.met? =
      st.journal.toList.filterMap Entry.met? ++ scripts.flatMap fun x => x.2.meets := by
  induction scripts generalizing st with
  | nil => simp
  | cons x xs ih => rw [runAll_cons, ih, met_run, List.flatMap_cons, List.append_assoc]

lemma lookups_expr_perm (hp : p.Allocated) (e : ExprId) :
    ((expr p e).lookups p).Perm ((expr p e).meets.flatMap p.uses) := by
  induction hk : e.index using Nat.strong_induction_on generalizing e with
  | _ k ih =>
    subst hk
    rw [lookups_expr hp, meets_expr hp, List.flatMap_cons, List.flatMap_assoc]
    have hoperands : ((p.operands e).flatMap fun c => (expr p c).lookups p).Perm
        ((p.operands e).flatMap fun c => (expr p c).meets.flatMap p.uses) :=
      List.Perm.flatMap_left _ fun c hc => ih c.index (operand_lt hp hc) c rfl
    exact (hoperands.append_right _).trans List.perm_append_comm

/-- The names looked up are those of the expressions met. -/
lemma compositional_lookups (hp : p.Allocated) :
    Compositional p fun c => (c.lookups p).Perm (c.meets.flatMap p.uses) where
  skip := .refl _
  seq a b ha hb := by
    simp only [lookups, meets, List.flatMap_append]
    exact ha.append hb
  enter _ _ := .refl _
  root e _ := lookups_expr_perm hp e
  within _ _ h := h

end Script

namespace Pass

variable {p : Program}

lemma met_finish (p : Program) : (finish p).journal.toList.filterMap Entry.met? =
    p.scripts.flatMap fun x => x.2.meets := by
  have hstart : (start p).journal.toList.filterMap Entry.met? = [] := by
    refine List.filterMap_eq_nil_iff.mpr fun x hx => ?_
    have h := (onlyBases_start p).journal x hx
    cases x with
    | expr e => exact h.elim
    | _ => rfl
  unfold finish
  rw [Script.met_runAll, hstart, List.nil_append]

lemma looked_finish_perm (hp : p.Allocated) :
    ((finish p).journal.toList.filterMap Entry.looked?).Perm
      (((finish p).journal.toList.filterMap Entry.met?).flatMap p.uses) := by
  rw [looked_finish, met_finish, List.flatMap_assoc]
  exact List.Perm.flatMap_left _ fun x hx => (Script.compositional_lookups hp).of_mem_scripts hx

end Pass

/-! ### The script of a node -/

/-- The expression that a node of a tree is. -/
def Site.own : Site → List ExprId
  | .expr e => [e]
  | _ => []

namespace Program

open SymbolKind (isValue)

variable {p : Program} {v : SymbolId}

/-- What the pass does at a symbol, by its kind. -/
def scriptOf (p : Program) (v : SymbolId) : SymbolKind → Script
  | .classType c => .classType p v c
  | .enumType t => .enumType p t
  | .method _ => .method p v
  | .constructor _ => .constructor p v
  | .var _ | .field _ | .const _ => .value p v
  | .builtin _ => .skip

/-- The expressions that the pass meets at a node. -/
def metAt (p : Program) : Site → List ExprId
  | .expr e => (Script.expr p e).meets
  | .stmt s => (Script.stmt p s).meets
  | .symbol v => ((p.kind? v).map fun k => (p.scriptOf v k).meets).getD []

lemma metAt_symbol {k : SymbolKind} (h : p.kind? v = some k) :
    p.metAt (.symbol v) = (p.scriptOf v k).meets := by
  rw [metAt, h, Option.map_some, Option.getD_some]

lemma metAt_value (h : p.hasKind isValue v = true) :
    p.metAt (.symbol v) = (Script.value p v).meets := by
  obtain ⟨k, hk, hvalue⟩ := (Option.any_eq_true _ _).mp h
  rw [metAt_symbol hk]
  cases k with
  | var _ | field _ | const _ => rfl
  | _ => simp [isValue] at hvalue

/-- The expressions met at the nodes of a list. -/
def metIn (p : Program) (xs : List (Slot × Site)) : List ExprId := xs.flatMap fun x => p.metAt x.2

@[simp] lemma metIn_append (xs ys : List (Slot × Site)) :
    p.metIn (xs ++ ys) = p.metIn xs ++ p.metIn ys :=
  List.flatMap_append

@[simp] lemma metIn_cons (x : Slot × Site) (xs : List (Slot × Site)) :
    p.metIn (x :: xs) = p.metAt x.2 ++ p.metIn xs :=
  List.flatMap_cons

@[simp] lemma metIn_map {α : Type} (f : α → Slot × Site) (xs : List α) :
    p.metIn (xs.map f) = xs.flatMap fun x => p.metAt (f x).2 :=
  List.flatMap_map ..

@[simp] lemma metIn_nil : p.metIn [] = [] := rfl

lemma meets_case (s : StmtId) (c : Case × Nat) :
    (Script.case p (Script.stmt p) s c).meets = p.metIn (Stmt.caseSlots s c) := by
  simp [Script.case, Script.clauseBody, Script.meets, Stmt.caseSlots, metAt]

/-- The pass meets the expressions of a statement in the order in which they are written. -/
lemma meets_stmtStep {x : Stmt} (hlocal : ∀ v, x.declared? = some v → p.hasKind isValue v = true)
    (s : StmtId) : (Script.stmtStep p (Script.stmt p) s x).meets = p.metIn (x.slots s) := by
  cases x with
  | switch value cases defaultBody line =>
    have hcases : (Script.each (Script.case p (Script.stmt p) s) cases.zipIdx).meets =
        p.metIn (cases.zipIdx.flatMap (Stmt.caseSlots s)) := by
      rw [Script.meets_each, metIn, List.flatMap_assoc]
      exact List.flatMap_congr fun c _ => meets_case s c
    rw [Script.stmtStep, Script.meets, Script.meets, hcases, Stmt.slots]
    cases defaultBody <;> simp [Script.clauseBody, Script.each, Script.meets, metAt]
  | var v line =>
    simp [Script.stmtStep, Script.localVar, Script.meets, Stmt.slots, Stmt.written, Stmt.exprs,
      Stmt.children, Stmt.declared?, metAt_value (hlocal v rfl)]
  | _ => simp [Script.stmtStep, Script.meets, Script.each, Stmt.slots, Stmt.written, Stmt.exprs,
      Stmt.children, Stmt.declared?, metAt]

/-- A class at the top lists its members by kind, and each is met as its kind demands. -/
lemma meets_classType (hp : p.Listed) {c : ClassInfo} (hv : v ∈ p.classes)
    (hc : p.kind? v = some (.classType c)) :
    (Script.classType p v c).meets =
      p.metIn ((p.written (.classType c)).map fun a => (.plain, a)) := by
  have hlists := hp.lists hv (class?_eq_some.mpr hc)
  have hvalues : ((c.consts ++ c.fields).flatMap fun w => (Script.value p w).meets) =
      (c.consts ++ c.fields).flatMap fun w => p.metAt (.symbol w) := by
    refine List.flatMap_congr fun w hw => ?_
    rcases List.mem_append.mp hw with hw | hw
    · obtain ⟨m, hm⟩ := hlists.consts w hw
      exact (metAt_symbol hm).symm
    · obtain ⟨m, hm⟩ := hlists.fields w hw
      exact (metAt_symbol hm).symm
  have hconstructor : (c.constructor.toList.flatMap fun w => (Script.constructor p w).meets) =
      c.constructor.toList.flatMap fun w => p.metAt (.symbol w) := by
    refine List.flatMap_congr fun w hw => ?_
    obtain ⟨m, hm⟩ := hlists.constructor w hw
    exact (metAt_symbol hm).symm
  have hdestructor : (c.destructor.toList.flatMap fun b =>
      (Script.plainBody p v b.statements).meets) =
      ((c.destructor.map Block.statements).getD []).flatMap fun t => p.metAt (.stmt t) := by
    cases c.destructor <;> simp [Script.plainBody, Script.meets, metAt]
  have hmethods : (c.methods.flatMap fun w => (Script.method p w).meets) =
      c.methods.flatMap fun w => p.metAt (.symbol w) := by
    refine List.flatMap_congr fun w hw => ?_
    obtain ⟨m, hm⟩ := hlists.methods w hw
    exact (metAt_symbol hm).symm
  simp only [Script.classType, Script.meets, Script.meets_each, hvalues, hconstructor, hdestructor,
    hmethods, written, List.map_append, List.map_map, metIn_append, metIn_map, List.flatMap_append,
    Function.comp_apply, List.append_assoc]

section Perm

variable (hp : p.WellFormed) (hd : p.DeclaresOnly isValue isValue)
include hp hd

lemma metAt_symbol_perm (hproper : p.Proper (.symbol v)) :
    (p.metAt (.symbol v)).Perm (p.metIn (p.slots (.symbol v))) := by
  cases hv : p.symbol? v with
  | none => simp [metAt, slots, kind?, hv]
  | some x =>
    obtain ⟨n, line, kind⟩ := x
    have hkind : p.kind? v = some kind := by simp [kind?, hv]
    simp only [Proper, hasKind, hkind, Option.any_some] at hproper
    rw [metAt_symbol hkind, slots, hkind, Option.map_some, Option.getD_some]
    cases kind with
    | classType c => exact .of_eq (meets_classType hp.listed (hproper.1 rfl) hkind)
    | enumType t =>
      refine .of_eq ?_
      rw [scriptOf, Script.enumType, Script.meets_each, written, List.map_map, metIn_map]
      exact List.flatMap_congr fun w hw =>
        (metAt_value (hd.member (hproper.2 rfl) hkind hw)).symm
    | method m =>
      have hm : (p.symbol? v).bind (·.method?) = some m := by simp [hv, Symbol.method?]
      have hparameters : (m.parameters.flatMap fun w => (Script.localVar p w).meets) =
          m.parameters.flatMap fun w => p.metAt (.symbol w) := by
        refine List.flatMap_congr fun w hw => ?_
        rw [metAt_value (hd.parameter hkind hw)]
        simp [Script.localVar, Script.meets]
      simp only [scriptOf, Script.method, hm, Script.meets, Script.meets_each, Script.meets_exprs,
        hparameters, written, SymbolKind.symbols, SymbolKind.exprs, SymbolKind.stmts,
        List.map_append, List.map_map, metIn_append, metIn_map, ← List.append_assoc]
      exact List.perm_append_comm.append_right _
    | constructor c =>
      have hc : (p.symbol? v).bind (·.constructor?) = some c := by simp [hv, Symbol.constructor?]
      refine .of_eq ?_
      simp [scriptOf, Script.constructor, hc, Script.plainBody, Script.meets, written,
        SymbolKind.symbols, SymbolKind.exprs, SymbolKind.stmts, metAt]
    | builtin t => simp [scriptOf, Script.meets, written, SymbolKind.symbols, SymbolKind.exprs,
        SymbolKind.stmts]
    | var value | field value | const value =>
      refine .of_eq ?_
      simp [scriptOf, Script.value, valueExprs, typedValue?, hv, Symbol.typedValue?, written,
        SymbolKind.symbols, SymbolKind.exprs, SymbolKind.stmts, metAt]

/-- At a node of a proper tree the pass meets the node itself, if it is an expression, and what it
meets at the nodes that stand in it. -/
lemma metAt_perm {a : Site} (ha : p.Proper a) :
    (p.metAt a).Perm (a.own ++ p.metIn (p.slots a)) := by
  cases a with
  | expr e =>
    rw [metAt, Script.meets_expr hp.allocated, slots, metIn_map]
    rfl
  | stmt s =>
    cases hs : p.stmt? s with
    | none => simp [metAt, Script.stmt_of_none hs, Script.meets, slots, hs, Site.own]
    | some x =>
      rw [metAt, Script.stmt_eq hp.allocated hs, slots, hs]
      refine .of_eq (meets_stmtStep (fun v hv => hd.local (s := s) ?_) s)
      rw [declares?, hs, Option.bind_some, hv]
  | symbol v => exact metAt_symbol_perm hp hd ha

end Perm

/-! ### The walk -/

/-- `f` reads off the places of a walk what `w` says of the expressions. -/
structure Reads (p : Program) (f : Place → Option ExprId) (w : ExprId → List ExprId) : Prop where
  cases : ∀ x : Place, x.node.isCase = true → f x = none
  own : ∀ around (x : Slot × Site), (p.place around x ::
    p.leaves (p.inside around x.1) x.2).filterMap f = x.2.own.flatMap w

lemma reads_met? (p : Program) : p.Reads (fun x => x.node.met?) fun e => [e] where
  cases x hx := by
    obtain ⟨n, clause, after⟩ := x
    cases n <;> simp_all [Node.isCase, Node.met?]
  own around x := by
    obtain ⟨slot, a⟩ := x
    cases a with
    | expr e =>
      cases he : p.expr? e with
      | none => simp [place, Site.node, leaves, he, Node.met?, Site.own]
      | some y =>
        cases hy : y.isGotoDefault <;> cases hr : y.reference? <;>
          simp [place, Site.node, leaves, he, hy, hr, Node.met?, Site.own]
    | _ => rfl

lemma reads_used? (p : Program) : p.Reads (fun x => x.node.used?) p.uses where
  cases x hx := by
    obtain ⟨n, clause, after⟩ := x
    cases n <;> simp_all [Node.isCase, Node.used?]
  own around x := by
    obtain ⟨slot, a⟩ := x
    cases a with
    | expr e =>
      cases he : p.expr? e with
      | none => simp [place, Site.node, leaves, he, Node.used?, Site.own, uses, reference?]
      | some y =>
        cases hy : y.isGotoDefault <;> cases hr : y.reference? <;>
          simp [place, Site.node, leaves, he, hy, hr, Node.used?, Site.own, uses, reference?]
    | _ => rfl

/-- A list in which each element gives something, taken together. -/
lemma flatMap_filterMap_eq {α β γ : Type} {f : α → Option β} {g : β → List γ} {k : α → List γ}
    {xs : List α} (h : ∀ x ∈ xs, ∃ y, f x = some y ∧ g y = k x) :
    (xs.filterMap f).flatMap g = xs.flatMap k := by
  induction xs with
  | nil => rfl
  | cons x xs ih =>
    obtain ⟨⟨y, hy, hgy⟩, hxs⟩ := List.forall_mem_cons.mp h
    rw [List.filterMap_cons_some hy, List.flatMap_cons, List.flatMap_cons, hgy, ih hxs]

/-- The pass meets what it meets at the types at the top. -/
lemma meets_scripts (hp : p.Listed) : p.scripts.flatMap (fun x => x.2.meets) =
    p.metIn ((p.classes ++ p.enums).map fun v => (.plain, .symbol v)) := by
  rw [metIn_map, scripts, List.flatMap_append, List.flatMap_append]
  congr 1
  · refine flatMap_filterMap_eq fun v hv => ?_
    obtain ⟨c, hc⟩ := hp.class?_of_mem hv
    exact ⟨_, by rw [hc]; rfl, (metAt_symbol (class?_eq_some.mp hc)).symm⟩
  · refine flatMap_filterMap_eq fun v hv => ?_
    obtain ⟨t, ht, -⟩ := hp.enums v hv
    exact ⟨_, by rw [ht]; rfl, (metAt_symbol (enum?_eq_some.mp ht)).symm⟩

section Walk

variable {f : Place → Option ExprId} {w : ExprId → List ExprId} (h : p.Reads f w)
  (hp : p.WellFormed) (hd : p.DeclaresOnly isValue isValue)
include h hp hd

/-- What is read off the visits to proper nodes is what is said of the expressions met there. -/
lemma Reads.filterMap_covers {around : Option Clause} {depth : Nat} {xs : List (Slot × Site)}
    {places : List Place} (hxs : ∀ x ∈ xs, p.Proper x.2)
    (hcovers : p.Covers around depth xs places) :
    (places.filterMap f).Perm ((p.metIn xs).flatMap w) := by
  induction depth using Nat.strong_induction_on generalizing around xs places with
  | _ depth ih =>
    obtain ⟨visits, hvisits, heq⟩ := hcovers
    rw [← filterMap_apartFromCases h.cases, heq, filterMap_apartFromCases h.cases]
    clear heq
    induction hvisits with
    | nil => exact .refl _
    | @cons x visit xs visits hx _ ihxs =>
      obtain ⟨hproper, hrest⟩ := List.forall_mem_cons.mp hxs
      rw [List.flatten_cons, List.filterMap_append, metIn_cons, List.flatMap_append]
      refine List.Perm.append ?_ (ihxs hrest)
      obtain ⟨d, hlt, hvisit⟩ := hx
      obtain ⟨below, rfl, hbelow⟩ := visit_cases hvisit
      have hslots : ∀ y ∈ p.slots x.2, p.Proper y.2 := fun y hy =>
        (hproper.part hp hd (mem_partsOf_of_mem_slots hy)).1
      have hinside := ih d hlt hslots hbelow
      set here := p.place around x
      set own := p.leaves (p.inside around x.1) x.2
      have hfirst : (here :: below ++ own).Perm ((here :: own) ++ below) :=
        List.perm_append_comm.cons here
      calc List.Perm ((here :: below ++ own).filterMap f)
            ((here :: own).filterMap f ++ below.filterMap f) := by
            rw [← List.filterMap_append]
            exact hfirst.filterMap f
        List.Perm _ (x.2.own.flatMap w ++ (p.metIn (p.slots x.2)).flatMap w) := by
            rw [h.own]
            exact hinside.append_left _
        List.Perm _ ((p.metAt x.2).flatMap w) := by
            rw [← List.flatMap_append]
            exact ((metAt_perm hp hd hproper).flatMap_right w).symm

lemma Reads.filterMap_walk {places : List Place} (hwalk : p.walk = some places) :
    (places.filterMap f).Perm ((p.scripts.flatMap fun x => x.2.meets).flatMap w) := by
  have hcovers := covers_walk hwalk
  rw [top, map_numbered] at hcovers
  rw [meets_scripts hp.listed]
  refine h.filterMap_covers hp hd (fun x hx => ?_) hcovers
  obtain ⟨v, hv, rfl⟩ := List.mem_map.mp hx
  exact proper_of_top hp hv

end Walk

end Program

/-- **The walk and the pass meet the same expressions.** Let locals, parameters and what enums hold
be values. Then the walk of a built program comes to an end; the expressions that it meets are, each
as often, those that the pass meets; and the expressions whose names it meets are, each as often,
those whose names the pass looks up. -/
theorem walk_meets_as_pass {p : Program} (hp : p.Built)
    (hd : p.DeclaresOnly SymbolKind.isValue SymbolKind.isValue) :
    ∃ places, p.walk = some places ∧
      (places.filterMap fun x => x.node.met?).Perm
        ((Pass.run p).journal.toList.filterMap Entry.met?) ∧
      (places.filterMap fun x => x.node.used?).Perm
        ((Pass.run p).journal.toList.filterMap Entry.looked?) := by
  have hwf := hp.wellFormed
  obtain ⟨places, hwalk⟩ :=
    Option.isSome_iff_exists.mp (Program.acyclic_of_declaresOnly hwf hd).walk_isSome
  have hmet : (Pass.run p).journal.toList.filterMap Entry.met? =
      p.scripts.flatMap fun x => x.2.meets := by
    rw [Pass.run_eq, ← Pass.met_finish]
    simp [Pass.note, Entry.met?]
  have hlooked : ((Pass.run p).journal.toList.filterMap Entry.looked?).Perm
      ((p.scripts.flatMap fun x => x.2.meets).flatMap p.uses) := by
    rw [← Pass.met_finish]
    refine .trans (.of_eq ?_) (Pass.looked_finish_perm hwf.allocated)
    rw [Pass.run_eq]
    simp [Pass.note, Entry.looked?]
  refine ⟨places, hwalk, ?_, ?_⟩
  · have hread := p.reads_met?.filterMap_walk hwf hd hwalk
    rwa [List.flatMap_singleton', ← hmet] at hread
  · exact (p.reads_used?.filterMap_walk hwf hd hwalk).trans hlooked.symm

/-- Enum `E` has a constant `One`. In class `C` the method `m` takes an `int` and gives an `E`; in
its body, a switch over `E.One` has the same expression as the value of its case. -/
def sharedSteps : List Operation :=
  [.declareClass "C" ⟨1⟩ {}, .declareEnum "E" ⟨2⟩ {}, .intern "One",
    .addExpr (.ident (.free ⟨2⟩) ⟨3⟩), .declareMember ⟨8⟩ ⟨⟨9⟩, ⟨3⟩, .const ⟨.pub, ⟨⟨0⟩, none⟩⟩⟩,
    .addVar "a" ⟨4⟩ ⟨⟨0⟩, none⟩, .intern "m", .addExpr (.ident (.free ⟨8⟩) ⟨5⟩),
    .addExpr (.select ⟨1⟩ (.free ⟨9⟩) ⟨5⟩),
    .addStmt (.switch ⟨2⟩ [⟨[⟨2⟩], [], some ⟨1⟩, ⟨6⟩⟩] none ⟨5⟩),
    .declareMember ⟨7⟩ ⟨⟨11⟩, ⟨4⟩, .method ⟨⟨.pub, some ⟨0⟩⟩, some ⟨1⟩, .normal, false, [⟨10⟩]⟩⟩]

def shared : Program := (Program.new.build? sharedSteps).getD .new

theorem shared_met_as_in_pass : Program.new.build? sharedSteps = some shared ∧
    shared.DeclaresOnly SymbolKind.isValue SymbolKind.isValue ∧
    [⟨0⟩, ⟨1⟩, ⟨2⟩, ⟨1⟩, ⟨2⟩, ⟨1⟩, ⟨1⟩, ⟨0⟩].Perm
      ((Pass.run shared).journal.toList.filterMap Entry.met?) ∧
    [⟨0⟩, ⟨1⟩, ⟨1⟩, ⟨2⟩, ⟨1⟩, ⟨2⟩, ⟨1⟩, ⟨0⟩].Perm
      ((Pass.run shared).journal.toList.filterMap Entry.looked?) := by
  have hbuild : Program.new.build? sharedSteps = some shared := by decide
  have hdeclares : shared.DeclaresOnly SymbolKind.isValue SymbolKind.isValue := by decide
  obtain ⟨places, hwalk, hmet, hused⟩ :=
    walk_meets_as_pass (Program.Built.new.build? hbuild) hdeclares
  have hmeets : shared.walk.map (·.filterMap fun x => x.node.met?) =
      some [⟨0⟩, ⟨1⟩, ⟨2⟩, ⟨1⟩, ⟨2⟩, ⟨1⟩, ⟨1⟩, ⟨0⟩] := by decide
  have huses : shared.walk.map (·.filterMap fun x => x.node.used?) =
      some [⟨0⟩, ⟨1⟩, ⟨1⟩, ⟨2⟩, ⟨1⟩, ⟨2⟩, ⟨1⟩, ⟨0⟩] := by decide
  rw [hwalk, Option.map_some, Option.some.injEq] at hmeets huses
  exact ⟨hbuild, hdeclares, hmeets ▸ hmet, huses ▸ hused⟩

end NameBinding
