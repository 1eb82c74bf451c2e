import NameBinding.Proofs.Openings
import NameBinding.Proofs.Visits

/-!
The records that the statements of a program ask for. A block, a `for` and a clause of a switch have
scopes of their own; a branch or the body of a loop is given one if it is no block. The log of the
pass is made of the records of the visited statements.
-/

namespace NameBinding

/-- The clauses of a switch, each with its statements. -/
def switchClauses (cases : List Case) (defaultBody : Option (List StmtId)) :
    List (SwitchClause × List StmtId) :=
  (cases.zipIdx.map fun c => (.case c.2, c.1.body)) ++ defaultBody.toList.map (.default, ·)

namespace Program

variable (p : Program)

/-- The variables declared directly among statements, in their order. -/
def declared (ss : List StmtId) : List SymbolId := ss.filterMap p.declares?

def isBlock (s : StmtId) : Bool := ((p.stmt? s).map Stmt.isBlock).getD false

/-- The branches of a statement, or the body of a loop. -/
def bodies (s : StmtId) : List StmtId := ((p.stmt? s).map Stmt.bodies).getD []

/-- The scopes that a statement opens for itself. -/
def ownRecords (s : StmtId) : Stmt → List Record
  | .block b => [(.block s, p.declared b.statements)]
  | .forLoop init _ _ _ _ => [(.block s, p.declared init.toList)]
  | .switch _ cases defaultBody _ =>
    (switchClauses cases defaultBody).map fun c => (.clause s c.1, p.declared c.2)
  | _ => []

/-- The scopes that are opened for branches and loop bodies. -/
def bodyRecords (ss : List StmtId) : List Record :=
  (ss.filter fun c => !p.isBlock c).map fun c => (.block c, (p.declares? c).toList)

def records (s : StmtId) : List Record :=
  ((p.stmt? s).map (p.ownRecords s)).getD [] ++ p.bodyRecords (p.bodies s)

end Program

/-! ### The records of a script -/

namespace Script

variable {p : Program}

lemma nested_eq (f : StmtId → Script) (s : StmtId) :
    nested p f s = if p.isBlock s = true then f s else within (.block s) (f s) := rfl

lemma stmt_isBlock (hp : p.Allocated) {s : StmtId} (hs : p.isBlock s = true) :
    ∃ b, p.stmt? s = some (.block b) ∧
      stmt p s = within (.block s) (each (stmt p) b.statements) := by
  unfold Program.isBlock at hs
  cases hx : p.stmt? s with
  | none => simp [hx] at hs
  | some x =>
    cases x with
    | block b => exact ⟨b, rfl, stmt_eq hp hx⟩
    | _ => simp [hx, Stmt.isBlock] at hs

lemma entered_nested (hp : p.Allocated) (s : StmtId) : (nested p (stmt p) s).entered = [] := by
  rw [nested_eq]
  split
  · next hs =>
    obtain ⟨b, -, hstmt⟩ := stmt_isBlock hp hs
    rw [hstmt]
    rfl
  · rfl

/-- A statement enters into the scope around it only what it declares itself. -/
lemma entered_stmt (hp : p.Allocated) (s : StmtId) :
    (stmt p s).entered = (p.declares? s).toList := by
  unfold Program.declares?
  cases hs : p.stmt? s with
  | none =>
    rw [stmt_of_none hs]
    rfl
  | some x =>
    rw [stmt_eq hp hs]
    cases x <;>
      simp [stmtStep, entered, entered_nested hp, case, clauseBody, Stmt.declared?, localVar]

lemma entered_stmts (hp : p.Allocated) (ss : List StmtId) :
    (each (stmt p) ss).entered = p.declared ss := by
  rw [entered_each, Program.declared, List.filterMap_eq_flatMap_toList]
  simp only [entered_stmt hp]

lemma log_nested (hp : p.Allocated) (s : StmtId) :
    (nested p (stmt p) s).log = (stmt p s).log ++ p.bodyRecords [s] := by
  rw [nested_eq]
  unfold Program.bodyRecords
  by_cases hs : p.isBlock s = true
  · simp [hs]
  · simp [log, ScopeKey.isMethod, hs, entered_stmt hp]

/-- The branches of a statement ask for their own records and for those of their scopes. -/
lemma log_bodies_perm (hp : p.Allocated) (ss : List StmtId) :
    (ss.flatMap fun c => (nested p (stmt p) c).log).Perm
      (p.bodyRecords ss ++ ss.flatMap fun c => (stmt p c).log) := by
  have hrecords : p.bodyRecords ss = ss.flatMap fun c => p.bodyRecords [c] := by
    induction ss with
    | nil => rfl
    | cons c ss ih =>
      rw [List.flatMap_cons, ← ih]
      by_cases hc : p.isBlock c = true <;> simp [Program.bodyRecords, hc]
  simp only [log_nested hp, hrecords]
  exact ((List.flatMap_append_perm _ _ _).symm.trans List.perm_append_comm)

lemma log_clauses_perm (hp : p.Allocated) (s : StmtId) (cs : List (SwitchClause × List StmtId)) :
    (cs.flatMap fun c => (clauseBody (stmt p) s c.1 c.2).log).Perm
      ((cs.map fun c => (ScopeKey.clause s c.1, p.declared c.2)) ++
        (cs.flatMap (·.2)).flatMap fun t => (stmt p t).log) := by
  have hlog : ∀ c : SwitchClause × List StmtId, (clauseBody (stmt p) s c.1 c.2).log =
      (c.2.flatMap fun t => (stmt p t).log) ++ [(ScopeKey.clause s c.1, p.declared c.2)] := by
    intro c
    rw [clauseBody, log, entered_stmts hp, log_each]
    rfl
  simp only [hlog, List.map_eq_flatMap, List.flatMap_assoc]
  exact (List.flatMap_append_perm _ _ _).symm.trans List.perm_append_comm

/-- Besides those of the statements below, a statement asks for its own records. -/
lemma log_stmt_perm (hp : p.Allocated) (s : StmtId) :
    (stmt p s).log.Perm (p.records s ++ (p.below s).flatMap fun c => (stmt p c).log) := by
  unfold Program.records Program.below Program.bodies
  cases hs : p.stmt? s with
  | none => simp [stmt_of_none hs, log, Program.bodyRecords]
  | some x =>
    rw [stmt_eq hp hs]
    simp only [Option.map_some, Option.getD_some]
    cases x with
    | block b =>
      simp [stmtStep, log, ScopeKey.isMethod, Stmt.children, Stmt.bodies, Program.ownRecords,
        Program.bodyRecords, entered_stmts hp, -entered_each]
    | branch cond onTrue onFalse line =>
      have hbodies := log_bodies_perm hp (onTrue :: onFalse.toList)
      simpa only [stmtStep, log, log_expr, log_each, Program.ownRecords, List.nil_append,
        Stmt.bodies, Stmt.children] using hbodies
    | whileLoop cond body line =>
      have hbodies := log_bodies_perm hp [body]
      simpa [stmtStep, log, Program.ownRecords, Stmt.bodies, Stmt.children] using hbodies
    | doWhile body cond line =>
      have hbodies := log_bodies_perm hp [body]
      simpa [stmtStep, log, Program.ownRecords, Stmt.bodies, Stmt.children] using hbodies
    | forLoop init cond advance body line =>
      have hentered : (seq (each (stmt p) init.toList)
          (seq (exprs p (cond.toList ++ advance.toList)) (nested p (stmt p) body))).entered =
          p.declared init.toList := by
        simp [entered, entered_nested hp, entered_stmts hp, -entered_each]
      have hbody : (nested p (stmt p) body).log.Perm
          (p.bodyRecords [body] ++ (stmt p body).log) := by
        simpa using log_bodies_perm hp [body]
      simp only [stmtStep, log, ScopeKey.isMethod, hentered, log_each, log_exprs, List.nil_append,
        Program.ownRecords, Stmt.bodies, Stmt.children, List.flatMap_append, List.flatMap_cons,
        List.flatMap_nil, List.append_nil, Bool.false_eq_true, if_false]
      refine (List.perm_append_singleton _ _).trans (.cons _ ?_)
      exact (hbody.append_left _).trans (List.perm_append_comm_assoc _ _ _)
    | switch value cases defaultBody line =>
      have hclauses := log_clauses_perm hp s (switchClauses cases defaultBody)
      have hlog : (stmtStep p (stmt p) s (.switch value cases defaultBody line)).log =
          (switchClauses cases defaultBody).flatMap fun c =>
            (clauseBody (stmt p) s c.1 c.2).log := by
        simp [stmtStep, log, case, switchClauses, List.flatMap_map]
      have hchildren : (Stmt.switch value cases defaultBody line).children =
          (switchClauses cases defaultBody).flatMap (·.2) := by
        have hfst : (cases.zipIdx.flatMap fun c => c.1.body) = cases.flatMap Case.body := by
          rw [← List.flatMap_map Prod.fst, List.zipIdx_map_fst]
        rw [switchClauses, List.flatMap_append, List.flatMap_map, List.flatMap_map, hfst]
        cases defaultBody <;> simp [Stmt.children]
      rw [hlog, hchildren]
      simpa [Program.ownRecords, Stmt.bodies, Program.bodyRecords] using hclauses
    | _ => simp [stmtStep, log, Stmt.children, Stmt.bodies, Program.ownRecords, Program.bodyRecords,
        localVar]

/-- The records of a statement are those of all the statements under it. -/
lemma mem_log_stmt (hp : p.Allocated) {s : StmtId} {x : Record} :
    x ∈ (stmt p s).log ↔ ∃ t, p.Under s t ∧ x ∈ p.records t := by
  induction hk : s.index using Nat.strong_induction_on generalizing s with
  | _ k ih =>
    subst hk
    rw [(log_stmt_perm hp s).mem_iff, List.mem_append, List.mem_flatMap]
    constructor
    · rintro (hx | ⟨c, hc, hx⟩)
      · exact ⟨s, .refl, hx⟩
      · obtain ⟨t, hunder, ht⟩ := (ih c.index (Program.below_lt hp hc) rfl).mp hx
        exact ⟨t, hunder.head hc, ht⟩
    · rintro ⟨t, hunder, ht⟩
      rcases Relation.ReflTransGen.cases_head hunder with rfl | ⟨c, hc, hunder⟩
      · exact .inl ht
      · exact .inr ⟨c, hc, (ih c.index (Program.below_lt hp hc) rfl).mpr ⟨t, hunder, ht⟩⟩

end Script

/-! ### The records of a program -/

namespace Program

variable {p : Program}

/-- What is entered into the scope of a body ahead of its statements, if there is such a scope. -/
def opener? (p : Program) (v : SymbolId) : Option (List SymbolId) :=
  (p.kind? v).bind fun kind =>
    match kind with
    | .method m => some m.parameters
    | .constructor _ => some []
    | .classType c => c.destructor.map fun _ => []
    | _ => none

def bodyLog (p : Program) (v : SymbolId) : List Record :=
  ((p.opener? v).map fun vs => (ScopeKey.method v, vs ++ p.declared (p.stmtsOf v)) ::
    (p.stmtsOf v).flatMap fun t => (Script.stmt p t).log).getD []

/-- A symbol in which statements stand has a scope for them. -/
lemma exists_opener {v : SymbolId} {t : StmtId} (ht : t ∈ p.stmtsOf v) :
    ∃ vs, p.opener? v = some vs := by
  unfold stmtsOf at ht
  cases hsym : p.symbol? v with
  | none => simp [hsym] at ht
  | some sym =>
    obtain ⟨n, line, kind⟩ := sym
    cases kind with
    | method m => exact ⟨m.parameters, by simp [opener?, kind?, hsym]⟩
    | constructor c => exact ⟨[], by simp [opener?, kind?, hsym]⟩
    | classType c =>
      cases hd : c.destructor with
      | none => simp [hsym, SymbolKind.stmts, hd] at ht
      | some b => exact ⟨[], by simp [opener?, kind?, hsym, hd]⟩
    | _ => simp [hsym, SymbolKind.stmts] at ht

lemma bodyLog_eq {v : SymbolId} {vs : List SymbolId} (hv : p.opener? v = some vs) :
    p.bodyLog v = (ScopeKey.method v, vs ++ p.declared (p.stmtsOf v)) ::
      (p.stmtsOf v).flatMap fun t => (Script.stmt p t).log := by
  simp only [bodyLog, hv, Option.map_some, Option.getD_some]

lemma log_plainBody (hp : p.Allocated) {v : SymbolId} (hv : p.opener? v = some []) :
    (Script.plainBody p v (p.stmtsOf v)).log = p.bodyLog v := by
  rw [bodyLog_eq hv, Script.plainBody, Script.log, Script.entered_stmts hp, Script.log_each]
  rfl

lemma log_method (hp : p.Allocated) {v : SymbolId} {m : Method}
    (hv : p.kind? v = some (.method m)) : (Script.method p v).log = p.bodyLog v := by
  obtain ⟨sym, hsym, hkind⟩ := Option.map_eq_some_iff.mp hv
  have hm : (p.symbol? v).bind (·.method?) = some m := by simp [hsym, Symbol.method?, hkind]
  have hstmts : p.stmtsOf v = m.callable.body.toList := by
    simp [stmtsOf, hsym, hkind, SymbolKind.stmts]
  have hlog : (Script.each (Script.localVar p) m.parameters).log = [] := by
    simp [Script.localVar, Script.log]
  have hentered : (Script.each (Script.localVar p) m.parameters).entered = m.parameters := by
    simp [Script.localVar, Script.entered]
  have hopener : p.opener? v = some m.parameters := by simp [opener?, hv]
  rw [bodyLog_eq hopener, hstmts]
  simp only [Script.method, hm, Script.log, ScopeKey.isMethod, if_true, Script.entered, hlog,
    hentered, Script.entered_stmts hp, Script.log_exprs, Script.log_each, List.nil_append]

lemma log_constructor (hp : p.Allocated) {v : SymbolId} {c : Callable}
    (hv : p.kind? v = some (.constructor c)) : (Script.constructor p v).log = p.bodyLog v := by
  obtain ⟨sym, hsym, hkind⟩ := Option.map_eq_some_iff.mp hv
  have hc : (p.symbol? v).bind (·.constructor?) = some c := by
    simp [hsym, Symbol.constructor?, hkind]
  have hstmts : p.stmtsOf v = c.body.toList := by simp [stmtsOf, hsym, hkind, SymbolKind.stmts]
  rw [← log_plainBody hp (by simp [opener?, hv]), hstmts]
  simp only [Script.constructor, hc]

lemma log_destructor (hp : p.Allocated) {s : SymbolId} {c : ClassInfo}
    (hs : p.kind? s = some (.classType c)) :
    (c.destructor.toList.flatMap fun b => (Script.plainBody p s b.statements).log) =
      p.bodyLog s := by
  obtain ⟨sym, hsym, hkind⟩ := Option.map_eq_some_iff.mp hs
  cases hd : c.destructor with
  | none => simp [bodyLog, opener?, hs, hd]
  | some b =>
    have hstmts : p.stmtsOf s = b.statements := by
      simp [stmtsOf, hsym, hkind, SymbolKind.stmts, hd]
    rw [← log_plainBody hp (by simp [opener?, hs, hd]), hstmts]
    simp

lemma log_classType (hp : p.WellFormed) {s : SymbolId} {c : ClassInfo} (hs : s ∈ p.classes)
    (hc : p.class? s = some c) : (Script.classType p s c).log =
      (c.constructor.toList ++ s :: c.methods).flatMap p.bodyLog := by
  have hlists := hp.listed.lists hs hc
  have hconstructor : (c.constructor.toList.flatMap fun v => (Script.constructor p v).log) =
      c.constructor.toList.flatMap p.bodyLog := by
    refine List.flatMap_congr fun v hv => ?_
    obtain ⟨m, hm⟩ := hlists.constructor v hv
    exact log_constructor hp.allocated hm
  have hmethods : (c.methods.flatMap fun v => (Script.method p v).log) =
      c.methods.flatMap p.bodyLog := by
    refine List.flatMap_congr fun v hv => ?_
    obtain ⟨m, hm⟩ := hlists.methods v hv
    exact log_method hp.allocated hm
  have hdestructor := log_destructor hp.allocated (class?_eq_some.mp hc)
  have hvalues : (Script.each (Script.value p) (c.consts ++ c.fields)).log = [] := by simp
  rw [List.flatMap_append, List.flatMap_cons, ← hconstructor, ← hdestructor, ← hmethods]
  simp only [Script.classType, Script.log, hvalues, Script.log_each, List.nil_append]

lemma log_enumType (t : EnumInfo) : (Script.enumType p t).log = [] := by
  simp [Script.enumType]

/-- The log of the pass goes through the bodies one after the other. -/
theorem log_eq (hp : p.WellFormed) : p.log = p.bodyOwners.flatMap p.bodyLog := by
  have henum : ((p.enums.filterMap fun s => (p.enum? s).map fun t =>
      (t.scope, Script.enumType p t)).flatMap (·.2.log)) = [] := by
    refine List.flatMap_eq_nil_iff.mpr fun x hx => ?_
    obtain ⟨s, -, hmap⟩ := List.mem_filterMap.mp hx
    obtain ⟨t, -, rfl⟩ := Option.map_eq_some_iff.mp hmap
    exact log_enumType t
  rw [log, scripts, List.flatMap_append, henum, List.append_nil, bodyOwners, List.flatMap_assoc,
    List.filterMap_eq_flatMap_toList, List.flatMap_assoc]
  refine List.flatMap_congr fun s hs => ?_
  obtain ⟨c, hc⟩ := hp.listed.class?_of_mem hs
  simp only [hc, Option.map_some, Option.toList_some, Option.getD_some, List.flatMap_cons,
    List.flatMap_nil, List.append_nil, log_classType hp hs hc]

/-- The records of the pass: the scopes of bodies, and those of the visited statements. -/
lemma mem_log (hp : p.WellFormed) {x : Record} : x ∈ p.log ↔
    (∃ v ∈ p.bodyOwners, ∃ vs, p.opener? v = some vs ∧
      x = (.method v, vs ++ p.declared (p.stmtsOf v))) ∨ ∃ t, p.Visited t ∧ x ∈ p.records t := by
  rw [log_eq hp, List.mem_flatMap]
  constructor
  · rintro ⟨v, hv, hx⟩
    cases hopener : p.opener? v with
    | none => simp [bodyLog, hopener] at hx
    | some vs =>
      rw [bodyLog_eq hopener, List.mem_cons, List.mem_flatMap] at hx
      rcases hx with rfl | ⟨r, hr, hx⟩
      · exact .inl ⟨v, hv, vs, hopener, rfl⟩
      · obtain ⟨t, hunder, ht⟩ := (Script.mem_log_stmt hp.allocated).mp hx
        exact .inr ⟨t, (Visited.root hv hr).under hunder, ht⟩
  · rintro (⟨v, hv, vs, hopener, rfl⟩ | ⟨t, hvisited, ht⟩)
    · exact ⟨v, hv, by rw [bodyLog_eq hopener]; exact List.mem_cons_self ..⟩
    · obtain ⟨v, hv, r, hr, hunder⟩ := hvisited.exists_root
      refine ⟨v, hv, ?_⟩
      have hx := (Script.mem_log_stmt hp.allocated).mpr ⟨t, hunder, ht⟩
      obtain ⟨vs, hopener⟩ := exists_opener hr
      rw [bodyLog_eq hopener]
      exact List.mem_cons_of_mem _ (List.mem_flatMap.mpr ⟨r, hr, hx⟩)

end Program

end NameBinding
