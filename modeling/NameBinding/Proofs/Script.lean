import NameBinding.Proofs.WellFormed
import NameBinding.Resolve.Bodies

/-!
The pass over the bodies as a script: the single actions in their order, and the parts that are run
in a scope of their own. Resolving a part of a program is running its script, so that what each
action keeps, the whole pass keeps.
-/

namespace NameBinding

/-- What the scope of a part is recorded under. -/
inductive ScopeKey
  | method (s : SymbolId)
  | block (s : StmtId)
  | clause (s : StmtId) (c : SwitchClause)
deriving DecidableEq

namespace ScopeKey

def kind : ScopeKey → ScopeKind
  | method s => .method s
  | block _ | clause _ _ => .block

/-- The statement that a scope belongs to. -/
def stmt? : ScopeKey → Option StmtId
  | method _ => none
  | block s | clause s _ => some s

end ScopeKey

inductive Script
  | skip
  | seq (first second : Script)
  /-- An expression is met. -/
  | meet (e : ExprId)
  /-- The name that an expression uses itself is bound. -/
  | bind (e : ExprId)
  /-- A variable is entered into the scope. -/
  | enter (v : SymbolId)
  /-- The body is run in a scope of its own. -/
  | within (key : ScopeKey) (body : Script)

namespace Pass

def openFor (st : Pass) (scope : ScopeId) : ScopeKey → Pass
  | .method s => (st.openMethod scope s).2
  | .block _ | .clause _ _ => (st.openScope scope .block).2

/-- The scope of a method is recorded when it is opened, any other when it is left. -/
def closeFor (st : Pass) (inner : ScopeId) : ScopeKey → Pass
  | .method _ => st
  | .block s => st.recordBlock s inner
  | .clause s c => st.recordClause s c inner

section

variable (st : Pass) (scope : ScopeId) (key : ScopeKey)

@[simp] lemma scopes_openFor :
    (st.openFor scope key).scopes = (st.scopes.addChild scope key.kind).2 := by
  cases key <;> rfl

@[simp] lemma journal_openFor : (st.openFor scope key).journal = st.journal := by
  cases key <;> rfl

@[simp] lemma references_openFor :
    (st.openFor scope key).bindings.references = st.bindings.references := by
  cases key <;> rfl

@[simp] lemma baseClasses_openFor :
    (st.openFor scope key).bindings.baseClasses = st.bindings.baseClasses := by
  cases key <;> rfl

@[simp] lemma scopes_closeFor : (st.closeFor scope key).scopes = st.scopes := by
  cases key <;> rfl

@[simp] lemma journal_closeFor : (st.closeFor scope key).journal = st.journal := by
  cases key <;> rfl

@[simp] lemma references_closeFor :
    (st.closeFor scope key).bindings.references = st.bindings.references := by
  cases key <;> rfl

@[simp] lemma baseClasses_closeFor :
    (st.closeFor scope key).bindings.baseClasses = st.bindings.baseClasses := by
  cases key <;> rfl

end

end Pass

/-- The operands of an expression. -/
def Program.operands (p : Program) (e : ExprId) : List ExprId :=
  ((p.expr? e).map Expr.children).getD []

/-- The type and the initializer of a symbol that has them. -/
def Program.valueExprs (p : Program) (v : SymbolId) : List ExprId :=
  ((p.typedValue? v).map TypedValue.exprs).getD []

namespace Script

/-- Runs a script in a scope. -/
def run (p : Program) : Script → ScopeId → Pass → Pass
  | skip, _, st => st
  | seq a b, scope, st => b.run p scope (a.run p scope st)
  | meet e, _, st => st.note (.expr e)
  | bind e, scope, st => st.bindOwn p scope e
  | enter v, scope, st => st.declare p scope v
  | within key body, scope, st =>
    let inner : ScopeId := ⟨st.scopes.size⟩
    (body.run p inner (st.openFor scope key)).closeFor inner key

/-- The scripts of all elements, one after the other. -/
def each {α : Type} (f : α → Script) : List α → Script
  | [] => skip
  | x :: xs => seq (f x) (each f xs)

variable (p : Program)

/-! ### Expressions -/

def exprWithin : Nat → ExprId → Script
  | 0, _ => skip
  | depth + 1, e => seq (meet e) (seq (each (exprWithin depth) (p.operands e)) (bind e))

def expr (e : ExprId) : Script := exprWithin p (e.index + 1) e

def exprs (es : List ExprId) : Script := each (expr p) es

def value (v : SymbolId) : Script := exprs p (p.valueExprs v)

def localVar (v : SymbolId) : Script := seq (value p v) (enter v)

/-! ### Statements -/

section Statements

variable (stmt : StmtId → Script)

def nested (s : StmtId) : Script :=
  if ((p.stmt? s).map Stmt.isBlock).getD false then stmt s else within (.block s) (stmt s)

def clauseBody (s : StmtId) (c : SwitchClause) (body : List StmtId) : Script :=
  within (.clause s c) (each stmt body)

def case (s : StmtId) (c : Case × Nat) : Script :=
  seq (exprs p c.1.values)
    (seq (clauseBody stmt s (.case c.2) c.1.body) (exprs p c.1.fallthrough.toList))

def stmtStep (s : StmtId) : Stmt → Script
  | .block b => within (.block s) (each stmt b.statements)
  | .branch cond onTrue onFalse _ =>
    seq (expr p cond) (each (nested p stmt) (onTrue :: onFalse.toList))
  | .whileLoop cond body _ => seq (expr p cond) (nested p stmt body)
  | .doWhile body cond _ => seq (nested p stmt body) (expr p cond)
  | .forLoop init cond advance body _ => within (.block s)
    (seq (each stmt init.toList)
      (seq (exprs p (cond.toList ++ advance.toList)) (nested p stmt body)))
  | .breakLoop _ | .continueLoop _ => skip
  | .returnValue value _ => exprs p value.toList
  | .throwMessage e _ | .deleteTarget e _ | .expr e _ => expr p e
  | .switch value cases defaultBody _ => seq (expr p value)
    (seq (each (case p stmt s) cases.zipIdx) (each (clauseBody stmt s .default) defaultBody.toList))
  | .var v _ => localVar p v

end Statements

def stmtWithin : Nat → StmtId → Script
  | 0, _ => skip
  | depth + 1, s => ((p.stmt? s).map (stmtStep p (stmtWithin depth) s)).getD skip

def stmt (s : StmtId) : Script := stmtWithin p (s.index + 1) s

/-! ### Types -/

/-- The statements of a constructor or of a destructor, in a scope of their own. -/
def plainBody (s : SymbolId) (body : List StmtId) : Script :=
  within (.method s) (each (stmt p) body)

def method (s : SymbolId) : Script :=
  match (p.symbol? s).bind (·.method?) with
  | none => skip
  | some m => seq (exprs p m.returnType.toList) (within (.method s)
    (seq (each (localVar p) m.parameters) (each (stmt p) m.callable.body.toList)))

def constructor (s : SymbolId) : Script :=
  match (p.symbol? s).bind (·.constructor?) with
  | none => skip
  | some c => plainBody p s c.body.toList

def classType (s : SymbolId) (c : ClassInfo) : Script :=
  seq (each (value p) (c.consts ++ c.fields))
    (seq (each (constructor p) c.constructor.toList)
      (seq (each (fun b : Block => plainBody p s b.statements) c.destructor.toList)
        (each (method p) c.methods)))

def enumType (t : EnumInfo) : Script := each (value p) (p.members t.scope)

end Script

/-- The script of every class and of every enum, with the scope of its members. -/
def Program.scripts (p : Program) : List (ScopeId × Script) :=
  (p.classes.filterMap fun s => (p.class? s).map fun c => (c.scope, Script.classType p s c)) ++
    p.enums.filterMap fun s => (p.enum? s).map fun t => (t.scope, Script.enumType p t)

lemma Program.scripts_cases {p : Program} {x : ScopeId × Script} (hx : x ∈ p.scripts) :
    (∃ s ∈ p.classes, ∃ c, p.class? s = some c ∧ x = (c.scope, Script.classType p s c)) ∨
      ∃ s ∈ p.enums, ∃ t, p.enum? s = some t ∧ x = (t.scope, Script.enumType p t) := by
  rcases List.mem_append.mp hx with hx | hx
  · obtain ⟨s, hs, hmap⟩ := List.mem_filterMap.mp hx
    obtain ⟨c, hc, rfl⟩ := Option.map_eq_some_iff.mp hmap
    exact .inl ⟨s, hs, c, hc, rfl⟩
  · obtain ⟨s, hs, hmap⟩ := List.mem_filterMap.mp hx
    obtain ⟨t, ht, rfl⟩ := Option.map_eq_some_iff.mp hmap
    exact .inr ⟨s, hs, t, ht, rfl⟩

/-! ### Resolving is running -/

namespace Script

variable {p : Program}

lemma run_each {α : Type} (f : α → Script) (g : Pass → α → Pass) (scope : ScopeId) (xs : List α)
    (h : ∀ x ∈ xs, ∀ st, (f x).run p scope st = g st x) (st : Pass) :
    (each f xs).run p scope st = xs.foldl g st := by
  induction xs generalizing st with
  | nil => rfl
  | cons x xs ih =>
    simp only [each, run, List.foldl_cons]
    rw [h x (by simp), ih fun y hy => h y (by simp [hy])]

lemma run_exprWithin (depth : Nat) (e : ExprId) (scope : ScopeId) (st : Pass) :
    (exprWithin p depth e).run p scope st = Pass.exprWithin p depth scope st e := by
  induction depth generalizing e st with
  | zero => rfl
  | succ depth ih =>
    simp only [exprWithin, run, Pass.exprWithin]
    rw [run_each _ (Pass.exprWithin p depth scope) scope _ fun x _ st => ih x st]
    rfl

lemma run_expr (e : ExprId) (scope : ScopeId) (st : Pass) :
    (expr p e).run p scope st = Pass.expr p scope st e :=
  run_exprWithin _ e scope st

lemma run_exprs (es : List ExprId) (scope : ScopeId) (st : Pass) :
    (exprs p es).run p scope st = Pass.exprs p scope st es :=
  run_each _ _ scope es (fun e _ st => run_expr e scope st) st

lemma run_value (v : SymbolId) (scope : ScopeId) (st : Pass) :
    (value p v).run p scope st = Pass.value p scope st v :=
  run_exprs _ scope st

lemma run_localVar (v : SymbolId) (scope : ScopeId) (st : Pass) :
    (localVar p v).run p scope st = Pass.localVar p scope st v := by
  simp only [localVar, run, run_value]
  rfl

section Statements

variable {f : StmtId → Script} {g : ScopeId → Pass → StmtId → Pass}

lemma run_nested (h : ∀ s scope st, (f s).run p scope st = g scope st s) (s : StmtId)
    (scope : ScopeId) (st : Pass) :
    (nested p f s).run p scope st = Pass.nested p g scope st s := by
  unfold nested Pass.nested
  split
  · exact h s scope st
  · simp only [run, h]
    rfl

lemma run_clauseBody (h : ∀ s scope st, (f s).run p scope st = g scope st s) (s : StmtId)
    (c : SwitchClause) (body : List StmtId) (scope : ScopeId) (st : Pass) :
    (clauseBody f s c body).run p scope st = Pass.clauseBody g scope st s c body := by
  simp only [clauseBody, run]
  rw [run_each f _ _ body fun t _ st => h t _ st]
  rfl

lemma run_case (h : ∀ s scope st, (f s).run p scope st = g scope st s) (s : StmtId)
    (c : Case × Nat) (scope : ScopeId) (st : Pass) :
    (case p f s c).run p scope st = Pass.case p g scope s st c := by
  simp only [case, run, run_exprs, run_clauseBody h]
  rfl

/-- Each constructor of statements is resolved by what its script does. -/
lemma run_stmtStep (h : ∀ s scope st, (f s).run p scope st = g scope st s) (s : StmtId) (x : Stmt)
    (scope : ScopeId) (st : Pass) :
    (stmtStep p f s x).run p scope st = Pass.stmtStep p g scope st s x := by
  cases x with
  | block b =>
    simp only [stmtStep, run]
    rw [run_each f _ _ b.statements fun t _ st => h t _ st]
    rfl
  | branch cond onTrue onFalse line =>
    simp only [stmtStep, run, run_expr]
    exact run_each _ _ scope _ (fun t _ st => run_nested h t scope st) _
  | whileLoop cond body line =>
    simp only [stmtStep, run, run_expr]
    exact run_nested h body scope _
  | doWhile body cond line =>
    simp only [stmtStep, run, run_expr, run_nested h]
    rfl
  | forLoop init cond advance body line =>
    simp only [stmtStep, run, run_exprs, run_nested h]
    rw [run_each f _ _ init.toList fun t _ st => h t _ st]
    rfl
  | breakLoop line => rfl
  | continueLoop line => rfl
  | returnValue value line => exact run_exprs _ scope st
  | throwMessage e line => exact run_expr e scope st
  | deleteTarget e line => exact run_expr e scope st
  | switch value cases defaultBody line =>
    simp only [stmtStep, run, run_expr]
    rw [run_each _ (Pass.case p g scope s) scope _ fun c _ st => run_case h s c scope st]
    cases defaultBody with
    | none => rfl
    | some body => exact run_clauseBody h s .default body scope _
  | expr e line => exact run_expr e scope st
  | var v line => exact run_localVar v scope st

end Statements

lemma run_stmtWithin (depth : Nat) (s : StmtId) (scope : ScopeId) (st : Pass) :
    (stmtWithin p depth s).run p scope st = Pass.stmtWithin p depth scope st s := by
  induction depth generalizing s scope st with
  | zero => rfl
  | succ depth ih =>
    simp only [stmtWithin, Pass.stmtWithin]
    cases p.stmt? s with
    | none => rfl
    | some x => exact run_stmtStep ih s x scope st

lemma run_stmt (s : StmtId) (scope : ScopeId) (st : Pass) :
    (stmt p s).run p scope st = Pass.stmt p scope st s :=
  run_stmtWithin _ s scope st

lemma run_plainBody (s : SymbolId) (body : List StmtId) (scope : ScopeId) (st : Pass) :
    (plainBody p s body).run p scope st =
      body.foldl (Pass.stmt p ⟨st.scopes.size⟩) (st.openMethod scope s).2 := by
  simp only [plainBody, run]
  exact run_each _ _ _ body (fun t _ st => run_stmt t _ st) _

lemma run_method (s : SymbolId) (scope : ScopeId) (st : Pass) :
    (method p s).run p scope st = Pass.method p scope st s := by
  unfold method Pass.method
  cases (p.symbol? s).bind (·.method?) with
  | none => rfl
  | some m =>
    simp only [run, run_exprs]
    rw [run_each _ (Pass.localVar p _) _ m.parameters fun v _ st => run_localVar v _ st,
      run_each _ (Pass.stmt p _) _ m.callable.body.toList fun t _ st => run_stmt t _ st]
    rfl

lemma run_constructor (s : SymbolId) (scope : ScopeId) (st : Pass) :
    (constructor p s).run p scope st = Pass.constructor p scope st s := by
  unfold constructor Pass.constructor
  cases (p.symbol? s).bind (·.constructor?) with
  | none => rfl
  | some c => exact run_plainBody s _ scope st

lemma run_classType (s : SymbolId) (c : ClassInfo) (hc : p.class? s = some c) (st : Pass) :
    (classType p s c).run p c.scope st = Pass.classType p st s := by
  simp only [classType, run, Pass.classType, hc]
  rw [run_each _ (Pass.value p c.scope) _ _ fun v _ st => run_value v _ st,
    run_each _ (Pass.constructor p c.scope) _ _ fun v _ st => run_constructor v _ st,
    run_each _ (Pass.destructor p c.scope s) _ _ fun b _ st => run_plainBody s b.statements _ st,
    run_each _ (Pass.method p c.scope) _ _ fun v _ st => run_method v _ st]

lemma run_enumType (s : SymbolId) (t : EnumInfo) (ht : p.enum? s = some t) (st : Pass) :
    (enumType p t).run p t.scope st = Pass.enumType p st s := by
  have ht' : (p.symbol? s).bind (·.enum?) = some t := ht
  simp only [enumType, Pass.enumType, ht']
  exact run_each _ _ _ _ (fun v _ st => run_value v _ st) st

/-- Runs scripts one after the other, each in its scope. -/
def runAll (p : Program) (scripts : List (ScopeId × Script)) (st : Pass) : Pass :=
  scripts.foldl (fun st x => x.2.run p x.1 st) st

@[simp] lemma runAll_nil (st : Pass) : runAll p [] st = st := rfl

@[simp] lemma runAll_cons (x : ScopeId × Script) (xs : List (ScopeId × Script)) (st : Pass) :
    runAll p (x :: xs) st = runAll p xs (x.2.run p x.1 st) := rfl

/-- A fold over the elements that give something is a fold over all, if the others do nothing. -/
lemma foldl_filterMap_eq {α β σ : Type} {f : α → Option β} {h : σ → β → σ} {g : σ → α → σ}
    (hnone : ∀ x st, f x = none → g st x = st) (hsome : ∀ x y st, f x = some y → h st y = g st x)
    (xs : List α) (st : σ) : (xs.filterMap f).foldl h st = xs.foldl g st := by
  induction xs generalizing st with
  | nil => rfl
  | cons x xs ih =>
    cases hx : f x with
    | none => rw [List.filterMap_cons_none hx, List.foldl_cons, hnone x st hx, ih]
    | some y =>
      rw [List.filterMap_cons_some hx, List.foldl_cons, List.foldl_cons, hsome x y st hx, ih]

end Script

namespace Pass

variable {p : Program}

lemma runAll_scripts (st : Pass) :
    Script.runAll p p.scripts st =
      p.enums.foldl (enumType p) (p.classes.foldl (classType p) st) := by
  unfold Program.scripts Script.runAll
  rw [List.foldl_append, Script.foldl_filterMap_eq (g := enumType p),
    Script.foldl_filterMap_eq (g := classType p)]
  · intro s st hs
    simp only [classType, Option.map_eq_none_iff.mp hs]
  · intro s y st hs
    obtain ⟨c, hc, rfl⟩ := Option.map_eq_some_iff.mp hs
    exact Script.run_classType s c hc st
  · intro s st hs
    have hs' : (p.symbol? s).bind (·.enum?) = none := Option.map_eq_none_iff.mp hs
    simp only [enumType, hs']
  · intro s y st hs
    obtain ⟨t, ht, rfl⟩ := Option.map_eq_some_iff.mp hs
    exact Script.run_enumType s t ht st

/-- The state in which the bodies are looked at first. -/
def start (p : Program) : Pass := bases p { scopes := p.scopes }

/-- The state once all bodies have been looked at. -/
def finish (p : Program) : Pass := Script.runAll p p.scripts (start p)

lemma run_eq : run p =
    (finish p).note (.bodiesDone (finish p).bindings.references.size (finish p).scopes.size) := by
  unfold run bodies finish
  rw [runAll_scripts]
  rfl

end Pass

/-! ### Scripts reach to the bottom -/

namespace Script

variable {p : Program}

lemma operand_lt (hp : p.Allocated) {e c : ExprId} (hc : c ∈ p.operands e) :
    c.index < e.index := by
  unfold Program.operands at hc
  cases he : p.expr? e with
  | none => simp [he] at hc
  | some x =>
    simp only [he, Option.map_some, Option.getD_some] at hc
    exact (hp.exprs e x he).1 c hc

lemma each_congr {α : Type} {f g : α → Script} {xs : List α} (h : ∀ x ∈ xs, f x = g x) :
    each f xs = each g xs := by
  induction xs with
  | nil => rfl
  | cons x xs ih =>
    simp only [each]
    rw [h x (by simp), ih fun y hy => h y (by simp [hy])]

lemma exprWithin_eq (hp : p.Allocated) {depth : Nat} {e : ExprId} (hd : e.index < depth) :
    exprWithin p depth e = expr p e := by
  induction hk : e.index using Nat.strong_induction_on generalizing depth e with
  | _ k ih =>
    subst hk
    obtain ⟨m, rfl⟩ : ∃ m, depth = m + 1 := ⟨depth - 1, by omega⟩
    unfold expr
    simp only [exprWithin]
    congr 2
    refine each_congr fun c hc => ?_
    have hlt := operand_lt hp hc
    rw [ih c.index hlt (by omega : c.index < m) rfl, ih c.index hlt hlt rfl]

/-- An expression is met, then come its operands, then its own name. -/
lemma expr_eq (hp : p.Allocated) (e : ExprId) :
    expr p e = seq (meet e) (seq (exprs p (p.operands e)) (bind e)) := by
  unfold expr
  simp only [exprWithin]
  congr 2
  exact each_congr fun c hc => exprWithin_eq hp (operand_lt hp hc)

/-- The script of a statement is made of those of the statements right below it. -/
lemma stmtStep_congr {f g : StmtId → Script} (s : StmtId) (x : Stmt)
    (h : ∀ c ∈ x.children, f c = g c) : stmtStep p f s x = stmtStep p g s x := by
  have hnested : ∀ c ∈ x.children, nested p f c = nested p g c := fun c hc => by
    unfold nested
    rw [h c hc]
  cases x with
  | block b => exact congrArg _ (each_congr h)
  | branch cond onTrue onFalse line => exact congrArg _ (each_congr hnested)
  | whileLoop cond body line =>
    simp only [stmtStep]
    rw [hnested body (by simp [Stmt.children])]
  | doWhile body cond line =>
    simp only [stmtStep]
    rw [hnested body (by simp [Stmt.children])]
  | forLoop init cond advance body line =>
    simp only [stmtStep]
    rw [hnested body (by simp [Stmt.children]),
      each_congr fun c hc => h c (List.mem_append_left _ hc)]
  | switch value cases defaultBody line =>
    simp only [stmtStep]
    congr 2
    · refine each_congr fun c hc => ?_
      unfold case clauseBody
      rw [each_congr fun t ht => h t ?_]
      refine List.mem_append_left _ (List.mem_flatMap.mpr ⟨c.1, ?_, ht⟩)
      exact (List.mem_zipIdx' hc).2 ▸ List.getElem_mem _
    · refine each_congr fun body hb => ?_
      unfold clauseBody
      rw [each_congr fun t ht => h t ?_]
      obtain rfl := Option.mem_toList.mp hb
      exact List.mem_append_right _ ht
  | _ => rfl

lemma child_lt (hp : p.Allocated) {s c : StmtId} {x : Stmt} (hs : p.stmt? s = some x)
    (hc : c ∈ x.children) : c.index < s.index :=
  (hp.stmts s x hs).1 c hc

lemma stmtWithin_eq (hp : p.Allocated) {depth : Nat} {s : StmtId} (hd : s.index < depth) :
    stmtWithin p depth s = stmt p s := by
  induction hk : s.index using Nat.strong_induction_on generalizing depth s with
  | _ k ih =>
    subst hk
    obtain ⟨m, rfl⟩ : ∃ m, depth = m + 1 := ⟨depth - 1, by omega⟩
    unfold stmt
    simp only [stmtWithin]
    cases hs : p.stmt? s with
    | none => rfl
    | some x =>
      refine stmtStep_congr s x fun c hc => ?_
      have hlt := child_lt hp hs hc
      rw [ih c.index hlt (by omega : c.index < m) rfl, ih c.index hlt hlt rfl]

lemma stmt_eq (hp : p.Allocated) {s : StmtId} {x : Stmt} (hs : p.stmt? s = some x) :
    stmt p s = stmtStep p (stmt p) s x := by
  have hunfold : stmt p s = stmtStep p (stmtWithin p s.index) s x := by
    simp only [stmt, stmtWithin, hs, Option.map_some, Option.getD_some]
  rw [hunfold]
  exact stmtStep_congr s x fun c hc => stmtWithin_eq hp (child_lt hp hs hc)

lemma stmt_of_none {s : StmtId} (hs : p.stmt? s = none) : stmt p s = skip := by
  simp only [stmt, stmtWithin, hs, Option.map_none, Option.getD_none]

end Script

/-! ### Induction over the scripts of a program -/

/-- An expression stands directly in a statement or in a symbol. -/
def Program.IsRoot (p : Program) (e : ExprId) : Prop :=
  (∃ s x, p.stmt? s = some x ∧ e ∈ x.exprs) ∨ ∃ v sym, p.symbol? v = some sym ∧ e ∈ sym.kind.exprs

/-- A symbol is declared by a statement, or it is listed by another, such as a parameter. -/
def Program.IsListed (p : Program) (v : SymbolId) : Prop :=
  (∃ s x, p.stmt? s = some x ∧ x.declared? = some v) ∨
    ∃ m sym, p.symbol? m = some sym ∧ v ∈ sym.kind.symbols

namespace Script

variable {p : Program}

/-- A property that parts run one after the other in the same scope pass on to the whole. -/
structure Sequential (p : Program) (P : Script → Prop) : Prop where
  skip : P skip
  seq : ∀ a b, P a → P b → P (seq a b)
  enter : ∀ v, p.IsListed v → P (enter v)
  root : ∀ e, p.IsRoot e → P (expr p e)

namespace Sequential

variable {P : Script → Prop}

lemma each (h : Sequential p P) {α : Type} {f : α → Script} {xs : List α}
    (hf : ∀ x ∈ xs, P (f x)) : P (Script.each f xs) := by
  induction xs with
  | nil => exact h.skip
  | cons x xs ih => exact h.seq _ _ (hf x (by simp)) (ih fun y hy => hf y (by simp [hy]))

lemma exprs (h : Sequential p P) {es : List ExprId} (hes : ∀ e ∈ es, p.IsRoot e) :
    P (Script.exprs p es) :=
  h.each fun e he => h.root e (hes e he)

lemma value (h : Sequential p P) (v : SymbolId) : P (Script.value p v) := by
  refine h.exprs fun e he => ?_
  unfold Program.valueExprs Program.typedValue? at he
  cases hv : p.symbol? v with
  | none => simp [hv] at he
  | some sym =>
    refine .inr ⟨v, sym, hv, ?_⟩
    obtain ⟨n, line, kind⟩ := sym
    cases kind with
    | var value => simpa [hv, Symbol.typedValue?, SymbolKind.exprs] using he
    | field m => simpa [hv, Symbol.typedValue?, SymbolKind.exprs] using he
    | const m => simpa [hv, Symbol.typedValue?, SymbolKind.exprs] using he
    | _ => simp [hv, Symbol.typedValue?] at he

lemma localVar (h : Sequential p P) {v : SymbolId} (hv : p.IsListed v) :
    P (Script.localVar p v) :=
  h.seq _ _ (h.value v) (h.enter v hv)

/-- The scopes that a statement opens for itself, its branches and loop bodies, and the other
statements below it: what holds of these holds of the statement. -/
lemma stmtStep (h : Sequential p P) {f : StmtId → Script} {s : StmtId} {x : Stmt}
    (hs : p.stmt? s = some x)
    (hwithin : ∀ key body, key.stmt? = some s → P body → P (within key body))
    (hbodies : ∀ c ∈ x.bodies, P (nested p f c)) (hdirects : ∀ c ∈ x.directs, P (f c)) :
    P (Script.stmtStep p f s x) := by
  have hroot : ∀ e ∈ x.exprs, p.IsRoot e := fun e he => .inl ⟨s, x, hs, he⟩
  cases x with
  | block b => exact hwithin _ _ rfl (h.each hdirects)
  | branch cond onTrue onFalse line =>
    exact h.seq _ _ (h.root cond (hroot cond (by simp [Stmt.exprs]))) (h.each hbodies)
  | whileLoop cond body line =>
    exact h.seq _ _ (h.root cond (hroot cond (by simp [Stmt.exprs])))
      (hbodies body (by simp [Stmt.bodies]))
  | doWhile body cond line =>
    exact h.seq _ _ (hbodies body (by simp [Stmt.bodies]))
      (h.root cond (hroot cond (by simp [Stmt.exprs])))
  | forLoop init cond advance body line =>
    exact hwithin _ _ rfl (h.seq _ _ (h.each hdirects)
      (h.seq _ _ (h.exprs hroot) (hbodies body (by simp [Stmt.bodies]))))
  | breakLoop line => exact h.skip
  | continueLoop line => exact h.skip
  | returnValue value line => exact h.exprs hroot
  | throwMessage e line => exact h.root e (hroot e (by simp [Stmt.exprs]))
  | deleteTarget e line => exact h.root e (hroot e (by simp [Stmt.exprs]))
  | switch value cases defaultBody line =>
    refine h.seq _ _ (h.root value (hroot value (by simp [Stmt.exprs]))) (h.seq _ _ ?_ ?_)
    · refine h.each fun c hc => ?_
      have hc' : c.1 ∈ cases := (List.mem_zipIdx' hc).2 ▸ List.getElem_mem _
      refine h.seq _ _ (h.exprs fun e he => hroot e ?_) (h.seq _ _ (hwithin _ _ rfl ?_)
        (h.exprs fun e he => hroot e ?_))
      · exact List.mem_cons_of_mem _ (List.mem_flatMap.mpr ⟨c.1, hc', List.mem_append_left _ he⟩)
      · exact h.each fun t ht =>
          hdirects t (List.mem_append_left _ (List.mem_flatMap.mpr ⟨c.1, hc', ht⟩))
      · exact List.mem_cons_of_mem _ (List.mem_flatMap.mpr ⟨c.1, hc', List.mem_append_right _ he⟩)
    · refine h.each fun body hb => hwithin _ _ rfl (h.each fun t ht => hdirects t ?_)
      obtain rfl := Option.mem_toList.mp hb
      exact List.mem_append_right _ ht
  | expr e line => exact h.root e (hroot e (by simp [Stmt.exprs]))
  | var v line => exact h.localVar (.inl ⟨s, _, hs, rfl⟩)

end Sequential

/-- A property that all parts of a script pass on to the whole. -/
structure Compositional (p : Program) (P : Script → Prop) : Prop extends Sequential p P where
  within : ∀ key body, P body → P (within key body)

namespace Compositional

variable {P : Script → Prop}

lemma nested (h : Compositional p P) {f : StmtId → Script} {s : StmtId} (hf : P (f s)) :
    P (Script.nested p f s) := by
  unfold Script.nested
  split
  · exact hf
  · exact h.within _ _ hf

lemma stmt (h : Compositional p P) (s : StmtId) : P (Script.stmt p s) := by
  have hwithin : ∀ depth s, P (stmtWithin p depth s) := by
    intro depth
    induction depth with
    | zero => exact fun _ => h.skip
    | succ depth ih =>
      intro s
      simp only [stmtWithin]
      cases hs : p.stmt? s with
      | none => exact h.skip
      | some x =>
        exact h.stmtStep hs (fun key body _ => h.within key body) (fun c _ => h.nested (ih c))
          fun c _ => ih c
  exact hwithin _ s

/-- What is compositional holds of the script of every class and enum. -/
lemma of_mem_scripts (h : Compositional p P) {x : ScopeId × Script} (hx : x ∈ p.scripts) :
    P x.2 := by
  have hmethod : ∀ s, P (method p s) := by
    intro s
    unfold method
    cases hm : (p.symbol? s).bind (·.method?) with
    | none => exact h.skip
    | some m =>
      obtain ⟨⟨n, line, kind⟩, hsym, hkind⟩ := Option.bind_eq_some_iff.mp hm
      obtain rfl : kind = .method m := by cases kind <;> simp_all [Symbol.method?]
      exact h.seq _ _ (h.exprs fun e he => .inr ⟨s, _, hsym, he⟩) (h.within _ _
        (h.seq _ _ (h.each fun v hv => h.localVar (.inr ⟨s, _, hsym, hv⟩))
          (h.each fun t _ => h.stmt t)))
  have hbody : ∀ s body, P (plainBody p s body) :=
    fun s body => h.within _ _ (h.each fun t _ => h.stmt t)
  have hconstructor : ∀ s, P (constructor p s) := by
    intro s
    unfold constructor
    split
    · exact h.skip
    · exact hbody s _
  obtain ⟨s, -, c, -, rfl⟩ | ⟨s, -, t, -, rfl⟩ := Program.scripts_cases hx
  · exact h.seq _ _ (h.each fun v _ => h.value v) (h.seq _ _ (h.each fun v _ => hconstructor v)
      (h.seq _ _ (h.each fun b _ => hbody s _) (h.each fun v _ => hmethod v)))
  · exact h.each fun v _ => h.value v

end Compositional

end Script

end NameBinding
