import NameBinding.Proofs.Checked.Names

/-!
The pass with every access checked. It gives nothing if it comes to an identifier that is not in its
table, or to the bottom of a recursion that goes on. Of a well-formed program it gives the state
that the pass ends in, whatever the symbols are that statements and methods name.
-/

namespace NameBinding

namespace Checked

variable (p : Program)

/-! ### Base classes -/

def bindBase (st : Pass) (s : SymbolId) : Option Pass := do
  let sym ← p.symbol? s
  match sym.baseClass? with
  | none => some st
  | some base =>
    if base.reference.isBound then some st
    else
      let own ← p.names.text? sym.name
      let name ← p.names.text? base.reference.name
      let top ← st.scopes.scope? ScopeTree.global
      match top.entries.get? base.reference.name with
      | some t =>
        let target ← p.symbol? t
        if target.class?.isSome then
          some ({ st with bindings.baseClasses := st.bindings.baseClasses.insert s t }.note
            (.base s t))
        else some (st.note (.fault ⟨.baseNotAClass own name target.kind.display, base.line, []⟩))
      | none =>
        let classes ← p.classes.mapM (symbolText p)
        some (st.note (.fault ⟨.unknownBase own name, base.line, classes⟩))

def checkCycle (st : Pass) (s : SymbolId) : Option Pass := do
  let sym ← p.symbol? s
  let own ← p.names.text? sym.name
  if ← isOwnAncestor p st.bindings s then
    some (st.note (.fault ⟨.cyclicInheritance own, sym.line, []⟩))
  else some st

def bases (st : Pass) : Option Pass := do
  let st ← p.classes.foldlM (bindBase p) st
  let st ← p.classes.foldlM (checkCycle p) st
  some (st.note (.basesDone st.bindings.baseClasses.size))

/-! ### Expressions -/

def bindOwn (scope : ScopeId) (st : Pass) (e : ExprId) : Option Pass := do
  match ← p.expr? e with
  | .ident r line => (lexical p st scope r line).map (st.settle e)
  | .select object r line => (selected p st object r line).map (st.settle e)
  | _ => some st

def exprWithin : Nat → ScopeId → Pass → ExprId → Option Pass
  | 0, _, _, _ => none
  | depth + 1, scope, st, e => do
    let x ← p.expr? e
    let st ← x.children.foldlM (exprWithin depth scope) (st.note (.expr e))
    bindOwn p scope st e

def expr (scope : ScopeId) (st : Pass) (e : ExprId) : Option Pass :=
  exprWithin p (e.index + 1) scope st e

def exprs (scope : ScopeId) (st : Pass) (es : List ExprId) : Option Pass :=
  es.foldlM (expr p scope) st

def value (scope : ScopeId) (st : Pass) (s : SymbolId) : Option Pass := do
  let sym ← p.symbol? s
  exprs p scope st ((sym.typedValue?.map TypedValue.exprs).getD [])

/-! ### Statements -/

def declare (scope : ScopeId) (st : Pass) (s : SymbolId) : Option Pass := do
  let sym ← p.symbol? s
  let _ ← st.scopes.scope? scope
  match st.scopes.add scope sym.name s with
  | .ok scopes => some { st with scopes }
  | .error existing =>
    let name ← p.names.text? sym.name
    let kept ← p.symbol? existing
    some (st.note (.fault ⟨.build (.duplicate name sym.line kept.line), sym.line, []⟩))

def localVar (scope : ScopeId) (st : Pass) (s : SymbolId) : Option Pass := do
  let st ← value p scope st s
  declare p scope st s

/-- Opens a scope under one that is there. -/
def openFor (scope : ScopeId) (st : Pass) (key : ScopeKey) : Option Pass := do
  let _ ← st.scopes.scope? scope
  some (st.openFor scope key)

section Statements

variable (stmt : ScopeId → Pass → StmtId → Option Pass)

def nested (scope : ScopeId) (st : Pass) (s : StmtId) : Option Pass := do
  let x ← p.stmt? s
  if x.isBlock then stmt scope st s
  else
    let inner : ScopeId := ⟨st.scopes.size⟩
    let st ← openFor scope st (.block s)
    let st ← stmt inner st s
    some (st.recordBlock s inner)

def clauseBody (scope : ScopeId) (st : Pass) (s : StmtId) (c : SwitchClause)
    (body : List StmtId) : Option Pass := do
  let inner : ScopeId := ⟨st.scopes.size⟩
  let st ← openFor scope st (.clause s c)
  let st ← body.foldlM (stmt inner) st
  some (st.recordClause s c inner)

def case (scope : ScopeId) (s : StmtId) (st : Pass) (c : Case × Nat) : Option Pass := do
  let st ← exprs p scope st c.1.values
  let st ← clauseBody stmt scope st s (.case c.2) c.1.body
  exprs p scope st c.1.fallthrough.toList

def stmtStep (scope : ScopeId) (st : Pass) (s : StmtId) : Stmt → Option Pass
  | .block b => do
    let inner : ScopeId := ⟨st.scopes.size⟩
    let st ← openFor scope st (.block s)
    let st ← b.statements.foldlM (stmt inner) st
    some (st.recordBlock s inner)
  | .branch cond onTrue onFalse _ => do
    let st ← expr p scope st cond
    (onTrue :: onFalse.toList).foldlM (nested p stmt scope) st
  | .whileLoop cond body _ => do
    let st ← expr p scope st cond
    nested p stmt scope st body
  | .doWhile body cond _ => do
    let st ← nested p stmt scope st body
    expr p scope st cond
  | .forLoop init cond advance body _ => do
    let inner : ScopeId := ⟨st.scopes.size⟩
    let st ← openFor scope st (.block s)
    let st ← init.toList.foldlM (stmt inner) st
    let st ← exprs p inner st (cond.toList ++ advance.toList)
    let st ← nested p stmt inner st body
    some (st.recordBlock s inner)
  | .breakLoop _ | .continueLoop _ => some st
  | .returnValue value _ => exprs p scope st value.toList
  | .throwMessage e _ | .deleteTarget e _ | .expr e _ => expr p scope st e
  | .switch value cases defaultBody _ => do
    let st ← expr p scope st value
    let st ← cases.zipIdx.foldlM (case p stmt scope s) st
    match defaultBody with
    | none => some st
    | some body => clauseBody stmt scope st s .default body
  | .var v _ => localVar p scope st v

end Statements

def stmtWithin : Nat → ScopeId → Pass → StmtId → Option Pass
  | 0, _, _, _ => none
  | depth + 1, scope, st, s => do
    let x ← p.stmt? s
    stmtStep p (stmtWithin depth) scope st s x

def stmt (scope : ScopeId) (st : Pass) (s : StmtId) : Option Pass :=
  stmtWithin p (s.index + 1) scope st s

/-! ### Types -/

def method (scope : ScopeId) (st : Pass) (s : SymbolId) : Option Pass := do
  let sym ← p.symbol? s
  match sym.method? with
  | none => some st
  | some m =>
    let st ← exprs p scope st m.returnType.toList
    let inner : ScopeId := ⟨st.scopes.size⟩
    let st ← openFor scope st (.method s)
    let st ← m.parameters.foldlM (localVar p inner) st
    m.callable.body.toList.foldlM (stmt p inner) st

/-- The statements of a constructor or of a destructor, in a scope of their own. -/
def plainBody (scope : ScopeId) (s : SymbolId) (st : Pass) (body : List StmtId) : Option Pass := do
  let inner : ScopeId := ⟨st.scopes.size⟩
  let st ← openFor scope st (.method s)
  body.foldlM (stmt p inner) st

def constructor (scope : ScopeId) (st : Pass) (s : SymbolId) : Option Pass := do
  let sym ← p.symbol? s
  match sym.constructor? with
  | none => some st
  | some c => plainBody p scope s st c.body.toList

def classType (st : Pass) (s : SymbolId) : Option Pass := do
  let sym ← p.symbol? s
  match sym.class? with
  | none => some st
  | some c =>
    let st ← (c.consts ++ c.fields).foldlM (value p c.scope) st
    let st ← c.constructor.toList.foldlM (constructor p c.scope) st
    let st ← c.destructor.toList.foldlM (fun st b => plainBody p c.scope s st b.statements) st
    c.methods.foldlM (method p c.scope) st

def enumType (st : Pass) (s : SymbolId) : Option Pass := do
  let sym ← p.symbol? s
  match sym.enum? with
  | none => some st
  | some t =>
    let sc ← p.scopes.scope? t.scope
    sc.symbols.foldlM (value p t.scope) st

def run : Option Pass := do
  let st ← bases p { scopes := p.scopes }
  let st ← p.classes.foldlM (classType p) st
  let st ← p.enums.foldlM (enumType p) st
  some (st.note (.bodiesDone st.bindings.references.size st.scopes.size))

end Checked

/-! ### Steps that end -/

/-- A checked step from `st` ends in the state `st'`, and there is sound again. -/
structure Pass.Ends (p : Program) (st : Pass) (r : Option Pass) (st' : Pass) : Prop where
  eq : r = some st'
  sound : st'.Sound p
  size : st.scopes.size ≤ st'.scopes.size

namespace Pass

variable {p : Program} {st st' st'' : Pass} {scope : ScopeId}

lemma Sound.ends (h : st.Sound p) : Ends p st (some st) st := ⟨rfl, h, le_rfl⟩

lemma Ends.bind {r : Option Pass} {f : Pass → Option Pass} (h : Ends p st r st')
    (hf : st'.Sound p → st.scopes.size ≤ st'.scopes.size → Ends p st' (f st') st'') :
    Ends p st (r.bind f) st'' := by
  have hrest := hf h.sound h.size
  refine ⟨?_, hrest.sound, h.size.trans hrest.size⟩
  rw [h.eq, Option.bind_some, hrest.eq]

/-- Steps one after the other end, if each does from any later state. -/
lemma Ends.foldl {α : Type} {f : Pass → α → Option Pass} {g : Pass → α → Pass} {xs : List α}
    (hst : st.Sound p) (h : ∀ x ∈ xs, ∀ st' : Pass, st'.Sound p →
      st.scopes.size ≤ st'.scopes.size → Ends p st' (f st' x) (g st' x)) :
    Ends p st (xs.foldlM f st) (xs.foldl g st) := by
  induction xs generalizing st with
  | nil => exact hst.ends
  | cons x xs ih =>
    obtain ⟨hx, hxs⟩ := List.forall_mem_cons.mp h
    rw [List.foldlM_cons, List.foldl_cons]
    exact (hx st hst le_rfl).bind fun hst' hle =>
      ih hst' fun y hy st'' hst'' hle' => hxs y hy st'' hst'' (hle.trans hle')

lemma Ends.of_size {r : Option Pass} (h : Ends p st r st'')
    (hle : st'.scopes.size ≤ st.scopes.size) : Ends p st' r st'' :=
  ⟨h.eq, h.sound, hle.trans h.size⟩

/-- A checked step on `x` ends as the step of the pass, in any scope that is there. -/
def Agrees {α : Type} (p : Program) (f : ScopeId → Pass → α → Option Pass)
    (g : ScopeId → Pass → α → Pass) (x : α) : Prop :=
  ∀ (scope : ScopeId) (st : Pass), st.Sound p → scope.index < st.scopes.size →
    Ends p st (f scope st x) (g scope st x)

lemma Agrees.foldl {α : Type} {f : ScopeId → Pass → α → Option Pass} {g : ScopeId → Pass → α → Pass}
    {xs : List α} (h : ∀ x ∈ xs, Agrees p f g x) (hst : st.Sound p)
    (hscope : scope.index < st.scopes.size) :
    Ends p st (xs.foldlM (f scope) st) (xs.foldl (g scope) st) :=
  Ends.foldl hst fun x hx st' hst' hle => h x hx scope st' hst' (hscope.trans_le hle)

/-! ### Single changes -/

section Changes

variable (h : st.Sound p)
include h

lemma Sound.note (x : Entry) : (st.note x).Sound p := ⟨h.scopes, h.size, h.references, h.bases⟩

lemma Sound.settle {e : ExprId} {b : Binding}
    (hb : ∀ t, b.target? = some t → t.index < p.symbols.size) : (st.settle e b).Sound p := by
  refine ⟨by rw [scopes_settle]; exact h.scopes, by rw [scopes_settle]; exact h.size, ?_,
    by rw [baseClasses_settle]; exact h.bases⟩
  intro e' t ht
  rw [references_settle, Option.or_eq_some_iff] at ht
  rcases ht with ht | ⟨-, ht⟩
  · simp only [Entry.target?] at ht
    split at ht
    · exact hb t ht
    · simp at ht
  · exact h.references e' t ht

lemma Sound.openFor (hscope : scope.index < st.scopes.size) (key : ScopeKey) :
    (st.openFor scope key).Sound p := by
  refine ⟨fun s sc hs => ?_, ?_, by rw [references_openFor]; exact h.references,
    by rw [baseClasses_openFor]; exact h.bases⟩
  · rw [scopes_openFor, ScopeTree.scope?_addChild] at hs
    split at hs
    · -- the new scope has a parent and no entries
      next hnew =>
      obtain rfl := Option.some.inj hs
      refine ⟨fun q hq => ?_, by simp [OrderedMap.empty]⟩
      obtain rfl : q = scope := by simpa using hq
      exact hscope.trans_eq hnew.symm
    · exact h.scopes s sc hs
  · rw [scopes_openFor, ScopeTree.size_addChild]
    exact h.size.trans (Nat.le_succ _)

lemma Sound.closeFor (inner : ScopeId) (key : ScopeKey) : (st.closeFor inner key).Sound p :=
  ⟨by rw [scopes_closeFor]; exact h.scopes, by rw [scopes_closeFor]; exact h.size,
    by rw [references_closeFor]; exact h.references,
    by rw [baseClasses_closeFor]; exact h.bases⟩

lemma Sound.add {t : ScopeTree} {n : Name} {v : SymbolId} (ht : st.scopes.add scope n v = .ok t)
    (hn : n.key < p.names.size) (hv : v.index < p.symbols.size) :
    Sound p { st with scopes := t } := by
  refine ⟨fun s sc hs => ?_, h.size.trans_eq (ScopeTree.size_add ht).symm, h.references, h.bases⟩
  have hs' : t.scope? s = some sc := hs
  rw [ScopeTree.scope?_add ht] at hs'
  split at hs'
  · obtain ⟨old, hold, rfl⟩ := Option.map_eq_some_iff.mp hs'
    obtain ⟨hparent, hentries⟩ := h.scopes s old hold
    refine ⟨hparent, fun x hx => ?_⟩
    rcases OrderedMap.mem_insertIfNew hx with hx | rfl
    · exact hentries x hx
    · exact ⟨hn, hv⟩
  · exact h.scopes s sc hs'

lemma Sound.closed (inner : ScopeId) (key : ScopeKey) :
    Ends p st (some (st.closeFor inner key)) (st.closeFor inner key) :=
  ⟨rfl, h.closeFor inner key, by rw [scopes_closeFor]⟩

/-- What is run in a scope of its own ends, if it does in the new scope. -/
lemma Sound.within (hscope : scope.index < st.scopes.size) (key : ScopeKey)
    {f : Pass → Option Pass} (hbody : ∀ st' : Pass, st' = st.openFor scope key → st'.Sound p →
      st.scopes.size < st'.scopes.size → Ends p st' (f st') st'') :
    Ends p st ((Checked.openFor scope st key).bind f) st'' := by
  obtain ⟨sc, hsc⟩ := ScopeTree.scope?_of_lt hscope
  have hopen : Checked.openFor scope st key = some (st.openFor scope key) := by
    simp [Checked.openFor, hsc]
  have hlt : st.scopes.size < (st.openFor scope key).scopes.size := by
    rw [scopes_openFor, ScopeTree.size_addChild]
    exact Nat.lt_succ_self _
  rw [hopen, Option.bind_some]
  exact (hbody _ rfl (h.openFor hscope key) hlt).of_size hlt.le

end Changes

/-! ### Expressions -/

section Program

variable (hp : p.WellFormed)
include hp

lemma agrees_bindOwn {e : ExprId} (he : e.index < p.exprs.size) :
    Agrees p (Checked.bindOwn p) (bindOwn p) e := by
  intro scope st h hscope
  obtain ⟨x, hx⟩ := Program.exists_expr he
  obtain ⟨hchildren, href⟩ := hp.allocated.exprs e x hx
  cases x with
  | ident r line =>
    have hname : r.name.key < p.names.size := (href r (by simp [Expr.reference?])).1
    rw [bindOwn_ident hx]
    refine ⟨by simp [Checked.bindOwn, hx, h.lexical_eq hscope hname], h.settle fun t ht => ?_,
      by rw [scopes_settle]⟩
    obtain ⟨s, hs⟩ := declared?_of_lexical ht
    exact h.lt_of_declared? hs
  | select object r line =>
    have hname : r.name.key < p.names.size := (href r (by simp [Expr.reference?])).1
    have hobject : object.index < e.index := hchildren object (by simp [Expr.children])
    rw [bindOwn_select hx]
    refine ⟨by simp [Checked.bindOwn, hx, h.selected_eq hp (hobject.trans he) hname],
      h.settle fun t ht => ?_, by rw [scopes_settle]⟩
    obtain ⟨s, hs⟩ := declared?_of_selected ht
    exact h.lt_of_declared? hs
  | _ =>
    simp only [Checked.bindOwn, bindOwn, hx, Option.bind_eq_bind, Option.bind_some]
    exact h.ends

/-- Operands have smaller indices, so that the recursion ends above its bottom. -/
lemma agrees_exprWithin {depth : Nat} {e : ExprId} (hd : e.index < depth)
    (he : e.index < p.exprs.size) :
    Agrees p (Checked.exprWithin p depth) (exprWithin p depth) e := by
  induction depth generalizing e with
  | zero => omega
  | succ depth ih =>
    intro scope st h hscope
    obtain ⟨x, hx⟩ := Program.exists_expr he
    have hlt : ∀ c ∈ x.children, c.index < e.index := (hp.allocated.exprs e x hx).1
    simp only [Checked.exprWithin, exprWithin, hx, Option.bind_eq_bind, Option.bind_some,
      Option.map_some, Option.getD_some]
    -- operands are resolved first, from the state that has the expression noted
    have hoperands : ∀ c ∈ x.children,
        Agrees p (Checked.exprWithin p depth) (exprWithin p depth) c := by
      intro c hc
      have hc' := hlt c hc
      exact ih (by omega) (hc'.trans he)
    have hnoted := Agrees.foldl hoperands (h.note (.expr e)) hscope
    refine (hnoted.bind fun hst hle => ?_).of_size le_rfl
    exact agrees_bindOwn hp he scope _ hst (hscope.trans_le hle)

lemma agrees_expr {e : ExprId} (he : e.index < p.exprs.size) :
    Agrees p (Checked.expr p) (expr p) e :=
  agrees_exprWithin hp (Nat.lt_succ_self _) he

lemma agrees_exprs {es : List ExprId} (hes : ∀ e ∈ es, e.index < p.exprs.size) :
    Agrees p (Checked.exprs p) (exprs p) es :=
  fun _ _ h hscope => Agrees.foldl (fun e he => agrees_expr hp (hes e he)) h hscope

lemma agrees_value {v : SymbolId} (hv : v.index < p.symbols.size) :
    Agrees p (Checked.value p) (value p) v := by
  intro scope st h hscope
  obtain ⟨sym, hsym⟩ := Program.exists_symbol hv
  have hexprs := (hp.allocated.symbols v sym hsym).2.1
  simp only [Checked.value, value, Program.typedValue?, hsym, Option.bind_eq_bind,
    Option.bind_some]
  refine agrees_exprs hp (fun e he => hexprs e ?_) scope st h hscope
  cases hvalue : sym.typedValue? with
  | none => simp [hvalue] at he
  | some value => simpa [hvalue, Symbol.exprs_of_typedValue? hvalue] using he

/-! ### Statements -/

lemma agrees_declare {v : SymbolId} (hv : v.index < p.symbols.size) :
    Agrees p (Checked.declare p) (declare p) v := by
  intro scope st h hscope
  obtain ⟨sym, hsym⟩ := Program.exists_symbol hv
  obtain ⟨sc, hsc⟩ := ScopeTree.scope?_of_lt hscope
  have hname := (hp.allocated.symbols v sym hsym).1
  simp only [Checked.declare, declare, hsym, hsc, Option.bind_eq_bind, Option.bind_some]
  cases hadd : st.scopes.add scope sym.name v with
  | ok t => exact ⟨rfl, h.add hadd hname hv, (ScopeTree.size_add hadd).ge⟩
  | error existing =>
    have hdeclared := ScopeTree.add_eq_error_iff.mp hadd
    obtain ⟨kept, hkept⟩ := Program.exists_symbol (h.lt_of_declared? hdeclared)
    simp only [Program.text?_of_lt hname, hkept, Option.bind_some, Program.duplicate,
      Program.symbolLine, Option.map_some, Option.getD_some]
    exact ⟨rfl, h.note _, le_rfl⟩

lemma agrees_localVar {v : SymbolId} (hv : v.index < p.symbols.size) :
    Agrees p (Checked.localVar p) (localVar p) v := fun scope st h hscope =>
  (agrees_value hp hv scope st h hscope).bind fun hst hle =>
    agrees_declare hp hv scope _ hst (hscope.trans_le hle)

section Statements

variable {f : ScopeId → Pass → StmtId → Option Pass} {g : ScopeId → Pass → StmtId → Pass}

omit hp in
lemma agrees_nested {s : StmtId} (hs : s.index < p.stmts.size) (hf : Agrees p f g s) :
    Agrees p (Checked.nested p f) (nested p g) s := by
  intro scope st h hscope
  obtain ⟨x, hx⟩ := Program.exists_stmt hs
  simp only [Checked.nested, nested, hx, Option.bind_eq_bind, Option.bind_some, Option.map_some,
    Option.getD_some]
  split
  · exact hf scope st h hscope
  · refine h.within hscope (.block s) ?_
    rintro _ rfl hst hlt
    exact (hf _ _ hst hlt).bind fun hst' _ => hst'.closed _ (.block s)

omit hp in
lemma ends_clauseBody {body : List StmtId} (hf : ∀ t ∈ body, Agrees p f g t) (h : st.Sound p)
    (hscope : scope.index < st.scopes.size) (s : StmtId) (c : SwitchClause) :
    Ends p st (Checked.clauseBody f scope st s c body) (clauseBody g scope st s c body) := by
  refine h.within hscope (.clause s c) ?_
  rintro _ rfl hst hlt
  exact (Agrees.foldl hf hst hlt).bind fun hst' _ => hst'.closed _ (.clause s c)

lemma agrees_case {c : Case × Nat}
    (hexprs : ∀ e ∈ c.1.values ++ c.1.fallthrough.toList, e.index < p.exprs.size)
    (hf : ∀ t ∈ c.1.body, Agrees p f g t) (s : StmtId) :
    Agrees p (Checked.case p f · s) (case p g · s) c := by
  intro scope st h hscope
  obtain ⟨hvalues, hfall⟩ := List.forall_mem_append.mp hexprs
  refine (agrees_exprs hp hvalues scope st h hscope).bind fun hst hle => ?_
  have hscope := hscope.trans_le hle
  refine (ends_clauseBody hf hst hscope s (.case c.2)).bind fun hst' hle' => ?_
  exact agrees_exprs hp hfall scope _ hst' (hscope.trans_le hle')

/-- A statement ends as in the pass, if those below it do. -/
lemma ends_stmtStep {x : Stmt} (hx : x.Within p.extent) (hf : ∀ c ∈ x.children, Agrees p f g c)
    (h : st.Sound p) (hscope : scope.index < st.scopes.size) (s : StmtId) :
    Ends p st (Checked.stmtStep p f scope st s x) (stmtStep p g scope st s x) := by
  obtain ⟨hchildren, hexprs, hdeclared⟩ := hx
  have hnested : ∀ c ∈ x.children, Agrees p (Checked.nested p f) (nested p g) c :=
    fun c hc => agrees_nested (hchildren c hc) (hf c hc)
  have hexpr : ∀ e ∈ x.exprs, Agrees p (Checked.expr p) (expr p) e :=
    fun e he => agrees_expr hp (hexprs e he)
  cases x with
  | block b =>
    refine h.within hscope (.block s) ?_
    rintro _ rfl hst hlt
    exact (Agrees.foldl hf hst hlt).bind fun hst' _ => hst'.closed _ (.block s)
  | branch cond onTrue onFalse line =>
    refine (hexpr cond (by simp [Stmt.exprs]) scope st h hscope).bind fun hst hle => ?_
    exact Agrees.foldl hnested hst (hscope.trans_le hle)
  | whileLoop cond body line =>
    refine (hexpr cond (by simp [Stmt.exprs]) scope st h hscope).bind fun hst hle => ?_
    exact hnested body (by simp [Stmt.children]) scope _ hst (hscope.trans_le hle)
  | doWhile body cond line =>
    refine (hnested body (by simp [Stmt.children]) scope st h hscope).bind fun hst hle => ?_
    exact hexpr cond (by simp [Stmt.exprs]) scope _ hst (hscope.trans_le hle)
  | forLoop init cond advance body line =>
    obtain ⟨hinit, hbody⟩ := List.forall_mem_append.mp hf
    refine h.within hscope (.block s) ?_
    rintro _ rfl hst hlt
    refine (Agrees.foldl hinit hst hlt).bind fun hst' hle => ?_
    have hlt := hlt.trans_le hle
    refine (Agrees.foldl hexpr hst' hlt).bind fun hst' hle => ?_
    have hlt := hlt.trans_le hle
    exact (hnested body (by simp [Stmt.children]) _ _ hst' hlt).bind fun hst' _ =>
      hst'.closed _ (.block s)
  | breakLoop line => exact h.ends
  | continueLoop line => exact h.ends
  | returnValue value line => exact Agrees.foldl hexpr h hscope
  | throwMessage e line => exact hexpr e (by simp [Stmt.exprs]) scope st h hscope
  | deleteTarget e line => exact hexpr e (by simp [Stmt.exprs]) scope st h hscope
  | expr e line => exact hexpr e (by simp [Stmt.exprs]) scope st h hscope
  | switch value cases defaultBody line =>
    obtain ⟨hcaseBodies, hdefault⟩ := List.forall_mem_append.mp hf
    have hcases : ∀ c ∈ cases.zipIdx, Agrees p (Checked.case p f · s) (case p g · s) c := by
      intro c hc
      have hmem : c.1 ∈ cases := List.fst_mem_of_mem_zipIdx hc
      refine agrees_case hp (fun e he => hexprs e ?_) (fun t ht => hcaseBodies t ?_) s
      · exact List.mem_cons_of_mem _ (List.mem_flatMap.mpr ⟨c.1, hmem, he⟩)
      · exact List.mem_flatMap.mpr ⟨c.1, hmem, ht⟩
    refine (hexpr value (by simp [Stmt.exprs]) scope st h hscope).bind fun hst hle => ?_
    have hscope := hscope.trans_le hle
    refine (Agrees.foldl hcases hst hscope).bind fun hst' hle' => ?_
    cases defaultBody with
    | none => exact hst'.ends
    | some body => exact ends_clauseBody hdefault hst' (hscope.trans_le hle') s .default
  | var v line =>
    exact agrees_localVar hp (hdeclared v (by simp [Stmt.declared?])) scope st h hscope

end Statements

/-- Statements below have smaller indices, so that the recursion ends above its bottom. -/
lemma agrees_stmtWithin {depth : Nat} {s : StmtId} (hd : s.index < depth)
    (hs : s.index < p.stmts.size) :
    Agrees p (Checked.stmtWithin p depth) (stmtWithin p depth) s := by
  induction depth generalizing s with
  | zero => omega
  | succ depth ih =>
    intro scope st h hscope
    obtain ⟨x, hx⟩ := Program.exists_stmt hs
    have hwithin := hp.allocated.stmts s x hx
    have hlt : ∀ c ∈ x.children, c.index < s.index := hwithin.1
    simp only [Checked.stmtWithin, stmtWithin, hx, Option.bind_eq_bind, Option.bind_some]
    refine ends_stmtStep hp (hwithin.mono ⟨le_rfl, le_rfl, hs.le, le_rfl, le_rfl⟩)
      (fun c hc => ih ?_ ((hlt c hc).trans hs)) h hscope s
    have := hlt c hc
    omega

lemma agrees_stmt {s : StmtId} (hs : s.index < p.stmts.size) :
    Agrees p (Checked.stmt p) (stmt p) s :=
  agrees_stmtWithin hp (Nat.lt_succ_self _) hs

/-! ### Types -/

lemma agrees_method {v : SymbolId} (hv : v.index < p.symbols.size) :
    Agrees p (Checked.method p) (method p) v := by
  intro scope st h hscope
  obtain ⟨sym, hsym⟩ := Program.exists_symbol hv
  obtain ⟨-, hexprs, hstmts, hsymbols, -⟩ := hp.allocated.symbols v sym hsym
  simp only [Checked.method, method, hsym, Option.bind_eq_bind, Option.bind_some]
  cases hm : sym.method? with
  | none => exact h.ends
  | some m =>
    obtain ⟨n, line, kind⟩ := sym
    obtain rfl : kind = .method m := by cases kind <;> simp_all [Symbol.method?]
    refine (agrees_exprs hp hexprs scope st h hscope).bind fun hst hle => ?_
    refine hst.within (hscope.trans_le hle) (.method v) ?_
    rintro _ rfl hst' hlt
    have hparameters := Agrees.foldl (fun u hu => agrees_localVar hp (hsymbols u hu)) hst' hlt
    refine hparameters.bind fun hst'' hle' => ?_
    exact Agrees.foldl (fun t ht => agrees_stmt hp (hstmts t ht)) hst'' (hlt.trans_le hle')

lemma ends_plainBody {body : List StmtId} (hbody : ∀ t ∈ body, t.index < p.stmts.size)
    (h : st.Sound p) (hscope : scope.index < st.scopes.size) (v : SymbolId) :
    Ends p st (Checked.plainBody p scope v st body)
      (body.foldl (stmt p ⟨st.scopes.size⟩) (st.openFor scope (.method v))) := by
  refine h.within hscope (.method v) ?_
  rintro _ rfl hst hlt
  exact Agrees.foldl (fun t ht => agrees_stmt hp (hbody t ht)) hst hlt

lemma agrees_constructor {v : SymbolId} (hv : v.index < p.symbols.size) :
    Agrees p (Checked.constructor p) (constructor p) v := by
  intro scope st h hscope
  obtain ⟨sym, hsym⟩ := Program.exists_symbol hv
  obtain ⟨-, -, hstmts, -⟩ := hp.allocated.symbols v sym hsym
  simp only [Checked.constructor, constructor, hsym, Option.bind_eq_bind, Option.bind_some]
  cases hc : sym.constructor? with
  | none => exact h.ends
  | some c =>
    obtain ⟨n, line, kind⟩ := sym
    obtain rfl : kind = .constructor c := by cases kind <;> simp_all [Symbol.constructor?]
    exact ends_plainBody hp hstmts h hscope v

lemma ends_classType {v : SymbolId} (hv : v.index < p.symbols.size) (h : st.Sound p) :
    Ends p st (Checked.classType p st v) (classType p st v) := by
  obtain ⟨sym, hsym⟩ := Program.exists_symbol hv
  obtain ⟨-, -, hstmts, hsymbols, hscope, -⟩ := hp.allocated.symbols v sym hsym
  simp only [Checked.classType, classType, Program.class?, hsym, Option.bind_eq_bind,
    Option.bind_some]
  cases hc : sym.class? with
  | none => exact h.ends
  | some c =>
    obtain ⟨n, line, kind⟩ := sym
    obtain rfl : kind = .classType c := by cases kind <;> simp_all [Symbol.class?]
    have hscope : c.scope.index < st.scopes.size :=
      (hscope c.scope (by simp [Symbol.scope?])).trans_le h.size
    have hmember : ∀ u ∈ c.constructor.toList ++ c.consts ++ c.fields ++ c.methods,
        u.index < p.symbols.size := hsymbols
    simp only [List.forall_mem_append] at hmember
    obtain ⟨⟨⟨hconstructor, hconsts⟩, hfields⟩, hmethods⟩ := hmember
    have hvalues := List.forall_mem_append.mpr ⟨hconsts, hfields⟩
    -- the statements of a destructor stand in the class symbol itself
    have hdestructor : ∀ b ∈ c.destructor.toList, Agrees p
        (fun scope st b => Checked.plainBody p scope v st b.statements) (destructor p · v) b := by
      intro b hb scope st h hscope
      refine ends_plainBody hp (fun t ht => hstmts t ?_) h hscope v
      simpa [SymbolKind.stmts, Option.mem_toList.mp hb] using ht
    refine (Agrees.foldl (fun u hu => agrees_value hp (hvalues u hu)) h hscope).bind
      fun hst hle => ?_
    have hscope := hscope.trans_le hle
    refine (Agrees.foldl (fun u hu => agrees_constructor hp (hconstructor u hu)) hst hscope).bind
      fun hst hle => ?_
    have hscope := hscope.trans_le hle
    refine (Agrees.foldl hdestructor hst hscope).bind fun hst hle => ?_
    exact Agrees.foldl (fun u hu => agrees_method hp (hmethods u hu)) hst (hscope.trans_le hle)

lemma ends_enumType {v : SymbolId} (hv : v.index < p.symbols.size) (h : st.Sound p) :
    Ends p st (Checked.enumType p st v) (enumType p st v) := by
  obtain ⟨sym, hsym⟩ := Program.exists_symbol hv
  obtain ⟨-, -, -, -, hscope, -⟩ := hp.allocated.symbols v sym hsym
  simp only [Checked.enumType, enumType, hsym, Option.bind_eq_bind, Option.bind_some]
  cases ht : sym.enum? with
  | none => exact h.ends
  | some t =>
    obtain ⟨n, line, kind⟩ := sym
    obtain rfl : kind = .enumType t := by cases kind <;> simp_all [Symbol.enum?]
    have hscope : t.scope.index < p.scopes.size := hscope t.scope (by simp [Symbol.scope?])
    obtain ⟨sc, hsc⟩ := ScopeTree.scope?_of_lt hscope
    have hmembers : p.members t.scope = sc.symbols := by
      simp [Program.members, ScopeTree.symbols, hsc]
    simp only [hsc, Option.bind_some, hmembers]
    refine Agrees.foldl (fun u hu => agrees_value hp ?_) h (hscope.trans_le h.size)
    obtain ⟨x, hx, rfl⟩ := List.mem_map.mp hu
    exact ((hp.allocated.scopes t.scope sc hsc).2 x hx).2

end Program

/-! ### The whole pass -/

section Run

variable (hp : p.WellFormed)
include hp

lemma ends_bindBase {v : SymbolId} (hv : v.index < p.symbols.size) (h : st.Sound p) :
    Ends p st (Checked.bindBase p st v) (bindBase p st v) := by
  obtain ⟨sym, hsym⟩ := Program.exists_symbol hv
  obtain ⟨hname, -, -, -, -, hbase⟩ := hp.allocated.symbols v sym hsym
  obtain ⟨top, htop⟩ := h.exists_global hp.listed
  have hclasses : p.classes.mapM (Checked.symbolText p) = some (p.classes.map p.symbolText) :=
    mapM_eq_map fun s hs =>
      hp.allocated.symbolText_eq (hp.listed.lt_of_mem (List.mem_append_left _ hs))
  simp only [Checked.bindBase, bindBase, hsym, Option.bind_eq_bind, Option.bind_some]
  cases hb : sym.baseClass? with
  | none => exact h.ends
  | some base =>
    have hkey : base.reference.name.key < p.names.size := (hbase base (by simp [hb])).1
    by_cases hbound : base.reference.isBound
    · simp only [if_pos hbound]
      exact h.ends
    · have hdeclared : st.scopes.declared? ScopeTree.global base.reference.name =
          top.entries.get? base.reference.name := by simp [ScopeTree.declared?, htop]
      simp only [if_neg hbound, Program.text?_of_lt hname, Program.text?_of_lt hkey, htop,
        hdeclared, Option.bind_some]
      cases ht : top.entries.get? base.reference.name with
      | none =>
        simp only [hclasses, Option.bind_some]
        exact ⟨by simp [Program.symbolText, hsym], h.note _, le_rfl⟩
      | some t =>
        obtain ⟨target, htarget⟩ :=
          Program.exists_symbol (h.lt_of_declared? (hdeclared.trans ht))
        simp only [htarget, Option.bind_some, Program.class?]
        split
        · refine ⟨rfl, Sound.note ?_ _, le_rfl⟩
          refine ⟨h.scopes, h.size, h.references, fun s u hu => ?_⟩
          rw [OrderedMap.get?_insert] at hu
          split at hu
          · obtain rfl := Option.some.inj hu
            exact Program.lt_of_symbol? htarget
          · exact h.bases s u hu
        · exact ⟨by simp [Program.symbolText, hsym], h.note _, le_rfl⟩

lemma ends_checkCycle {v : SymbolId} (hv : v.index < p.symbols.size) (h : st.Sound p) :
    Ends p st (Checked.checkCycle p st v) (checkCycle p st v) := by
  obtain ⟨sym, hsym⟩ := Program.exists_symbol hv
  have hname := Program.text?_of_lt (hp.allocated.symbols v sym hsym).1
  simp only [Checked.checkCycle, checkCycle, hsym, hname, h.isOwnAncestor_eq hp hv,
    Option.bind_eq_bind, Option.bind_some, Program.symbolText, Program.symbolLine, Option.map_some,
    Option.getD_some]
  split
  · exact ⟨rfl, h.note _, le_rfl⟩
  · exact h.ends

omit hp in
lemma sound_start (hp : p.Allocated) : Sound p { scopes := p.scopes } :=
  ⟨hp.scopes, le_rfl, by simp, by simp⟩

/-- Of a well-formed program, the pass ends without coming to anything that is not there. -/
lemma ends_run : Ends p { scopes := p.scopes } (Checked.run p) (run p) := by
  have hclass : ∀ v ∈ p.classes, v.index < p.symbols.size :=
    fun v hv => hp.listed.lt_of_mem (List.mem_append_left _ hv)
  have henum : ∀ v ∈ p.enums, v.index < p.symbols.size :=
    fun v hv => hp.listed.lt_of_mem (List.mem_append_right _ hv)
  have hbases : Ends p { scopes := p.scopes } (Checked.bases p { scopes := p.scopes })
      (bases p { scopes := p.scopes }) := by
    refine (Ends.foldl (sound_start hp.allocated) fun v hv st' hst' _ =>
      ends_bindBase hp (hclass v hv) hst').bind fun hst _ => ?_
    refine (Ends.foldl hst fun v hv st' hst' _ => ends_checkCycle hp (hclass v hv) hst').bind
      fun hst _ => ?_
    exact ⟨rfl, hst.note _, le_rfl⟩
  refine hbases.bind fun hst _ => ?_
  refine (Ends.foldl hst fun v hv st' hst' _ => ends_classType hp (hclass v hv) hst').bind
    fun hst _ => ?_
  refine (Ends.foldl hst fun v hv st' hst' _ => ends_enumType hp (henum v hv) hst').bind
    fun hst _ => ?_
  exact ⟨rfl, hst.note _, le_rfl⟩

end Run

/-- A class that is not in the table is noticed. -/
example : Checked.run { Program.new with classes := [⟨7⟩] } = none := by decide

end Pass

end NameBinding
