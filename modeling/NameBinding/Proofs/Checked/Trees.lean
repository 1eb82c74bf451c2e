import NameBinding.Outline.Tree
import NameBinding.Proofs.Checked.Names
import NameBinding.Proofs.WalkVisits

/-!
The walk and the outline with every access checked. They give nothing if they come to an identifier
that is not in its table, or if the text of an expression does not end within its bound. Of a
well-formed program they give what the walk and the outline give, and nothing where these give
nothing.
-/

namespace NameBinding

lemma gather_congr {α β : Type} {f g : α → Option (List β)} {xs : List α}
    (h : ∀ x ∈ xs, f x = g x) : gather f xs = gather g xs := by
  induction xs with
  | nil => rfl
  | cons x xs ih =>
    obtain ⟨hx, hxs⟩ := List.forall_mem_cons.mp h
    rw [gather_cons, gather_cons, hx, ih hxs]

/-- All or nothing, of at most one. -/
lemma mapM_option_eq {α β : Type} {f : α → Option β} {g : α → β} {x : Option α}
    (h : ∀ a ∈ x.toList, f a = some (g a)) : x.mapM f = some (x.map g) := by
  cases x with
  | none => rfl
  | some a => simp [h a (by simp)]

namespace Checked

variable (p : Program)

/-! ### The walk -/

def symbolParts (s : Symbol) : Option (List Node) :=
  match s.kind with
  | .enumType t => (p.scopes.scope? t.scope).map fun sc => sc.symbols.map .symbol
  | _ => some (p.symbolParts s)

def parts (place : Place) : Option (List Place) :=
  match place.node with
  | .symbol s => do
    let sym ← p.symbol? s
    let nodes ← symbolParts p sym
    some (nodes.map fun n => { node := n, clause := place.clause })
  | .stmt s => (p.stmt? s).map fun _ => p.parts place
  | .case .. => some (p.parts place)
  | .expr e => (p.expr? e).map fun _ => p.parts place
  | .reference e n => do
    let _ ← p.expr? e
    let _ ← p.names.text? n
    some []
  | .gotoDefault e => (p.expr? e).map fun _ => []

def visit : Nat → Place → Option (List Place)
  | 0, _ => none
  | depth + 1, place => do
    let below ← parts p place
    let places ← gather (visit depth) below
    some (place :: places)

def walk : Option (List Place) := gather (fun n => visit p p.depth { node := n }) p.roots

/-! ### The outline -/

def referenceText (r : Reference) : Option String := do
  let name ← p.names.text? r.name
  match r.target? with
  | some t =>
    let sym ← p.symbol? t
    some (name ++ "@" ++ sym.line.number.toNat.repr)
  | none => some (name ++ "?")

def exprTextWithin : Nat → ExprId → Option String
  | 0, _ => none
  | depth + 1, e => do
    let sub := exprTextWithin depth
    match ← p.expr? e with
    | .literal v _ => some v.outline
    | .ident r _ => referenceText p r
    | .unary op .before x _ => return "(" ++ op.symbol ++ (← sub x) ++ ")"
    | .unary op .after x _ => return "(" ++ (← sub x) ++ op.symbol ++ ")"
    | .binary .index l r _ => return (← sub l) ++ "[" ++ (← sub r) ++ "]"
    | .binary op l r _ => return "(" ++ (← sub l) ++ " " ++ op.symbol ++ " " ++ (← sub r) ++ ")"
    | .conditional c t f _ =>
      return "(" ++ (← sub c) ++ " ? " ++ (← sub t) ++ " : " ++ (← sub f) ++ ")"
    | .select o r _ => return (← sub o) ++ "." ++ (← referenceText p r)
    | .list items _ => return "[" ++ ", ".intercalate (← items.mapM sub) ++ "]"
    | .gotoDefault _ => some "goto default"

def exprText (e : ExprId) : Option String := exprTextWithin p (e.index + 1) e

def typedValueText (v : TypedValue) : Option String := do
  let type ← exprText p v.type
  let init ← v.init.mapM (exprText p)
  some (type ++ (init.map (" = " ++ ·)).getD "")

def classText (name : String) (c : ClassInfo) : Option String := do
  let base ← c.baseClass.mapM fun b => referenceText p b.reference
  some ("class " ++ name ++ (base.map (" : " ++ ·)).getD "" ++ " " ++
    Program.originText c.modifier.display c.origin)

def enumValueLine (depth : Nat) (s : SymbolId) : Option OutlineLine := do
  let sym ← p.symbol? s
  let name ← p.names.text? sym.name
  let init ← (sym.typedValue?.bind (·.init)).mapM (exprText p)
  some (OutlineLine.node depth ("value " ++ name ++ (init.map (" = " ++ ·)).getD "") sym.line)

def parameterText (s : SymbolId) : Option String := do
  let sym ← p.symbol? s
  let name ← p.names.text? sym.name
  match sym.kind with
  | .var v => return name ++ ": " ++ (← typedValueText p v)
  | _ => some name

def methodText (name : String) (m : Method) : Option String := do
  let result ← m.returnType.mapM (exprText p)
  let parameters ← m.parameters.mapM (parameterText p)
  let flags := [m.callable.visibility.display, m.modifier.display] ++
    if m.isMutator then ["mutator"] else []
  some ("method " ++ name ++ "(" ++ ", ".intercalate parameters ++ "): " ++
    result.getD "void" ++ " (" ++ ", ".intercalate flags ++ ")")

def initText (s : StmtId) : Option String := do
  match ← p.stmt? s with
  | .expr e _ => exprText p e
  | .var v _ =>
    let sym ← p.symbol? v
    let name ← p.names.text? sym.name
    match sym.typedValue? with
    | some value => return "var " ++ name ++ ": " ++ (← typedValueText p value)
    | none => some name
  | _ => some "..."

def forText (init : Option StmtId) (cond advance : Option ExprId) : Option String := do
  let init ← init.mapM (initText p)
  let cond ← cond.mapM (exprText p)
  let advance ← advance.mapM (exprText p)
  some ("for (" ++ init.getD "" ++ "; " ++ cond.getD "" ++ "; " ++ advance.getD "" ++ ")")

def caseText (c : Case) : Option String := do
  let values ← c.values.mapM (exprText p)
  some ("case " ++ ", ".intercalate values)

section Lines

open OutlineLine

variable (symbol : Nat → SymbolId → Option (List OutlineLine))
  (stmt : Nat → StmtId → Option (List OutlineLine))

def caseLines (depth : Nat) (c : Case) : Option (List OutlineLine) := do
  let text ← caseText p c
  let body ← gather (stmt (depth + 1)) c.body
  let tail ← c.fallthrough.toList.mapM (exprText p)
  some (node depth text c.line ::
    (body ++ tail.map fun e => OutlineLine.mk (depth + 1) ("fallthrough " ++ e)))

def stmtLinesStep (depth : Nat) : Stmt → Option (List OutlineLine)
  | .block b => do
    let body ← gather (stmt (depth + 1)) b.statements
    some (node depth "block" b.line :: body)
  | .branch cond onTrue onFalse line => do
    let cond ← exprText p cond
    let yes ← stmt (depth + 1) onTrue
    let no ← gather (fun s => (stmt (depth + 1) s).map (⟨depth, "else"⟩ :: ·)) onFalse.toList
    some (node depth ("if " ++ cond) line :: (yes ++ no))
  | .whileLoop cond body line => do
    let cond ← exprText p cond
    let body ← stmt (depth + 1) body
    some (node depth ("while " ++ cond) line :: body)
  | .doWhile body cond line => do
    let body ← stmt (depth + 1) body
    let cond ← exprText p cond
    some (node depth "do" line :: (body ++ [⟨depth, "while " ++ cond⟩]))
  | .forLoop init cond advance body line => do
    let head ← forText p init cond advance
    let body ← stmt (depth + 1) body
    some (node depth head line :: body)
  | .breakLoop line => some [node depth "break" line]
  | .continueLoop line => some [node depth "continue" line]
  | .returnValue value line => do
    let value ← value.mapM (exprText p)
    some [node depth ("return" ++ (value.map (" " ++ ·)).getD "") line]
  | .throwMessage e line => do
    let e ← exprText p e
    some [node depth ("throw " ++ e) line]
  | .deleteTarget e line => do
    let e ← exprText p e
    some [node depth ("delete " ++ e) line]
  | .switch value cases defaultBody line => do
    let value ← exprText p value
    let cases ← gather (caseLines p stmt (depth + 1)) cases
    let rest ← gather
      (fun body => (gather (stmt (depth + 2)) body).map (⟨depth + 1, "default"⟩ :: ·))
      defaultBody.toList
    some (node depth ("switch " ++ value) line :: (cases ++ rest))
  | .expr e line => do
    let e ← exprText p e
    some [node depth e line]
  | .var s _ => symbol depth s

def symbolLinesStep (depth : Nat) (s : Symbol) : Option (List OutlineLine) := do
  let name ← p.names.text? s.name
  match s.kind with
  | .var v =>
    let value ← typedValueText p v
    some [node depth ("var " ++ name ++ ": " ++ value) s.line]
  | .field m | .const m =>
    let value ← typedValueText p m.value
    some [node depth (s.kind.display ++ " " ++ name ++ ": " ++ value ++
      " (" ++ m.visibility.display ++ ")") s.line]
  | .constructor c =>
    let body ← gather (stmt (depth + 1)) c.body.toList
    some (node depth ("constructor (" ++ c.visibility.display ++ ")") s.line :: body)
  | .method m =>
    let head ← methodText p name m
    let body ← gather (stmt (depth + 1)) m.callable.body.toList
    some (node depth head s.line :: body)
  | .enumType t =>
    let sc ← p.scopes.scope? t.scope
    let values ← sc.symbols.mapM (enumValueLine p (depth + 1))
    some (node depth (Program.enumText name t) s.line :: values)
  | .classType c =>
    let head ← classText p name c
    let first ← gather (symbol (depth + 1)) (c.consts ++ c.fields ++ c.constructor.toList)
    let destructor ← gather
      (fun (b : Block) => (gather (stmt (depth + 2)) b.statements).map
        (node (depth + 1) "destructor" b.line :: ·))
      c.destructor.toList
    let methods ← gather (symbol (depth + 1)) c.methods
    some (node depth head s.line :: (first ++ destructor ++ methods))
  | .builtin _ => some [node depth ("builtin " ++ name) s.line]

end Lines

mutual

def symbolLines : Nat → Nat → SymbolId → Option (List OutlineLine)
  | 0, _, _ => none
  | fuel + 1, depth, s => do
    let sym ← p.symbol? s
    symbolLinesStep p (symbolLines fuel) (stmtLines fuel) depth sym

def stmtLines : Nat → Nat → StmtId → Option (List OutlineLine)
  | 0, _, _ => none
  | fuel + 1, depth, s => do
    let stmt ← p.stmt? s
    stmtLinesStep p (symbolLines fuel) (stmtLines fuel) depth stmt

end

def outline : Option String :=
  (gather (symbolLines p p.depth 0) (p.classes ++ p.enums)).map OutlineLine.renderAll

end Checked

/-! ### Allocated parts -/

/-- All that a node names is allocated. -/
def Node.Within (x : Extent) : Node → Prop
  | symbol v => v.index < x.symbols
  | stmt s => s.index < x.stmts
  | case c _ _ => (∀ e ∈ c.values ++ c.fallthrough.toList, e.index < x.exprs) ∧
      ∀ t ∈ c.body, t.index < x.stmts
  | expr e => e.index < x.exprs
  | reference e n => e.index < x.exprs ∧ n.key < x.names
  | gotoDefault e => e.index < x.exprs

namespace Program.Allocated

variable {p : Program} (hp : p.Allocated)
include hp

lemma members_eq {sc : ScopeId} (h : sc.index < p.scopes.size) :
    ∃ x, p.scopes.scope? sc = some x ∧ x.symbols = p.members sc ∧
      ∀ v ∈ p.members sc, v.index < p.symbols.size := by
  obtain ⟨x, hx⟩ := ScopeTree.scope?_of_lt h
  have hmembers : x.symbols = p.members sc := by simp [Program.members, ScopeTree.symbols, hx]
  refine ⟨x, hx, hmembers, fun v hv => ?_⟩
  rw [← hmembers] at hv
  obtain ⟨y, hy, rfl⟩ := List.mem_map.mp hv
  exact ((hp.scopes sc x hx).2 y hy).2

lemma symbolParts_eq {v : SymbolId} {x : Symbol} (hx : p.symbol? v = some x) :
    Checked.symbolParts p x = some (p.symbolParts x) ∧
      ∀ n ∈ p.symbolParts x, n.Within p.extent := by
  obtain ⟨-, hexprs, hstmts, hsymbols, hscope, -⟩ := hp.symbols v x hx
  obtain ⟨n, line, kind⟩ := x
  cases kind with
  | var value => exact ⟨rfl, List.forall_mem_map.mpr hexprs⟩
  | field m => exact ⟨rfl, List.forall_mem_map.mpr hexprs⟩
  | const m => exact ⟨rfl, List.forall_mem_map.mpr hexprs⟩
  | constructor c => exact ⟨rfl, List.forall_mem_map.mpr hstmts⟩
  | method m =>
    refine ⟨rfl, ?_⟩
    simp only [symbolParts, List.forall_mem_append, List.forall_mem_map]
    exact ⟨⟨hsymbols, hexprs⟩, hstmts⟩
  | enumType t =>
    obtain ⟨sc, hsc, hmembers, hlt⟩ := hp.members_eq (hscope t.scope (by simp [Symbol.scope?]))
    exact ⟨by simp [Checked.symbolParts, symbolParts, hsc, hmembers], List.forall_mem_map.mpr hlt⟩
  | classType c =>
    refine ⟨rfl, ?_⟩
    simp only [SymbolKind.symbols, List.forall_mem_append] at hsymbols
    simp only [symbolParts, List.forall_mem_append, List.forall_mem_map]
    obtain ⟨⟨⟨hconstructor, hconsts⟩, hfields⟩, hmethods⟩ := hsymbols
    exact ⟨⟨⟨⟨hconsts, hfields⟩, hconstructor⟩, hstmts⟩, hmethods⟩
  | builtin b => exact ⟨rfl, by simp [symbolParts]⟩

omit hp in
lemma within_caseNodes {x : Extent} {d : Bool} {cases : List Case}
    (h : ∀ c ∈ cases, ∀ b, (Node.case c b d).Within x) : ∀ n ∈ caseNodes d cases, n.Within x := by
  fun_induction caseNodes d cases with
  | case1 => simp
  | case2 c => simpa using h c (by simp) true
  | case3 c cs _ ih =>
    obtain ⟨hc, hcs⟩ := List.forall_mem_cons.mp h
    exact List.forall_mem_cons.mpr ⟨hc false, ih hcs⟩

lemma within_stmtParts {s : StmtId} {x : Stmt} (hx : p.stmt? s = some x) (place : Place)
    (hs : place.node = .stmt s) : ∀ y ∈ p.parts place, y.node.Within p.extent := by
  have hlt : s.index ≤ p.stmts.size := (Array.getElem?_eq_some_iff.mp hx).1.le
  obtain ⟨hchildren, hexprs, hdeclared⟩ :=
    (hp.stmts s x hx).mono (y := p.extent) ⟨le_rfl, le_rfl, hlt, le_rfl, le_rfl⟩
  cases x with
  | switch value cases defaultBody line =>
    obtain ⟨hbodies, hdefault⟩ := List.forall_mem_append.mp hchildren
    obtain ⟨hvalue, hcases⟩ := List.forall_mem_cons.mp hexprs
    simp only [parts, hs, hx, List.forall_mem_append, List.forall_mem_map, List.forall_mem_cons]
    refine ⟨⟨hvalue, within_caseNodes fun c hc b => ⟨fun e he => ?_, fun t ht => ?_⟩⟩, hdefault⟩
    · exact hcases e (List.mem_flatMap.mpr ⟨c, hc, he⟩)
    · exact hbodies t (List.mem_flatMap.mpr ⟨c, hc, ht⟩)
  | block b =>
    simp only [parts, hs, hx, stmtParts, List.forall_mem_map]
    exact hchildren
  | forLoop init cond advance body line =>
    obtain ⟨hinit, hbody⟩ := List.forall_mem_append.mp hchildren
    obtain ⟨hcond, hadvance⟩ := List.forall_mem_append.mp hexprs
    simp only [parts, hs, hx, stmtParts, List.forall_mem_append, List.forall_mem_map]
    exact ⟨⟨⟨hinit, hcond⟩, hadvance⟩, by simpa [Node.Within] using hbody⟩
  | _ =>
    simp_all [parts, stmtParts, Stmt.children, Stmt.exprs, Stmt.declared?, Node.Within]

lemma parts_eq {place : Place} (h : place.node.Within p.extent) :
    Checked.parts p place = some (p.parts place) ∧
      ∀ x ∈ p.parts place, x.node.Within p.extent := by
  obtain ⟨node, around, after⟩ := place
  cases node with
  | symbol v =>
    obtain ⟨x, hx⟩ := exists_symbol h
    obtain ⟨heq, hall⟩ := hp.symbolParts_eq hx
    simp only [Checked.parts, parts, hx, heq, Option.bind_eq_bind, Option.bind_some,
      Option.map_some, Option.getD_some, List.forall_mem_map]
    exact ⟨trivial, hall⟩
  | stmt s =>
    obtain ⟨x, hx⟩ := exists_stmt h
    exact ⟨by simp [Checked.parts, hx], hp.within_stmtParts hx _ rfl⟩
  | case c last d =>
    obtain ⟨hexprs, hstmts⟩ := h
    obtain ⟨hvalues, hfall⟩ := List.forall_mem_append.mp hexprs
    refine ⟨rfl, ?_⟩
    simp only [parts, List.forall_mem_append, List.forall_mem_map]
    exact ⟨⟨hvalues, hstmts⟩, hfall⟩
  | expr e =>
    obtain ⟨x, hx⟩ := exists_expr h
    obtain ⟨hchildren, href⟩ := hp.exprs e x hx
    refine ⟨by simp [Checked.parts, hx], ?_⟩
    simp only [parts, exprParts, hx, Option.map_some, Option.getD_some, List.forall_mem_map,
      List.forall_mem_append]
    refine ⟨⟨fun c hc => (hchildren c hc).trans h, fun n hn => ?_⟩, fun n hn => ?_⟩
    · obtain ⟨r, hr, rfl⟩ := Option.map_eq_some_iff.mp (Option.mem_toList.mp hn)
      exact ⟨h, (href r (by simp [hr])).1⟩
    · split at hn
      · obtain rfl := List.mem_singleton.mp hn
        exact h
      · simp at hn
  | reference e n =>
    obtain ⟨x, hx⟩ := exists_expr h.1
    exact ⟨by simp [Checked.parts, parts, hx, text?_of_lt h.2], by simp [parts]⟩
  | gotoDefault e =>
    obtain ⟨x, hx⟩ := exists_expr h
    exact ⟨by simp [Checked.parts, parts, hx], by simp [parts]⟩

lemma visit_eq {depth : Nat} {place : Place} (h : place.node.Within p.extent) :
    Checked.visit p depth place = p.visit depth place := by
  induction depth generalizing place with
  | zero => rfl
  | succ depth ih =>
    obtain ⟨heq, hall⟩ := hp.parts_eq h
    simp only [Checked.visit, visit, heq, Option.bind_eq_bind, Option.bind_some,
      gather_congr fun x hx => ih (hall x hx)]
    cases gather (p.visit depth) (p.parts place) <;> rfl

end Program.Allocated

/-- The walk of a well-formed program comes only to what is there. -/
lemma Program.WellFormed.walk_eq {p : Program} (hp : p.WellFormed) : Checked.walk p = p.walk := by
  refine gather_congr fun n hn => hp.allocated.visit_eq ?_
  obtain ⟨v, hv, rfl⟩ := List.mem_map.mp hn
  exact hp.listed.lt_of_mem hv

/-- The walk passes over a class that is not in the table; this is noticed. -/
example : ({ Program.new with classes := [⟨7⟩] } : Program).walk = some [{ node := .symbol ⟨7⟩ }] ∧
    Checked.walk { Program.new with classes := [⟨7⟩] } = none := by decide

/-! ### Texts -/

namespace Program.Allocated

variable {p : Program} (hp : p.Allocated)
include hp

omit hp in
lemma referenceText_eq {r : Reference} (hr : r.Within p.extent) :
    Checked.referenceText p r = some (p.referenceText r) := by
  obtain ⟨hname, htarget⟩ := hr
  have htext := text?_of_lt hname
  simp only [Checked.referenceText, referenceText, htext, Option.bind_eq_bind, Option.bind_some]
  cases ht : r.target? with
  | none => rfl
  | some t =>
    obtain ⟨x, hx⟩ := exists_symbol (htarget t (by simp [ht]))
    simp [hx, symbolLine]

lemma exprTextWithin_eq {depth : Nat} {e : ExprId} (hd : e.index < depth)
    (he : e.index < p.exprs.size) :
    Checked.exprTextWithin p depth e = some (p.exprTextWithin depth e) := by
  induction depth generalizing e with
  | zero => omega
  | succ depth ih =>
    obtain ⟨x, hx⟩ := exists_expr he
    obtain ⟨hchildren, href⟩ := hp.exprs e x hx
    have hsub : ∀ c ∈ x.children,
        Checked.exprTextWithin p depth c = some (p.exprTextWithin depth c) := fun c hc => by
      have hlt : c.index < e.index := hchildren c hc
      exact ih (by omega) (by omega)
    cases x with
    | literal v line => simp [Checked.exprTextWithin, exprTextWithin, hx]
    | ident r line =>
      have hr := referenceText_eq (href r (by simp [Expr.reference?]))
      simp [Checked.exprTextWithin, exprTextWithin, hx, hr]
    | unary op fix a line =>
      have ha := hsub a (by simp [Expr.children])
      cases fix <;> simp [Checked.exprTextWithin, exprTextWithin, hx, ha]
    | binary op l r line =>
      have hl := hsub l (by simp [Expr.children])
      have hr := hsub r (by simp [Expr.children])
      cases op <;> simp [Checked.exprTextWithin, exprTextWithin, hx, hl, hr]
    | conditional c t f line =>
      have hc := hsub c (by simp [Expr.children])
      have ht := hsub t (by simp [Expr.children])
      have hf := hsub f (by simp [Expr.children])
      simp [Checked.exprTextWithin, exprTextWithin, hx, hc, ht, hf]
    | select o r line =>
      have ho := hsub o (by simp [Expr.children])
      have hr := referenceText_eq (href r (by simp [Expr.reference?]))
      simp [Checked.exprTextWithin, exprTextWithin, hx, ho, hr]
    | list items line =>
      have hitems : items.mapM (Checked.exprTextWithin p depth) =
          some (items.map (p.exprTextWithin depth)) := mapM_eq_map hsub
      simp [Checked.exprTextWithin, exprTextWithin, hx, hitems]
    | gotoDefault line => simp [Checked.exprTextWithin, exprTextWithin, hx]

lemma exprText_eq {e : ExprId} (he : e.index < p.exprs.size) :
    Checked.exprText p e = some (p.exprText e) :=
  hp.exprTextWithin_eq (Nat.lt_succ_self _) he

lemma mapM_exprText {x : Option ExprId} (hx : ∀ e ∈ x.toList, e.index < p.exprs.size) :
    x.mapM (Checked.exprText p) = some (x.map p.exprText) :=
  mapM_option_eq fun e he => hp.exprText_eq (hx e he)

lemma mapM_exprTexts {es : List ExprId} (hes : ∀ e ∈ es, e.index < p.exprs.size) :
    es.mapM (Checked.exprText p) = some (es.map p.exprText) :=
  mapM_eq_map fun e he => hp.exprText_eq (hes e he)

lemma typedValueText_eq {v : TypedValue} (hv : ∀ e ∈ v.exprs, e.index < p.exprs.size) :
    Checked.typedValueText p v = some (p.typedValueText v) := by
  obtain ⟨htype, hinit⟩ := List.forall_mem_cons.mp hv
  simp [Checked.typedValueText, typedValueText, hp.exprText_eq htype, hp.mapM_exprText hinit,
    Function.comp_def]

omit hp in
lemma classText_eq {c : ClassInfo} (hb : ∀ b ∈ c.baseClass.toList, b.reference.Within p.extent)
    (name : String) : Checked.classText p name c = some (p.classText name c) := by
  have hbase : (c.baseClass.mapM fun b => Checked.referenceText p b.reference) =
      some (c.baseClass.map fun b => p.referenceText b.reference) :=
    mapM_option_eq fun b h => referenceText_eq (hb b h)
  simp [Checked.classText, classText, hbase, Function.comp_def]

lemma enumValueLine_eq {v : SymbolId} (hv : v.index < p.symbols.size) (depth : Nat) :
    Checked.enumValueLine p depth v = some (p.enumValueLine depth v) := by
  obtain ⟨x, hx⟩ := exists_symbol hv
  obtain ⟨hname, hexprs, -⟩ := hp.symbols v x hx
  have hinit : ∀ e ∈ (x.typedValue?.bind (·.init)).toList, e.index < p.exprs.size := by
    intro e he
    obtain ⟨value, hvalue, hinit⟩ := Option.bind_eq_some_iff.mp (Option.mem_toList.mp he)
    rw [Symbol.exprs_of_typedValue? hvalue] at hexprs
    exact hexprs e (by simp [TypedValue.exprs, hinit])
  simp [Checked.enumValueLine, enumValueLine, hx, text?_of_lt hname, hp.mapM_exprText hinit,
    typedValue?, symbolText, symbolLine, Function.comp_def]

lemma parameterText_eq {v : SymbolId} (hv : v.index < p.symbols.size) :
    Checked.parameterText p v = some (p.parameterText v) := by
  obtain ⟨⟨n, line, kind⟩, hx⟩ := exists_symbol hv
  obtain ⟨hname, hexprs, -⟩ := hp.symbols v _ hx
  have htext := text?_of_lt hname
  cases kind with
  | var value =>
    simp [Checked.parameterText, parameterText, hx, htext, hp.typedValueText_eq hexprs, symbolText]
  | _ => simp [Checked.parameterText, parameterText, hx, htext, symbolText]

lemma methodText_eq {m : Method} (hresult : ∀ e ∈ m.returnType.toList, e.index < p.exprs.size)
    (hparameters : ∀ v ∈ m.parameters, v.index < p.symbols.size) (name : String) :
    Checked.methodText p name m = some (p.methodText name m) := by
  have hmap : m.parameters.mapM (Checked.parameterText p) =
      some (m.parameters.map p.parameterText) :=
    mapM_eq_map fun v hv => hp.parameterText_eq (hparameters v hv)
  simp [Checked.methodText, methodText, hp.mapM_exprText hresult, hmap]

lemma initText_eq {s : StmtId} (hs : s.index < p.stmts.size) :
    Checked.initText p s = some (p.initText s) := by
  obtain ⟨x, hx⟩ := exists_stmt hs
  obtain ⟨-, hexprs, hdeclared⟩ := hp.stmts s x hx
  cases x with
  | expr e line =>
    simp [Checked.initText, initText, hx, hp.exprText_eq (hexprs e (by simp [Stmt.exprs]))]
  | var v line =>
    obtain ⟨sym, hsym⟩ := exists_symbol (hdeclared v (by simp [Stmt.declared?]))
    obtain ⟨hname, hvalues, -⟩ := hp.symbols v sym hsym
    have htext := text?_of_lt hname
    cases hvalue : sym.typedValue? with
    | none => simp [Checked.initText, initText, hx, hsym, htext, hvalue, typedValue?, symbolText]
    | some value =>
      rw [Symbol.exprs_of_typedValue? hvalue] at hvalues
      simp [Checked.initText, initText, hx, hsym, htext, hvalue, typedValue?, symbolText,
        hp.typedValueText_eq hvalues]
  | _ => simp [Checked.initText, initText, hx]

lemma forText_eq {init : Option StmtId} {cond advance : Option ExprId}
    (hinit : ∀ s ∈ init.toList, s.index < p.stmts.size)
    (hcond : ∀ e ∈ cond.toList, e.index < p.exprs.size)
    (hadvance : ∀ e ∈ advance.toList, e.index < p.exprs.size) :
    Checked.forText p init cond advance = some (p.forText init cond advance) := by
  have hmap : init.mapM (Checked.initText p) = some (init.map p.initText) :=
    mapM_option_eq fun s hs => hp.initText_eq (hinit s hs)
  simp [Checked.forText, forText, hmap, hp.mapM_exprText hcond, hp.mapM_exprText hadvance]

/-! ### Lines -/

section Lines

variable {symbol symbol' : Nat → SymbolId → Option (List OutlineLine)}
  {stmt stmt' : Nat → StmtId → Option (List OutlineLine)}

lemma caseLines_eq {c : Case}
    (hexprs : ∀ e ∈ c.values ++ c.fallthrough.toList, e.index < p.exprs.size)
    (hstmt : ∀ depth, ∀ s ∈ c.body, stmt' depth s = stmt depth s) (depth : Nat) :
    Checked.caseLines p stmt' depth c = p.caseLines stmt depth c := by
  obtain ⟨hvalues, hfall⟩ := List.forall_mem_append.mp hexprs
  simp [Checked.caseLines, caseLines, Checked.caseText, caseText, hp.mapM_exprTexts hvalues,
    hp.mapM_exprTexts hfall, gather_congr (hstmt (depth + 1)), Function.comp_def]

/-- The lines for a statement, if those for what stands below it agree. -/
lemma stmtLinesStep_eq {x : Stmt} (hx : x.Within p.extent)
    (hsymbol : ∀ depth, ∀ v ∈ x.declared?.toList, symbol' depth v = symbol depth v)
    (hstmt : ∀ depth, ∀ s ∈ x.children, stmt' depth s = stmt depth s) (depth : Nat) :
    Checked.stmtLinesStep p symbol' stmt' depth x = p.stmtStep symbol stmt depth x := by
  obtain ⟨hchildren, hexprs, -⟩ := hx
  have hexpr : ∀ e ∈ x.exprs, Checked.exprText p e = some (p.exprText e) :=
    fun e he => hp.exprText_eq (hexprs e he)
  cases x with
  | block b =>
    have hbody : gather (stmt' (depth + 1)) b.statements = gather (stmt (depth + 1)) b.statements :=
      gather_congr (hstmt (depth + 1))
    simp [Checked.stmtLinesStep, stmtStep, hbody]
  | branch cond onTrue onFalse line =>
    obtain ⟨hyes, hno⟩ := List.forall_mem_cons.mp (hstmt (depth + 1))
    have hgather := gather_congr fun s hs =>
      congrArg (Option.map (OutlineLine.mk depth "else" :: ·)) (hno s hs)
    simp [Checked.stmtLinesStep, stmtStep, hexpr cond (by simp [Stmt.exprs]), hyes, hgather]
  | whileLoop cond body line =>
    simp [Checked.stmtLinesStep, stmtStep, hexpr cond (by simp [Stmt.exprs]),
      hstmt (depth + 1) body (by simp [Stmt.children])]
  | doWhile body cond line =>
    simp [Checked.stmtLinesStep, stmtStep, hexpr cond (by simp [Stmt.exprs]),
      hstmt (depth + 1) body (by simp [Stmt.children])]
  | forLoop init cond advance body line =>
    obtain ⟨hinit, -⟩ := List.forall_mem_append.mp hchildren
    obtain ⟨hcond, hadvance⟩ := List.forall_mem_append.mp hexprs
    simp [Checked.stmtLinesStep, stmtStep, hp.forText_eq hinit hcond hadvance,
      hstmt (depth + 1) body (by simp [Stmt.children])]
  | breakLoop line => rfl
  | continueLoop line => rfl
  | returnValue value line =>
    simp [Checked.stmtLinesStep, stmtStep, hp.mapM_exprText hexprs, Function.comp_def]
  | throwMessage e line =>
    simp [Checked.stmtLinesStep, stmtStep, hexpr e (by simp [Stmt.exprs])]
  | deleteTarget e line =>
    simp [Checked.stmtLinesStep, stmtStep, hexpr e (by simp [Stmt.exprs])]
  | switch value cases defaultBody line =>
    have hcases : gather (Checked.caseLines p stmt' (depth + 1)) cases =
        gather (p.caseLines stmt (depth + 1)) cases := by
      refine gather_congr fun c hc => hp.caseLines_eq (fun e he => hexprs e ?_)
        (fun d s hs => hstmt d s ?_) _
      · exact List.mem_cons_of_mem _ (List.mem_flatMap.mpr ⟨c, hc, he⟩)
      · exact List.mem_append_left _ (List.mem_flatMap.mpr ⟨c, hc, hs⟩)
    have hdefault : ∀ body ∈ defaultBody.toList,
        gather (stmt' (depth + 2)) body = gather (stmt (depth + 2)) body := by
      intro body hbody
      refine gather_congr fun s hs => hstmt _ s (List.mem_append_right _ ?_)
      rw [Option.mem_toList.mp hbody]
      exact hs
    have hgather := gather_congr fun body hbody =>
      congrArg (Option.map (OutlineLine.mk (depth + 1) "default" :: ·)) (hdefault body hbody)
    simp [Checked.stmtLinesStep, stmtStep, hexpr value (by simp [Stmt.exprs]), hcases, hgather]
  | expr e line =>
    simp [Checked.stmtLinesStep, stmtStep, hexpr e (by simp [Stmt.exprs])]
  | var v line => exact hsymbol depth v (by simp [Stmt.declared?])

/-- The lines for a symbol, if those for what stands below it agree. -/
lemma symbolLinesStep_eq {x : Symbol} (hx : x.Within p.extent)
    (hsymbol : ∀ depth, ∀ v ∈ x.kind.symbols, symbol' depth v = symbol depth v)
    (hstmt : ∀ depth, ∀ s ∈ x.kind.stmts, stmt' depth s = stmt depth s) (depth : Nat) :
    Checked.symbolLinesStep p symbol' stmt' depth x = p.symbolStep symbol stmt depth x := by
  obtain ⟨hname, hexprs, -, hsymbols, hscope, hbase⟩ := hx
  obtain ⟨n, line, kind⟩ := x
  have htext := text?_of_lt hname
  cases kind with
  | var v => simp [Checked.symbolLinesStep, symbolStep, htext, hp.typedValueText_eq hexprs]
  | field m => simp [Checked.symbolLinesStep, symbolStep, htext, hp.typedValueText_eq hexprs]
  | const m => simp [Checked.symbolLinesStep, symbolStep, htext, hp.typedValueText_eq hexprs]
  | constructor c =>
    have hbody : gather (stmt' (depth + 1)) c.body.toList =
        gather (stmt (depth + 1)) c.body.toList := gather_congr (hstmt (depth + 1))
    simp [Checked.symbolLinesStep, symbolStep, htext, hbody]
  | method m =>
    have hbody : gather (stmt' (depth + 1)) m.callable.body.toList =
        gather (stmt (depth + 1)) m.callable.body.toList := gather_congr (hstmt (depth + 1))
    simp [Checked.symbolLinesStep, symbolStep, htext, hp.methodText_eq hexprs hsymbols, hbody]
  | enumType t =>
    obtain ⟨sc, hsc, hmembers, hlt⟩ := hp.members_eq (hscope t.scope (by simp [Symbol.scope?]))
    have hvalues := mapM_eq_map fun v hv => hp.enumValueLine_eq (hlt v hv) (depth + 1)
    simp [Checked.symbolLinesStep, symbolStep, htext, hsc, hmembers, hvalues]
  | classType c =>
    have hsym := hsymbol (depth + 1)
    simp only [SymbolKind.symbols, List.forall_mem_append] at hsym
    obtain ⟨⟨⟨hconstructor, hconsts⟩, hfields⟩, hmethods⟩ := hsym
    have hfirst : gather (symbol' (depth + 1)) (c.consts ++ c.fields ++ c.constructor.toList) =
        gather (symbol (depth + 1)) (c.consts ++ c.fields ++ c.constructor.toList) := by
      refine gather_congr ?_
      simp only [List.forall_mem_append]
      exact ⟨⟨hconsts, hfields⟩, hconstructor⟩
    have hbody : ∀ b ∈ c.destructor.toList,
        gather (stmt' (depth + 2)) b.statements = gather (stmt (depth + 2)) b.statements := by
      intro b hb
      refine gather_congr fun s hs => hstmt _ s ?_
      simpa [SymbolKind.stmts, Option.mem_toList.mp hb] using hs
    have hdestructor := gather_congr fun b hb => congrArg
      (Option.map (OutlineLine.node (depth + 1) "destructor" b.line :: ·)) (hbody b hb)
    simp only [Checked.symbolLinesStep, symbolStep, htext, classText_eq hbase, hfirst, hdestructor,
      gather_congr hmethods, Option.bind_eq_bind, Option.bind_some, Option.pure_def]
  | builtin b => simp [Checked.symbolLinesStep, symbolStep, htext]

end Lines

lemma lines_eq (fuel : Nat) :
    (∀ depth, ∀ v : SymbolId, v.index < p.symbols.size →
      Checked.symbolLines p fuel depth v = p.symbolLines fuel depth v) ∧
    ∀ depth, ∀ s : StmtId, s.index < p.stmts.size →
      Checked.stmtLines p fuel depth s = p.stmtLines fuel depth s := by
  induction fuel with
  | zero => simp [Checked.symbolLines, symbolLines, Checked.stmtLines, stmtLines]
  | succ fuel ih =>
    obtain ⟨ihsymbol, ihstmt⟩ := ih
    -- what stands in an allocated node is allocated, so the hypotheses apply one level down
    refine ⟨fun depth v hv => ?_, fun depth s hs => ?_⟩
    · obtain ⟨x, hx⟩ := exists_symbol hv
      have hwithin := hp.symbols v x hx
      have ⟨_, _, hstmts, hsymbols, _⟩ := hwithin
      simp only [Checked.symbolLines, symbolLines, hx, Option.bind_eq_bind, Option.bind_some]
      exact hp.symbolLinesStep_eq hwithin (fun d w hw => ihsymbol d w (hsymbols w hw))
        (fun d t ht => ihstmt d t (hstmts t ht)) depth
    · obtain ⟨x, hx⟩ := exists_stmt hs
      have hwithin : x.Within p.extent :=
        (hp.stmts s x hx).mono ⟨le_rfl, le_rfl, hs.le, le_rfl, le_rfl⟩
      have ⟨hchildren, _, hdeclared⟩ := hwithin
      simp only [Checked.stmtLines, stmtLines, hx, Option.bind_eq_bind, Option.bind_some]
      exact hp.stmtLinesStep_eq hwithin (fun d w hw => ihsymbol d w (hdeclared w hw))
        (fun d t ht => ihstmt d t (hchildren t ht)) depth

end Program.Allocated

/-- The outline of a well-formed program comes only to what is there. -/
lemma Program.WellFormed.outline_eq {p : Program} (hp : p.WellFormed) :
    Checked.outline p = p.outline := by
  unfold Checked.outline outline
  rw [gather_congr fun v hv => (hp.allocated.lines_eq p.depth).1 0 v (hp.listed.lt_of_mem hv)]

end NameBinding
