import NameBinding.Proofs.BoundTables
import NameBinding.Proofs.FailureErrors
import NameBinding.Proofs.FreeBases

/-!
The life of a program. It is built, resolved, and opened again to be built on. All along, whatever
is in its tables stays there, lists and scopes are only added to, and a name or a base class that is
bound stays bound to the same symbol.
-/

namespace NameBinding

/-! ### Stages -/

/-- A program is open to operations, or all its names are bound. -/
inductive Stage
  | building (p : Program)
  | resolved (r : BoundProgram)
deriving DecidableEq

inductive Move
  | build (op : Operation)
  | resolve (o : Options)
  | apply (b : Bindings)
  /-- The program of a result is taken out, to be built on. -/
  | reopen

namespace Stage

def program : Stage → Program
  | building p => p
  | resolved r => r.program

/-- If a resolution fails, it gives the program back. -/
def ofResolve : Except Failure BoundProgram → Stage
  | .ok r => resolved r
  | .error f => building f.program

/-- If bindings leave something unbound, the program is given back. -/
def ofApply : Except Unbound BoundProgram → Stage
  | .ok r => resolved r
  | .error u => building u.program

/-- The stage that a move leads to. Only bindings without scopes are applied as they are. -/
def after : Stage → Move → Option Stage
  | building p, .build op => some (building (p.perform op))
  | building p, .resolve o => some (ofResolve (p.resolve o))
  | building p, .apply b => if b.scopes = none then some (ofApply (p.applyBindings b)) else none
  | resolved r, .reopen => some (building r.program)
  | _, _ => none

/-- The stage that moves lead to, one after the other. -/
def run? (s : Stage) : List Move → Option Stage
  | [] => some s
  | m :: ms => (s.after m).bind (·.run? ms)

end Stage

/-! ### What a node may become -/

/-- A reference that is not bound may be bound, under the same name. -/
inductive Reference.Becomes : Reference → Reference → Prop
  | same (r : Reference) : Becomes r r
  | bound (n : Name) (t : SymbolId) : Becomes (.free n) (.bound n t)

/-- Of an expression only the reference may change. -/
inductive Expr.Becomes : Expr → Expr → Prop
  | same (x : Expr) : Becomes x x
  | ident {r r' : Reference} (h : r.Becomes r') (line : Line) :
      Becomes (.ident r line) (.ident r' line)
  | select {r r' : Reference} (object : ExprId) (h : r.Becomes r') (line : Line) :
      Becomes (.select object r line) (.select object r' line)

structure BaseClass.Becomes (b b' : BaseClass) : Prop where
  line : b'.line = b.line
  reference : b.reference.Becomes b'.reference

/-- A class may have its base bound, get a constructor or a destructor if it has none, and list more
members. -/
structure ClassInfo.Becomes (c c' : ClassInfo) : Prop where
  origin : c'.origin = c.origin
  modifier : c'.modifier = c.modifier
  scope : c'.scope = c.scope
  baseClass : Option.Rel BaseClass.Becomes c.baseClass c'.baseClass
  constructor : ∀ v, c.constructor = some v → c'.constructor = some v
  destructor : ∀ b, c.destructor = some b → c'.destructor = some b
  consts : c.consts <+: c'.consts
  fields : c.fields <+: c'.fields
  methods : c.methods <+: c'.methods

/-- Nothing but a class may change. -/
inductive SymbolKind.Becomes : SymbolKind → SymbolKind → Prop
  | same (k : SymbolKind) : Becomes k k
  | classType {c c' : ClassInfo} (h : c.Becomes c') : Becomes (.classType c) (.classType c')

structure Symbol.Becomes (x y : Symbol) : Prop where
  name : y.name = x.name
  line : y.line = x.line
  kind : x.kind.Becomes y.kind

/-- A scope may declare more names, after those that it has. -/
structure Scope.Becomes (sc sc' : Scope) : Prop where
  kind : sc'.kind = sc.kind
  parent : sc'.parent = sc.parent
  entries : sc.entries.entries <+: sc'.entries.entries

section Becomes

lemma Reference.becomes_bind (r : Reference) (t : SymbolId) : r.Becomes (r.bind t) := by
  cases r with
  | free n => exact .bound n t
  | bound n u => exact .same _

lemma Reference.Becomes.trans {a b c : Reference} (h : a.Becomes b) (h' : b.Becomes c) :
    a.Becomes c := by
  cases h with
  | same => exact h'
  | bound n t =>
    cases h'
    exact .bound n t

/-- What is bound stays as it is. -/
lemma Reference.Becomes.eq_of_bound {n : Name} {t : SymbolId} {r : Reference}
    (h : (Reference.bound n t).Becomes r) : r = .bound n t := by
  cases h
  rfl

lemma Expr.becomes_bind (x : Expr) (t : SymbolId) : x.Becomes (x.bind t) := by
  cases x with
  | ident r line => exact .ident (r.becomes_bind t) line
  | select object r line => exact .select object (r.becomes_bind t) line
  | _ => exact .same _

lemma Expr.Becomes.trans {x y z : Expr} (h : x.Becomes y) (h' : y.Becomes z) : x.Becomes z := by
  cases h with
  | same => exact h'
  | ident h line =>
    cases h' with
    | same => exact .ident h line
    | ident h' => exact .ident (h.trans h') line
  | select object h line =>
    cases h' with
    | same => exact .select object h line
    | select _ h' => exact .select object (h.trans h') line

lemma Expr.Becomes.reference? {x y : Expr} (h : x.Becomes y) {r : Reference}
    (hr : x.reference? = some r) : ∃ r', y.reference? = some r' ∧ r.Becomes r' := by
  cases h with
  | same => exact ⟨r, hr, .same r⟩
  | ident h line =>
    obtain rfl := Option.some.inj hr
    exact ⟨_, rfl, h⟩
  | select object h line =>
    obtain rfl := Option.some.inj hr
    exact ⟨_, rfl, h⟩

lemma BaseClass.becomes_rfl : ∀ b : Option BaseClass, Option.Rel BaseClass.Becomes b b
  | none => .none
  | some b => .some ⟨rfl, .same b.reference⟩

lemma BaseClass.becomes_trans {a b c : Option BaseClass} (h : Option.Rel BaseClass.Becomes a b)
    (h' : Option.Rel BaseClass.Becomes b c) : Option.Rel BaseClass.Becomes a c := by
  cases h with
  | none => exact h'
  | some h =>
    cases h' with
    | some h' => exact .some ⟨h'.line.trans h.line, h.reference.trans h'.reference⟩

lemma ClassInfo.Becomes.refl (c : ClassInfo) : c.Becomes c where
  origin := rfl
  modifier := rfl
  scope := rfl
  baseClass := BaseClass.becomes_rfl _
  constructor _ h := h
  destructor _ h := h
  consts := List.prefix_refl _
  fields := List.prefix_refl _
  methods := List.prefix_refl _

lemma ClassInfo.Becomes.trans {a b c : ClassInfo} (h : a.Becomes b) (h' : b.Becomes c) :
    a.Becomes c where
  origin := h'.origin.trans h.origin
  modifier := h'.modifier.trans h.modifier
  scope := h'.scope.trans h.scope
  baseClass := BaseClass.becomes_trans h.baseClass h'.baseClass
  constructor v hv := h'.constructor v (h.constructor v hv)
  destructor b hb := h'.destructor b (h.destructor b hb)
  consts := h.consts.trans h'.consts
  fields := h.fields.trans h'.fields
  methods := h.methods.trans h'.methods

lemma ClassInfo.becomes_bindBase (c : ClassInfo) (t : SymbolId) : c.Becomes (c.bindBase t) := by
  refine { ClassInfo.Becomes.refl c with baseClass := ?_ }
  unfold bindBase
  cases c.baseClass with
  | none => exact .none
  | some b => exact .some ⟨rfl, b.reference.becomes_bind t⟩

/-- A member is added at the end of a list. -/
lemma ClassInfo.becomes_listMember (k : SymbolKind) (v : SymbolId) (c : ClassInfo) :
    c.Becomes (Program.listMember k v c) := by
  cases k with
  | const m => exact { ClassInfo.Becomes.refl c with consts := List.prefix_append _ _ }
  | field m => exact { ClassInfo.Becomes.refl c with fields := List.prefix_append _ _ }
  | _ => exact { ClassInfo.Becomes.refl c with methods := List.prefix_append _ _ }

lemma SymbolKind.Becomes.trans {a b c : SymbolKind} (h : a.Becomes b) (h' : b.Becomes c) :
    a.Becomes c := by
  cases h with
  | same => exact h'
  | classType h =>
    cases h' with
    | same => exact .classType h
    | classType h' => exact .classType (h.trans h')

lemma Symbol.Becomes.refl (x : Symbol) : x.Becomes x := ⟨rfl, rfl, .same x.kind⟩

lemma Symbol.Becomes.trans {x y z : Symbol} (h : x.Becomes y) (h' : y.Becomes z) : x.Becomes z :=
  ⟨h'.name.trans h.name, h'.line.trans h.line, h.kind.trans h'.kind⟩

lemma Symbol.becomes_mapClass {x : Symbol} {f : ClassInfo → ClassInfo}
    (hf : ∀ c, x.class? = some c → c.Becomes (f c)) : x.Becomes (x.mapClass f) := by
  obtain ⟨n, l, k⟩ := x
  cases k with
  | classType c => exact ⟨rfl, rfl, .classType (hf c rfl)⟩
  | _ => exact .refl _

/-- A type keeps the scope of its members. -/
lemma Symbol.Becomes.scope? {x y : Symbol} (h : x.Becomes y) : y.scope? = x.scope? := by
  obtain ⟨n, l, k⟩ := x
  obtain ⟨n', l', k'⟩ := y
  cases h.kind with
  | same => rfl
  | classType hclass => exact congrArg some hclass.scope

lemma Symbol.Becomes.baseClass? {x y : Symbol} (h : x.Becomes y) {b : BaseClass}
    (hb : x.baseClass? = some b) : ∃ b', y.baseClass? = some b' ∧ b.Becomes b' := by
  obtain ⟨n, l, k⟩ := x
  obtain ⟨n', l', k'⟩ := y
  cases h.kind with
  | same => exact ⟨b, hb, rfl, .same _⟩
  | @classType c c' hclass =>
    have hrel := hclass.baseClass
    have hc : c.baseClass = some b := hb
    rw [hc] at hrel
    cases hc' : c'.baseClass with
    | none =>
      rw [hc'] at hrel
      cases hrel
    | some b' =>
      rw [hc'] at hrel
      cases hrel with
      | some hb' => exact ⟨b', hc', hb'⟩

lemma OrderedMap.entries_insertIfNew {κ ν : Type} [DecidableEq κ] (m : OrderedMap κ ν) (k : κ)
    (v : ν) : m.entries <+: (m.insertIfNew k v).entries := by
  unfold insertIfNew
  split
  · exact List.prefix_refl _
  · exact List.prefix_append _ _

lemma Scope.Becomes.refl (sc : Scope) : sc.Becomes sc := ⟨rfl, rfl, List.prefix_refl _⟩

lemma Scope.Becomes.trans {a b c : Scope} (h : a.Becomes b) (h' : b.Becomes c) : a.Becomes c :=
  ⟨h'.kind.trans h.kind, h'.parent.trans h.parent, h.entries.trans h'.entries⟩

/-- A declaration adds to one scope and leaves the others as they are. -/
lemma ScopeTree.becomes_add {t t' : ScopeTree} {s r : ScopeId} {n : Name} {v : SymbolId} {sc : Scope}
    (h : t.add s n v = .ok t') (hr : t.scope? r = some sc) :
    ∃ sc', t'.scope? r = some sc' ∧ sc.Becomes sc' := by
  rw [scope?_add h, hr]
  split
  · exact ⟨_, rfl, rfl, rfl, sc.entries.entries_insertIfNew n v⟩
  · exact ⟨sc, rfl, .refl sc⟩

end Becomes

/-! ### Growth -/

namespace Program

/-- A type whose members have a scope of the tree. -/
def HasPlace (p : Program) (v : SymbolId) : Prop :=
  ∃ s, (p.symbol? v).bind (·.scope?) = some s ∧ s.index < p.scopes.size

/-- All that the first program has is in the second under the same identifier, where a reference may
have been bound and a list or a scope added to. What is listed anew is a type with a scope. -/
structure Grows (p q : Program) : Prop where
  names : ∀ n text, p.names.text? n = some text → q.names.text? n = some text
  exprs : ∀ e x, p.expr? e = some x → ∃ y, q.expr? e = some y ∧ x.Becomes y
  stmts : ∀ s x, p.stmt? s = some x → q.stmt? s = some x
  symbols : ∀ v x, p.symbol? v = some x → ∃ y, q.symbol? v = some y ∧ x.Becomes y
  scopes : ∀ s sc, p.scopes.scope? s = some sc →
    ∃ sc', q.scopes.scope? s = some sc' ∧ sc.Becomes sc'
  classes : p.classes <+: q.classes
  enums : p.enums <+: q.enums
  listed : ∀ v ∈ q.classes ++ q.enums, v ∈ p.classes ++ p.enums ∨ q.HasPlace v

variable {p q r : Program}

lemma Grows.hasPlace (h : p.Grows q) {v : SymbolId} (hv : p.HasPlace v) : q.HasPlace v := by
  obtain ⟨s, hs, hlt⟩ := hv
  obtain ⟨x, hx, hscope⟩ := Option.bind_eq_some_iff.mp hs
  obtain ⟨y, hy, hbecomes⟩ := h.symbols v x hx
  obtain ⟨sc, hsc⟩ := ScopeTree.scope?_of_lt hlt
  obtain ⟨sc', hsc', -⟩ := h.scopes s sc hsc
  refine ⟨s, ?_, ScopeTree.lt_of_scope? hsc'⟩
  rw [hy, Option.bind_some, hbecomes.scope?, hscope]

lemma Grows.refl (p : Program) : p.Grows p where
  names _ _ h := h
  exprs _ x h := ⟨x, h, .same x⟩
  stmts _ _ h := h
  symbols _ x h := ⟨x, h, .refl x⟩
  scopes _ sc h := ⟨sc, h, .refl sc⟩
  classes := List.prefix_refl _
  enums := List.prefix_refl _
  listed _ h := .inl h

lemma Grows.trans (h : p.Grows q) (h' : q.Grows r) : p.Grows r where
  names n text hn := h'.names n text (h.names n text hn)
  exprs e x hx := by
    obtain ⟨y, hy, hxy⟩ := h.exprs e x hx
    obtain ⟨z, hz, hyz⟩ := h'.exprs e y hy
    exact ⟨z, hz, hxy.trans hyz⟩
  stmts s x hx := h'.stmts s x (h.stmts s x hx)
  symbols v x hx := by
    obtain ⟨y, hy, hxy⟩ := h.symbols v x hx
    obtain ⟨z, hz, hyz⟩ := h'.symbols v y hy
    exact ⟨z, hz, hxy.trans hyz⟩
  scopes s a ha := by
    obtain ⟨b, hb, hab⟩ := h.scopes s a ha
    obtain ⟨c, hc, hbc⟩ := h'.scopes s b hb
    exact ⟨c, hc, hab.trans hbc⟩
  classes := h.classes.trans h'.classes
  enums := h.enums.trans h'.enums
  listed v hv := (h'.listed v hv).elim (fun hq => (h.listed v hq).imp id h'.hasPlace) .inr

/-- The target of a name stays. -/
lemma Grows.reference?_of_bound (h : p.Grows q) {e : ExprId} {n : Name} {t : SymbolId}
    (he : p.reference? e = some (.bound n t)) : q.reference? e = some (.bound n t) := by
  obtain ⟨x, hx, href⟩ := Option.bind_eq_some_iff.mp he
  obtain ⟨y, hy, hxy⟩ := h.exprs e x hx
  obtain ⟨ref, href', hbecomes⟩ := hxy.reference? href
  rw [reference?, hy, Option.bind_some, href', hbecomes.eq_of_bound]

/-- The base of a class stays. -/
lemma Grows.baseClass?_of_bound (h : p.Grows q) {v : SymbolId} {n : Name} {t : SymbolId}
    {line : Line} (hv : (p.symbol? v).bind (·.baseClass?) = some ⟨.bound n t, line⟩) :
    (q.symbol? v).bind (·.baseClass?) = some ⟨.bound n t, line⟩ := by
  obtain ⟨x, hx, hbase⟩ := Option.bind_eq_some_iff.mp hv
  obtain ⟨y, hy, hxy⟩ := h.symbols v x hx
  obtain ⟨⟨ref, line'⟩, hbase', hline, href⟩ := hxy.baseClass? hbase
  obtain rfl : line' = line := hline
  obtain rfl : ref = .bound n t := href.eq_of_bound
  rw [hy, Option.bind_some, hbase']

/-! ### Single changes -/

lemma grows_intern (p : Program) (text : String) : p.Grows (p.intern text).2 := by
  refine { Grows.refl p with names := fun n t hn => ?_ }
  have hlt : n.key < p.names.texts.size := (Array.getElem?_eq_some_iff.mp hn).1
  unfold intern NameTable.intern
  cases p.names.find? text with
  | some m => exact hn
  | none =>
    change (p.names.texts.push text)[n.key]? = some t
    rw [Array.getElem?_push_lt hlt, ← Array.getElem?_eq_getElem hlt]
    exact hn

lemma grows_addExpr (p : Program) (x : Expr) : p.Grows (p.addExpr x).2 := by
  refine { Grows.refl p with exprs := fun e y hy => ⟨y, ?_, .same y⟩ }
  have hlt : e.index < p.exprs.size := (Array.getElem?_eq_some_iff.mp hy).1
  rw [expr?_addExpr, if_neg (by omega), hy]

lemma grows_addStmt (p : Program) (x : Stmt) : p.Grows (p.addStmt x).2 := by
  refine { Grows.refl p with stmts := fun s y hy => ?_ }
  have hlt : s.index < p.stmts.size := (Array.getElem?_eq_some_iff.mp hy).1
  rw [stmt?_addStmt, if_neg (by omega), hy]

/-- The table of symbols has one more at its end. -/
def AddsSymbol (p q : Program) (x : Symbol) : Prop :=
  ∀ v, q.symbol? v = if v.index = p.symbols.size then some x else p.symbol? v

section AddsSymbol

variable {x y : Symbol} {v : SymbolId} (h : p.AddsSymbol q x)
include h

lemma AddsSymbol.new : q.symbol? ⟨p.symbols.size⟩ = some x := (h _).trans (if_pos rfl)

lemma AddsSymbol.old (hv : p.symbol? v = some y) : q.symbol? v = some y := by
  have hlt : v.index < p.symbols.size := (Array.getElem?_eq_some_iff.mp hv).1
  rw [h, if_neg hlt.ne, hv]

lemma AddsSymbol.eq_new (hnone : p.symbol? v = none) (hy : q.symbol? v = some y) :
    v = ⟨p.symbols.size⟩ ∧ y = x := by
  rw [h] at hy
  split at hy
  · next hv =>
    obtain rfl := Option.some.inj hy
    exact ⟨congrArg SymbolId.mk hv, rfl⟩
  · simp [hnone] at hy

end AddsSymbol

lemma addsSymbol_addSymbol (p : Program) (x : Symbol) : p.AddsSymbol (p.addSymbol x).2 x :=
  fun _ => symbol?_addSymbol ..

lemma grows_addSymbol (p : Program) (x : Symbol) : p.Grows (p.addSymbol x).2 := by
  exact { Grows.refl p with
    symbols := fun v y hy => ⟨y, (p.addsSymbol_addSymbol x).old hy, .refl y⟩
    listed := fun v hv => .inl hv }

lemma grows_withScopes {t : ScopeTree}
    (h : ∀ s sc, p.scopes.scope? s = some sc → ∃ sc', t.scope? s = some sc' ∧ sc.Becomes sc') :
    p.Grows { p with scopes := t } :=
  { Grows.refl p with scopes := h, listed := fun _ hv => .inl hv }

lemma grows_enter (p : Program) (scope : ScopeId) (n : Name) (v : SymbolId) :
    p.Grows (p.enter scope n v) := by
  unfold enter
  split
  · next t h => exact grows_withScopes fun s sc => ScopeTree.becomes_add h
  · exact .refl p

lemma grows_openScope (p : Program) (parent : ScopeId) (kind : ScopeKind) :
    p.Grows { p with scopes := (p.scopes.addChild parent kind).2 } := by
  refine grows_withScopes fun s sc hs => ⟨sc, ?_, .refl sc⟩
  rw [ScopeTree.scope?_addChild_of_lt parent kind (ScopeTree.lt_of_scope? hs), hs]

lemma grows_modifyClass {s : SymbolId} {f : ClassInfo → ClassInfo}
    (hf : ∀ c, p.class? s = some c → c.Becomes (f c)) : p.Grows (p.modifyClass s f) := by
  refine { Grows.refl p with symbols := fun v x hx => ?_, listed := fun v hv => .inl hv }
  rw [symbol?_modifyClass, hx]
  split
  · next hv =>
    refine ⟨_, rfl, Symbol.becomes_mapClass fun c hc => hf c ?_⟩
    rw [class?, ← hv, hx, Option.bind_some, hc]
  · exact ⟨x, rfl, .refl x⟩

lemma grows_listClass {v : SymbolId} (hv : p.HasPlace v) :
    p.Grows { p with classes := p.classes ++ [v] } := by
  refine { Grows.refl p with classes := List.prefix_append _ _, listed := fun w hw => ?_ }
  rcases List.mem_append.mp hw with hw | hw
  · rcases List.mem_append.mp hw with hw | hw
    · exact .inl (List.mem_append_left _ hw)
    · obtain rfl := List.mem_singleton.mp hw
      exact .inr hv
  · exact .inl (List.mem_append_right _ hw)

lemma grows_listEnum {v : SymbolId} (hv : p.HasPlace v) :
    p.Grows { p with enums := p.enums ++ [v] } := by
  refine { Grows.refl p with enums := List.prefix_append _ _, listed := fun w hw => ?_ }
  rw [← List.append_assoc] at hw
  rcases List.mem_append.mp hw with hw | hw
  · exact .inl hw
  · obtain rfl := List.mem_singleton.mp hw
    exact .inr hv

/-- Bindings bind what is free, and may bring a tree that has all scopes. -/
lemma grows_bind {b : Bindings} (h : ∀ s sc, p.scopes.scope? s = some sc →
    (b.scopes.getD p.scopes).scope? s = some sc) : p.Grows (p.bind b) := by
  refine { Grows.refl p with
    exprs := fun e x hx => ?_
    symbols := fun v x hx => ?_
    scopes := fun s sc hs => ⟨sc, h s sc hs, .refl sc⟩
    listed := fun v hv => .inl hv }
  · refine ⟨_, by rw [expr?_bind, hx]; rfl, ?_⟩
    cases b.references.get? e with
    | none => exact .same x
    | some t => exact x.becomes_bind t
  · refine ⟨_, by rw [symbol?_bind, hx]; rfl, ?_⟩
    cases b.baseClasses.get? v with
    | none => exact .refl x
    | some t => exact Symbol.becomes_mapClass fun c _ => c.becomes_bindBase t

/-! ### Operations -/

lemma grows_declare (p : Program) (scope : ScopeId) (x : Symbol) :
    p.Grows (p.declare scope x).2 := by
  cases h : p.scopes.declared? scope x.name with
  | some v =>
    rw [declare_of_some h]
    exact .refl p
  | none =>
    rw [declare_of_none h]
    exact (p.grows_addSymbol x).trans (grows_enter ..)

/-- A type at the top gets a scope for its members. -/
lemma grows_declareType (p : Program) (n : Name) (line : Line) (kind : ScopeId → SymbolKind)
    (hkind : ∀ s, (⟨n, line, kind s⟩ : Symbol).scope? = some s) :
    p.Grows (p.declareType n line kind).2 ∧
      (p.declareType n line kind).2.HasPlace ⟨p.symbols.size⟩ := by
  set p₁ : Program :=
    { p with scopes := (p.scopes.addChild ScopeTree.global (.type ⟨p.symbols.size⟩)).2 }
  set x : Symbol := ⟨n, line, kind ⟨p.scopes.size⟩⟩
  have heq : (p.declareType n line kind).2 =
      (p₁.addSymbol x).2.enter ScopeTree.global n ⟨p.symbols.size⟩ := rfl
  have hplace : (p₁.addSymbol x).2.HasPlace ⟨p.symbols.size⟩ := by
    refine ⟨⟨p.scopes.size⟩, ?_, ?_⟩
    · rw [symbol?_addSymbol, if_pos rfl, Option.bind_some]
      exact hkind _
    · change p.scopes.size < (p.scopes.addChild ScopeTree.global (.type ⟨p.symbols.size⟩)).2.size
      rw [ScopeTree.size_addChild]
      exact Nat.lt_succ_self _
  rw [heq]
  exact ⟨((p.grows_openScope ..).trans (grows_addSymbol _ x)).trans (grows_enter ..),
    (grows_enter ..).hasPlace hplace⟩

lemma grows_newClass (p : Program) (n : Name) (line : Line) (head : ClassHead)
    (base : Option BaseClass) :
    p.Grows { (p.declareType n line fun scope => .classType (newClass head base scope)).2 with
      classes := (p.declareType n line fun scope => .classType (newClass head base scope)).2.classes
        ++ [⟨p.symbols.size⟩] } := by
  obtain ⟨hgrows, hplace⟩ := p.grows_declareType n line
    (fun scope => .classType (newClass head base scope)) fun _ => rfl
  exact hgrows.trans (grows_listClass hplace)

lemma grows_newEnum (p : Program) (n : Name) (line : Line) (head : EnumHead) :
    p.Grows { (p.declareType n line fun scope =>
        .enumType ⟨head.origin, head.isFlags, scope⟩).2 with
      enums := (p.declareType n line fun scope =>
        .enumType ⟨head.origin, head.isFlags, scope⟩).2.enums ++ [⟨p.symbols.size⟩] } := by
  obtain ⟨hgrows, hplace⟩ := p.grows_declareType n line
    (fun scope => .enumType ⟨head.origin, head.isFlags, scope⟩) fun _ => rfl
  exact hgrows.trans (grows_listEnum hplace)

lemma grows_declareClass (p : Program) (text : String) (line : Line) (head : ClassHead) :
    p.Grows (p.declareClass text line head).2 := by
  have hintern := p.grows_intern text
  unfold declareClass
  simp only
  split
  · exact hintern
  · cases head.baseClass with
    | none => exact hintern.trans (grows_newClass ..)
    | some base =>
      -- the name of the base class is interned before the class is declared
      exact (hintern.trans (grows_intern _ base)).trans (grows_newClass ..)

lemma grows_declareEnum (p : Program) (text : String) (line : Line) (head : EnumHead) :
    p.Grows (p.declareEnum text line head).2 := by
  have hintern := p.grows_intern text
  unfold declareEnum
  simp only
  split
  · exact hintern
  · exact hintern.trans (grows_newEnum ..)

/-- A member is accepted by its owner, in whose scope the name is free, or nothing changes. -/
lemma declareMember_cases (p : Program) (owner : SymbolId) (x : Symbol) :
    (p.declareMember owner x).2 = p ∨
    ∃ o scope, p.symbol? owner = some o ∧ o.scope? = some scope ∧ accepts o.kind x.kind = true ∧
      p.scopes.declared? scope x.name = none ∧ (p.declareMember owner x).2 =
        (p.declare scope x).2.modifyClass owner (listMember x.kind ⟨p.symbols.size⟩) := by
  cases ho : p.symbol? owner with
  | none => exact .inl (by simp only [declareMember, ho])
  | some o =>
    cases hs : o.scope? with
    | none => exact .inl (by simp only [declareMember, ho, hs])
    | some scope =>
      by_cases ha : accepts o.kind x.kind = true
      · cases hd : p.scopes.declared? scope x.name with
        | some w => exact .inl (by simp only [declareMember, ho, hs, if_pos ha, declare_of_some hd])
        | none =>
          exact .inr ⟨o, scope, rfl, hs, ha, hd,
            by simp only [declareMember, ho, hs, if_pos ha, declare_of_none hd]⟩
      · exact .inl (by simp only [declareMember, ho, hs, if_neg ha])

lemma grows_declareMember (p : Program) (owner : SymbolId) (x : Symbol) :
    p.Grows (p.declareMember owner x).2 := by
  obtain h | ⟨o, scope, -, -, -, -, h⟩ := p.declareMember_cases owner x
  · rw [h]
    exact .refl p
  · rw [h]
    exact (p.grows_declare scope x).trans (grows_modifyClass fun c _ => c.becomes_listMember ..)

/-- Only a class without a constructor is given one. -/
lemma defineConstructor_cases (p : Program) (s : SymbolId) (line : Line) (c : Callable) :
    (p.defineConstructor s line c).2 = p ∨
    ∃ n, (∀ cls, (p.addSymbol ⟨n, line, .constructor c⟩).2.class? s = some cls →
        cls.constructor = none) ∧
      (p.defineConstructor s line c).2 = (p.addSymbol ⟨n, line, .constructor c⟩).2.modifyClass s
        fun cls => { cls with constructor := some ⟨p.symbols.size⟩ } := by
  cases hsym : p.symbol? s with
  | none => exact .inl (by simp only [defineConstructor, hsym])
  | some sym =>
    cases hcls : sym.class? with
    | none => exact .inl (by simp only [defineConstructor, hsym, hcls])
    | some cls =>
      by_cases hsome : cls.constructor.isSome = true
      · exact .inl (by simp only [defineConstructor, hsym, hcls, if_pos hsome])
      · refine .inr ⟨sym.name, fun cls' hcls' => ?_,
          by simp only [defineConstructor, hsym, hcls, if_neg hsome]; rfl⟩
        rw [class?, (p.addsSymbol_addSymbol _).old hsym, Option.bind_some, hcls] at hcls'
        obtain rfl := Option.some.inj hcls'
        exact Option.not_isSome_iff_eq_none.mp hsome

lemma grows_setConstructor {s : SymbolId} (h : ∀ c, p.class? s = some c → c.constructor = none)
    (v : SymbolId) : p.Grows (p.modifyClass s fun c => { c with constructor := some v }) :=
  grows_modifyClass fun c hc =>
    { ClassInfo.Becomes.refl c with constructor := fun w hw => by simp [h c hc] at hw }

lemma grows_defineConstructor (p : Program) (s : SymbolId) (line : Line) (c : Callable) :
    p.Grows (p.defineConstructor s line c).2 := by
  obtain h | ⟨n, hnone, h⟩ := p.defineConstructor_cases s line c
  · rw [h]
    exact .refl p
  · rw [h]
    exact (p.grows_addSymbol _).trans (grows_setConstructor hnone _)

/-- Only a class without a destructor is given one. -/
lemma defineDestructor_cases (p : Program) (s : SymbolId) (body : Block) :
    (p.defineDestructor s body).2 = p ∨
    (∀ cls, p.class? s = some cls → cls.destructor = none) ∧
      (p.defineDestructor s body).2 =
        p.modifyClass s fun cls => { cls with destructor := some body } := by
  cases hcls : p.class? s with
  | none => exact .inl (by simp only [defineDestructor, hcls])
  | some cls =>
    by_cases hsome : cls.destructor.isSome = true
    · exact .inl (by simp only [defineDestructor, hcls, if_pos hsome])
    · refine .inr ⟨fun cls' hcls' => ?_, by simp only [defineDestructor, hcls, if_neg hsome]⟩
      obtain rfl := Option.some.inj hcls'
      exact Option.not_isSome_iff_eq_none.mp hsome

lemma grows_setDestructor {s : SymbolId} (h : ∀ c, p.class? s = some c → c.destructor = none)
    (body : Block) : p.Grows (p.modifyClass s fun c => { c with destructor := some body }) :=
  grows_modifyClass fun c hc =>
    { ClassInfo.Becomes.refl c with destructor := fun b hb => by simp [h c hc] at hb }

lemma grows_defineDestructor (p : Program) (s : SymbolId) (body : Block) :
    p.Grows (p.defineDestructor s body).2 := by
  obtain h | ⟨hnone, h⟩ := p.defineDestructor_cases s body
  · rw [h]
    exact .refl p
  · rw [h]
    exact grows_setDestructor hnone body

lemma grows_perform (p : Program) (op : Operation) : p.Grows (p.perform op) := by
  cases op with
  | intern text => exact p.grows_intern text
  | addExpr x => exact p.grows_addExpr x
  | addStmt x => exact p.grows_addStmt x
  | addVar text line value => exact (p.grows_intern text).trans (grows_addSymbol _ _)
  | declare scope x => exact p.grows_declare scope x
  | declareClass text line head => exact p.grows_declareClass text line head
  | declareEnum text line head => exact p.grows_declareEnum text line head
  | declareMember owner x => exact p.grows_declareMember owner x
  | defineConstructor s line c => exact p.grows_defineConstructor s line c
  | defineDestructor s body => exact p.grows_defineDestructor s body

/-! ### Resolution -/

/-- All types at the top have scopes of the tree for their members. -/
def Placed (p : Program) : Prop := ∀ v ∈ p.classes ++ p.enums, p.HasPlace v

lemma placed_new : new.Placed := by
  intro v hv
  have hnone : new.classes ++ new.enums = [] := by decide
  simp [hnone] at hv

lemma Grows.placed (h : p.Grows q) (hp : p.Placed) : q.Placed :=
  fun v hv => (h.listed v hv).elim (fun hv => h.hasPlace (hp v hv)) id

lemma Placed.lt_of_mem_scripts (hp : p.Placed) {x : ScopeId × Script} (hx : x ∈ p.scripts) :
    x.1.index < p.scopes.size := by
  have hlt : ∀ v ∈ p.classes ++ p.enums, ∀ s, (p.symbol? v).bind (·.scope?) = some s →
      s.index < p.scopes.size := by
    intro v hv s hs
    obtain ⟨s', hs', hlt⟩ := hp v hv
    obtain rfl := Option.some.inj (hs.symm.trans hs')
    exact hlt
  obtain ⟨v, hv, c, hc, rfl⟩ | ⟨v, hv, t, ht, rfl⟩ := scripts_cases hx
  · obtain ⟨⟨n, l, k⟩, hsym, hk⟩ := Option.map_eq_some_iff.mp (class?_eq_some.mp hc)
    obtain rfl : k = .classType c := hk
    exact hlt v (List.mem_append_left _ hv) c.scope (by rw [hsym]; rfl)
  · obtain ⟨⟨n, l, k⟩, hsym, hk⟩ := Option.map_eq_some_iff.mp (enum?_eq_some.mp ht)
    obtain rfl : k = .enumType t := hk
    exact hlt v (List.mem_append_right _ hv) t.scope (by rw [hsym]; rfl)

lemma Placed.steps_finish (hp : p.Placed) : Pass.Steps p (Pass.start p) (Pass.finish p) :=
  Script.runAll_steps (by simp) fun _ hx =>
    ⟨hp.lt_of_mem_scripts hx, Script.entered_of_mem_scripts hx⟩

/-- The pass leaves the scopes of the program alone. -/
lemma Placed.scope?_finish (hp : p.Placed) {s : ScopeId} (hs : s.index < p.scopes.size) :
    (Pass.finish p).scopes.scope? s = p.scopes.scope? s := by
  rw [hp.steps_finish.scope?_of_lt (by simp) hs, Pass.scopes_start]

lemma Placed.grows_resolve (hp : p.Placed) {o : Options} {r : BoundProgram}
    (h : p.resolve o = .ok r) : p.Grows r.program := by
  rw [program_of_resolve h]
  refine grows_bind fun s sc hs => ?_
  rw [bindings_fst]
  exact (hp.scope?_finish (ScopeTree.lt_of_scope? hs)).trans hs

lemma program_of_failure {o : Options} {f : Failure} (h : p.resolve o = .error f) :
    f.program = p := by
  obtain ⟨-, rfl⟩ | ⟨-, -, rfl⟩ := resolve_eq_error_iff.mp h <;> rfl

end Program

/-! ### Runs -/

namespace Stage

variable {s t : Stage}

/-- What a move does to the program. -/
lemma after_cases {m : Move} (h : s.after m = some t) : t.program = s.program ∨
    (∃ op, m = .build op ∧ t.program = s.program.perform op) ∨
    (∃ o r, s.program.resolve o = .ok r ∧ t.program = r.program) ∨
    ∃ b : Bindings, m = .apply b ∧ b.scopes = none ∧ t.program = s.program.bind b := by
  cases s with
  | resolved r =>
    cases m with
    | reopen =>
      obtain rfl := Option.some.inj h
      exact .inl rfl
    | _ => simp [after] at h
  | building p =>
    cases m with
    | build op =>
      obtain rfl := Option.some.inj h
      exact .inr (.inl ⟨op, rfl, rfl⟩)
    | resolve o =>
      obtain rfl := Option.some.inj h
      cases hr : p.resolve o with
      | ok r => exact .inr (.inr (.inl ⟨o, r, hr, rfl⟩))
      | error f => exact .inl (Program.program_of_failure hr)
    | apply b =>
      simp only [after] at h
      split at h
      · next hb =>
        obtain rfl := Option.some.inj h
        cases hu : p.unbound b with
        | nil =>
          rw [Program.applyBindings_eq_ok_iff.mpr ⟨hu, rfl⟩]
          exact .inr (.inr (.inr ⟨b, rfl, hb, rfl⟩))
        | cons e es =>
          simp only [Program.applyBindings, hu]
          exact .inl rfl
      · simp at h
    | reopen => simp [after] at h

/-- Every move only adds to the program. -/
lemma grows_after (hs : s.program.Placed) {m : Move} (h : s.after m = some t) :
    s.program.Grows t.program := by
  obtain ht | ⟨op, -, ht⟩ | ⟨o, r, hr, ht⟩ | ⟨b, -, hb, ht⟩ := after_cases h
  · rw [ht]
    exact .refl _
  · rw [ht]
    exact s.program.grows_perform op
  · rw [ht]
    exact hs.grows_resolve hr
  · rw [ht]
    exact Program.grows_bind fun _ _ hsc => by rwa [hb]

lemma grows_run? (hs : s.program.Placed) {ms : List Move} (h : s.run? ms = some t) :
    s.program.Grows t.program := by
  induction ms generalizing s with
  | nil =>
    obtain rfl := Option.some.inj h
    exact .refl _
  | cons m ms ih =>
    obtain ⟨mid, hmid, hrest⟩ := Option.bind_eq_some_iff.mp h
    have hstep := grows_after hs hmid
    exact hstep.trans (ih (hstep.placed hs) hrest)

lemma placed_run? {ms : List Move} (h : (building .new).run? ms = some s) : s.program.Placed :=
  (grows_run? (s := building .new) Program.placed_new h).placed Program.placed_new

end Stage

/-- **Programs only grow.** Between any two points of a run, made of operations, resolutions,
bindings without scopes and reopenings, all that the program has stays under its identifier:
statements as they are, expressions and base classes up to references that get bound, symbols with
their name, line and kind, lists and scopes as the beginning of the later ones, and texts under
their names. What is bound once stays bound to the same symbol. -/
theorem program_only_grows {earlier later : List Move} {s t : Stage}
    (hs : (Stage.building .new).run? earlier = some s) (ht : s.run? later = some t) :
    s.program.Grows t.program ∧
    (∀ e n u, s.program.reference? e = some (.bound n u) →
      t.program.reference? e = some (.bound n u)) ∧
    ∀ v n u line, (s.program.symbol? v).bind (·.baseClass?) = some ⟨.bound n u, line⟩ →
      (t.program.symbol? v).bind (·.baseClass?) = some ⟨.bound n u, line⟩ := by
  have hgrows := Stage.grows_run? (Stage.placed_run? hs) ht
  exact ⟨hgrows, fun _ _ _ => hgrows.reference?_of_bound, fun _ _ _ _ => hgrows.baseClass?_of_bound⟩

/-- The class `D` that derives from `Base` is resolved. -/
def derivedMoves : List Move := (derivedSteps true).map .build ++ [.resolve {}]

/-- The program is opened again, `Base` gets a field `x`, and all is resolved once more. -/
def fieldMoves : List Move :=
  [.reopen, .build (.intern "x"), .build (.addExpr (.ident (.free ⟨2⟩) ⟨3⟩)),
    .build (.declareMember ⟨7⟩ ⟨⟨9⟩, ⟨3⟩, .field ⟨.pub, ⟨⟨0⟩, none⟩⟩⟩), .resolve {}]

def derivedStage : Stage := ((Stage.building .new).run? derivedMoves).getD (.building .new)

def fieldStage : Stage := (derivedStage.run? fieldMoves).getD (.building .new)

theorem derived_only_grows : (Stage.building .new).run? derivedMoves = some derivedStage ∧
    derivedStage.run? fieldMoves = some fieldStage ∧
    derivedStage.program.Grows fieldStage.program ∧
    (derivedStage.program.symbol? ⟨8⟩).bind (·.baseClass?) = some ⟨.bound ⟨7⟩ ⟨7⟩, ⟨2⟩⟩ ∧
    (fieldStage.program.symbol? ⟨8⟩).bind (·.baseClass?) = some ⟨.bound ⟨7⟩ ⟨7⟩, ⟨2⟩⟩ ∧
    (derivedStage.program.class? ⟨7⟩).map (·.fields) = some [] ∧
    (fieldStage.program.class? ⟨7⟩).map (·.fields) = some [⟨9⟩] := by
  have hs : (Stage.building .new).run? derivedMoves = some derivedStage := by decide
  have ht : derivedStage.run? fieldMoves = some fieldStage := by decide
  have hbase : (derivedStage.program.symbol? ⟨8⟩).bind (·.baseClass?) =
      some ⟨.bound ⟨7⟩ ⟨7⟩, ⟨2⟩⟩ := by decide
  obtain ⟨hgrows, -, hbases⟩ := program_only_grows hs ht
  exact ⟨hs, ht, hgrows, hbase, hbases _ _ _ _ hbase, by decide, by decide⟩

end NameBinding
