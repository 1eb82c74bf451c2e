import NameBinding.Proofs.Building

/-!
Well-formed programs. In the tables, what a node names was allocated before it: an operand has a
smaller index than its expression, a statement than the one it stands in, a scope than those below
it. The classes and enums at the top have scopes right under the global one, and the members that a
class lists are of the kind of their list.
-/

namespace NameBinding

/-! ### Allocated nodes -/

/-- The parent and the entries of a scope are allocated. -/
def Scope.Within (x : Extent) (sc : Scope) : Prop :=
  (∀ q ∈ sc.parent.toList, q.index < x.scopes) ∧
    ∀ e ∈ sc.entries.entries, e.1.key < x.names ∧ e.2.index < x.symbols

lemma OrderedMap.mem_entries_of_get? {κ ν : Type} [DecidableEq κ] {m : OrderedMap κ ν} {k : κ}
    {v : ν} (h : m.get? k = some v) : (k, v) ∈ m.entries := by
  obtain ⟨l₁, l₂, heq, -⟩ := List.lookup_eq_some_iff.mp h
  rw [heq]
  exact List.mem_append_right _ List.mem_cons_self

/-- What a scope declares is allocated. -/
lemma ScopeTree.within_of_declared? {t : ScopeTree} {x : Extent}
    (ht : ∀ s sc, t.scope? s = some sc → sc.Within { x with scopes := s.index }) {s : ScopeId}
    {n : Name} {v : SymbolId} (h : t.declared? s n = some v) :
    n.key < x.names ∧ v.index < x.symbols := by
  obtain ⟨sc, hsc, hget⟩ := Option.bind_eq_some_iff.mp h
  exact (ht s sc hsc).2 (n, v) (OrderedMap.mem_entries_of_get? hget)

section Mono

variable {x y : Extent}

lemma Reference.Within.mono {r : Reference} (hr : r.Within x) (h : x.Le y) : r.Within y :=
  ⟨hr.1.trans_le h.names, fun t ht => (hr.2 t ht).trans_le h.symbols⟩

lemma Expr.Within.mono {e : Expr} (he : e.Within x) (h : x.Le y) : e.Within y :=
  ⟨fun c hc => (he.1 c hc).trans_le h.exprs, fun r hr => (he.2 r hr).mono h⟩

lemma Stmt.Within.mono {s : Stmt} (hs : s.Within x) (h : x.Le y) : s.Within y :=
  ⟨fun c hc => (hs.1 c hc).trans_le h.stmts, fun e he => (hs.2.1 e he).trans_le h.exprs,
    fun v hv => (hs.2.2 v hv).trans_le h.symbols⟩

lemma Symbol.Within.mono {s : Symbol} (hs : s.Within x) (h : x.Le y) : s.Within y := by
  obtain ⟨hn, he, ht, hv, hsc, hb⟩ := hs
  exact ⟨hn.trans_le h.names, fun e i => (he e i).trans_le h.exprs,
    fun t i => (ht t i).trans_le h.stmts, fun v i => (hv v i).trans_le h.symbols,
    fun sc i => (hsc sc i).trans_le h.scopes, fun b i => (hb b i).mono h⟩

lemma Scope.Within.mono {sc : Scope} (hs : sc.Within x) (h : x.Le y) : sc.Within y :=
  ⟨fun q hq => (hs.1 q hq).trans_le h.scopes,
    fun e he => ⟨(hs.2 e he).1.trans_le h.names, (hs.2 e he).2.trans_le h.symbols⟩⟩

end Mono

namespace Program

/-- Every node names only nodes that were allocated before it. -/
structure Allocated (p : Program) : Prop where
  exprs : ∀ e x, p.expr? e = some x → x.Within { p.extent with exprs := e.index }
  stmts : ∀ s x, p.stmt? s = some x → x.Within { p.extent with stmts := s.index }
  symbols : ∀ s x, p.symbol? s = some x → x.Within p.extent
  scopes : ∀ s sc, p.scopes.scope? s = some sc → sc.Within { p.extent with scopes := s.index }

variable {p q : Program}

/-- Nodes that were there stay as they are, and new ones are allocated. -/
lemma Allocated.extend (hp : p.Allocated) (hle : p.extent.Le q.extent)
    (he : ∀ e x, q.expr? e = some x →
      p.expr? e = some x ∨ x.Within { q.extent with exprs := e.index })
    (ht : ∀ s x, q.stmt? s = some x →
      p.stmt? s = some x ∨ x.Within { q.extent with stmts := s.index })
    (hv : ∀ s x, q.symbol? s = some x → p.symbol? s = some x ∨ x.Within q.extent)
    (hsc : ∀ s sc, q.scopes.scope? s = some sc →
      p.scopes.scope? s = some sc ∨ sc.Within { q.extent with scopes := s.index }) :
    q.Allocated where
  exprs e x h := (he e x h).elim
    (fun h => (hp.exprs e x h).mono ⟨hle.names, le_rfl, hle.stmts, hle.symbols, hle.scopes⟩) id
  stmts s x h := (ht s x h).elim
    (fun h => (hp.stmts s x h).mono ⟨hle.names, hle.exprs, le_rfl, hle.symbols, hle.scopes⟩) id
  symbols s x h := (hv s x h).elim (fun h => (hp.symbols s x h).mono hle) id
  scopes s sc h := (hsc s sc h).elim
    (fun h => (hp.scopes s sc h).mono ⟨hle.names, hle.exprs, hle.stmts, hle.symbols, le_rfl⟩) id

/-! ### Types at the top -/

def kind? (p : Program) (v : SymbolId) : Option SymbolKind := (p.symbol? v).map (·.kind)

def enum? (p : Program) (s : SymbolId) : Option EnumInfo := (p.symbol? s).bind (·.enum?)

end Program

/-- The constructor and the methods of a class. -/
def ClassInfo.callables (c : ClassInfo) : List SymbolId := c.constructor.toList ++ c.methods

namespace Program

/-- What a class at the top lists is of the kind of its list. -/
structure Lists (p : Program) (c : ClassInfo) : Prop where
  parent : p.scopes.parent? c.scope = some ScopeTree.global
  consts : ∀ v ∈ c.consts, ∃ m, p.kind? v = some (.const m)
  fields : ∀ v ∈ c.fields, ∃ m, p.kind? v = some (.field m)
  methods : ∀ v ∈ c.methods, ∃ m, p.kind? v = some (.method m)
  constructor : ∀ v ∈ c.constructor.toList, ∃ m, p.kind? v = some (.constructor m)
  nodup : c.methods.Nodup

/-- The types at the top are declared as such, and no two classes share a method. -/
structure Listed (p : Program) : Prop where
  root : ∃ sc, p.scopes.scope? ScopeTree.global = some sc ∧ sc.parent = none
  classes : ∀ s ∈ p.classes, ∃ c, p.class? s = some c ∧ p.Lists c
  enums : ∀ s ∈ p.enums, ∃ t, p.enum? s = some t ∧
    p.scopes.parent? t.scope = some ScopeTree.global
  nodup : p.classes.Nodup
  owners : ∀ s ∈ p.classes, ∀ s' ∈ p.classes, ∀ c c', p.class? s = some c → p.class? s' = some c' →
    ∀ v ∈ c.callables, v ∈ c'.callables → s = s'

/-- The tables hold what was allocated before, and the types at the top are in order. -/
structure WellFormed (p : Program) : Prop where
  allocated : p.Allocated
  listed : p.Listed

variable {p q : Program}

lemma class?_eq_some {s : SymbolId} {c : ClassInfo} :
    p.class? s = some c ↔ p.kind? s = some (.classType c) := by
  unfold class? kind?
  cases p.symbol? s with
  | none => simp
  | some sym =>
    obtain ⟨n, l, k⟩ := sym
    cases k <;> simp [Symbol.class?]

lemma enum?_eq_some {s : SymbolId} {t : EnumInfo} :
    p.enum? s = some t ↔ p.kind? s = some (.enumType t) := by
  unfold enum? kind?
  cases p.symbol? s with
  | none => simp
  | some sym =>
    obtain ⟨n, l, k⟩ := sym
    cases k <;> simp [Symbol.enum?]

lemma lt_of_kind? {v : SymbolId} {k : SymbolKind} (h : p.kind? v = some k) :
    v.index < p.symbols.size := by
  obtain ⟨x, hx, -⟩ := Option.map_eq_some_iff.mp h
  exact (Array.getElem?_eq_some_iff.mp hx).1

lemma Listed.class?_of_mem (hp : p.Listed) {s : SymbolId} (hs : s ∈ p.classes) :
    ∃ c, p.class? s = some c := by
  obtain ⟨c, hc, -⟩ := hp.classes s hs
  exact ⟨c, hc⟩

lemma Listed.lists (hp : p.Listed) {s : SymbolId} {c : ClassInfo} (hs : s ∈ p.classes)
    (hc : p.class? s = some c) : p.Lists c := by
  obtain ⟨c', hc', h⟩ := hp.classes s hs
  obtain rfl := Option.some.inj (hc.symm.trans hc')
  exact h

/-- What a class lists was allocated. -/
lemma Lists.callables_lt {c : ClassInfo} (h : p.Lists c) :
    ∀ v ∈ c.callables, v.index < p.symbols.size := by
  intro v hv
  rcases List.mem_append.mp hv with hv | hv
  · obtain ⟨m, hm⟩ := h.constructor v hv
    exact lt_of_kind? hm
  · obtain ⟨m, hm⟩ := h.methods v hv
    exact lt_of_kind? hm

/-- Symbols and the parents of scopes that were there stay as they are. -/
structure Keeps (p q : Program) : Prop where
  kind : ∀ v k, p.kind? v = some k → q.kind? v = some k
  parent : ∀ s sc, p.scopes.scope? s = some sc →
    ∃ sc', q.scopes.scope? s = some sc' ∧ sc'.parent = sc.parent

lemma Keeps.parent? (h : p.Keeps q) {s r : ScopeId} (hs : p.scopes.parent? s = some r) :
    q.scopes.parent? s = some r := by
  obtain ⟨sc, hsc, hr⟩ := Option.bind_eq_some_iff.mp hs
  obtain ⟨sc', hsc', hpar⟩ := h.parent s sc hsc
  simp [ScopeTree.parent?, hsc', hpar, hr]

lemma Lists.keeps {c : ClassInfo} (hc : p.Lists c) (h : p.Keeps q) : q.Lists c where
  parent := h.parent? hc.parent
  consts v hv := (hc.consts v hv).imp fun _ => h.kind v _
  fields v hv := (hc.fields v hv).imp fun _ => h.kind v _
  methods v hv := (hc.methods v hv).imp fun _ => h.kind v _
  constructor v hv := (hc.constructor v hv).imp fun _ => h.kind v _
  nodup := hc.nodup

lemma Listed.keeps (hp : p.Listed) (h : p.Keeps q) (hc : q.classes = p.classes)
    (he : q.enums = p.enums) : q.Listed := by
  have hclass : ∀ s ∈ p.classes, ∀ c, q.class? s = some c → p.class? s = some c := by
    intro s hs c hq
    obtain ⟨c', hc'⟩ := hp.class?_of_mem hs
    have hk := h.kind s _ (class?_eq_some.mp hc')
    rw [← class?_eq_some, hq] at hk
    rw [hc', hk]
  refine ⟨?_, ?_, ?_, hc ▸ hp.nodup, ?_⟩
  · obtain ⟨sc, hsc, hpar⟩ := hp.root
    obtain ⟨sc', hsc', hpar'⟩ := h.parent _ sc hsc
    exact ⟨sc', hsc', hpar'.trans hpar⟩
  · intro s hs
    rw [hc] at hs
    obtain ⟨c, hcls, hl⟩ := hp.classes s hs
    exact ⟨c, class?_eq_some.mpr (h.kind s _ (class?_eq_some.mp hcls)), hl.keeps h⟩
  · intro s hs
    rw [he] at hs
    obtain ⟨t, ht, hpar⟩ := hp.enums s hs
    exact ⟨t, enum?_eq_some.mpr (h.kind s _ (enum?_eq_some.mp ht)), h.parent? hpar⟩
  · intro s hs s' hs' c c' hcs hcs'
    rw [hc] at hs hs'
    exact hp.owners s hs s' hs' c c' (hclass s hs c hcs) (hclass s' hs' c' hcs')

end Program

end NameBinding
