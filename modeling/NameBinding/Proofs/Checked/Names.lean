import NameBinding.Proofs.BaseClasses

/-!
Looking up names with every access checked. A checked look-up gives nothing if it comes to an
identifier that is not in its table, or if a climb over scopes or base classes does not end within
its bound. In a state that names only what is allocated, it gives what the pass finds, also where
base classes form a cycle.
-/

namespace NameBinding

/-! ### Look-ups -/

namespace Checked

def symbolText (p : Program) (s : SymbolId) : Option String := do
  let sym ← p.symbol? s
  p.names.text? sym.name

/-- The base of a class, if it has one. -/
def base? (p : Program) (b : Bindings) (s : SymbolId) : Option (Option SymbolId) :=
  match b.baseClasses.get? s with
  | some t => some (some t)
  | none => (p.symbol? s).map fun sym => sym.baseClass?.bind (·.reference.target?)

/-- Whether the way up from `s` comes to `goal` before it comes to anything a second time. -/
def comesBack (base? : SymbolId → Option (Option SymbolId)) (goal : SymbolId) :
    Nat → List SymbolId → SymbolId → Option Bool
  | 0, _, _ => none
  | n + 1, seen, s => do
    match ← base? s with
    | none => some false
    | some t =>
      if t = goal then some true
      else if t ∈ seen then some false
      else comesBack base? goal n (t :: seen) t

def isOwnAncestor (p : Program) (b : Bindings) (s : SymbolId) : Option Bool :=
  comesBack (base? p b) s p.symbols.size [] s

/-- The type `s` and those above it, up to the first that has been seen. -/
def lineageFrom (base? : SymbolId → Option (Option SymbolId)) :
    Nat → List SymbolId → SymbolId → Option (List SymbolId)
  | 0, _, _ => none
  | n + 1, seen, s => do
    match ← base? s with
    | none => some [s]
    | some t =>
      if t ∈ s :: seen then some [s]
      else (lineageFrom base? n (s :: seen) t).map (s :: ·)

def lineage (p : Program) (b : Bindings) (s : SymbolId) : Option (List SymbolId) :=
  lineageFrom (base? p b) p.symbols.size [] s

/-- A scope and those above it. -/
def ancestors (t : ScopeTree) : Nat → ScopeId → Option (List Scope)
  | 0, _ => none
  | n + 1, s => do
    let sc ← t.scope? s
    match sc.parent with
    | none => some [sc]
    | some q => (ancestors t n q).map (sc :: ·)

variable (p : Program) (st : Pass)

def lexical (scope : ScopeId) (r : Reference) (line : Line) : Option Binding :=
  if r.isBound then some .kept
  else do
    let scopes ← ancestors st.scopes (scope.index + 1) scope
    let name ← p.names.text? r.name
    match scopes.findSome? (·.entries.get? r.name) with
    | some t =>
      let _ ← p.symbol? t
      some (.lexical t)
    | none =>
      let inReach ← (scopes.flatMap Scope.names).mapM p.names.text?
      some (.failed ⟨.unknownName name, line, inReach⟩)

/-- What an expression is bound to, if it is. -/
def bound? (e : ExprId) : Option (Option SymbolId) := do
  let x ← p.expr? e
  some (x.reference?.bind fun r => r.target?.or (st.bindings.references.get? e))

def declaredType? (v : TypedValue) : Option (Option SymbolId) := do
  match ← bound? p st v.type with
  | some t => some (some t)
  | none =>
    let x ← p.expr? v.type
    let top ← st.scopes.scope? ScopeTree.global
    some (x.reference?.bind fun r => top.entries.get? r.name)

def ownerOf (t : SymbolId) (sym : Symbol) : Option Pass.Owner :=
  match sym.kind with
  | .classType _ | .enumType _ => some (.type t)
  | .var v | .field ⟨_, v⟩ | .const ⟨_, v⟩ => do
    match ← declaredType? p st v with
    | none => some .unknown
    | some ty =>
      let tysym ← p.symbol? ty
      let name ← p.names.text? sym.name
      let tyname ← p.names.text? tysym.name
      some (if tysym.scope?.isSome then .type ty else .nothing s!"`{name}` of type `{tyname}`")
  | .builtin _ | .method _ | .constructor _ => do
    let name ← p.names.text? sym.name
    some (.nothing s!"{sym.kind.display} `{name}`")

def owner (object : ExprId) : Option Pass.Owner := do
  match ← bound? p st object with
  | none =>
    let x ← p.expr? object
    some (if x.reference?.isSome then .unknown else .nothing "an expression")
  | some t =>
    let sym ← p.symbol? t
    ownerOf p st t sym

def selected (object : ExprId) (r : Reference) (line : Line) : Option Binding :=
  if r.isBound then some .kept
  else do
    let name ← p.names.text? r.name
    match ← owner p st object with
    | .unknown => some .skipped
    | .nothing what => some (.failed ⟨.noMembers name what, line, []⟩)
    | .type owner =>
      let types ← lineage p st.bindings owner
      let syms ← types.mapM p.symbol?
      let scopes ← (syms.filterMap Symbol.scope?).mapM st.scopes.scope?
      let ownerName ← symbolText p owner
      match scopes.findSome? (·.entries.get? r.name) with
      | some t => some (.member owner t)
      | none =>
        let inReach ← (scopes.flatMap Scope.names).mapM p.names.text?
        some (.failed ⟨.unknownMember ownerName name, line, inReach⟩)

end Checked

/-! ### All or nothing -/

section Lists

variable {α β : Type} {f : α → Option β} {xs : List α}

lemma mapM_eq_filterMap (h : ∀ x ∈ xs, (f x).isSome) : xs.mapM f = some (xs.filterMap f) := by
  induction xs with
  | nil => rfl
  | cons x xs ih =>
    obtain ⟨hx, hxs⟩ := List.forall_mem_cons.mp h
    obtain ⟨y, hy⟩ := Option.isSome_iff_exists.mp hx
    rw [List.mapM_cons, hy, ih hxs, List.filterMap_cons_some hy]
    rfl

lemma mapM_eq_map {g : α → β} (h : ∀ x ∈ xs, f x = some (g x)) : xs.mapM f = some (xs.map g) := by
  rw [mapM_eq_filterMap fun x hx => by simp [h x hx], List.filterMap_congr h,
    List.filterMap_eq_map']

end Lists

/-- Symbols of a table, each at most once, are no more than the table has. -/
lemma length_le_of_nodup {l : List SymbolId} {n : Nat} (hl : l.Nodup)
    (hlt : ∀ s ∈ l, s.index < n) : l.length ≤ n := by
  have hindices : (l.map SymbolId.index).Nodup := hl.map SymbolId.index_injective
  have hsubset : l.map SymbolId.index ⊆ List.range n := fun i hi => by
    obtain ⟨s, hs, rfl⟩ := List.mem_map.mp hi
    exact List.mem_range.mpr (hlt s hs)
  simpa using (hindices.subperm hsubset).length_le

/-! ### The way up -/

section Base

variable {base : SymbolId → Option SymbolId} {goal : SymbolId}

/-- A way that stays among types without the goal does not arrive. -/
lemma arrives_eq_false {seen : List SymbolId} (hgoal : goal ∉ seen)
    (hclosed : ∀ s ∈ seen, ∀ t, base s = some t → t ∈ seen) (n : Nat) {s : SymbolId}
    (hs : s ∈ seen) : arrives base goal n s = false := by
  induction n generalizing s with
  | zero => rfl
  | succ n ih =>
    rw [arrives]
    cases ht : base s with
    | none => rfl
    | some t =>
      have hmem := hclosed s hs t ht
      have hne : t ≠ goal := fun h => hgoal (h ▸ hmem)
      simp [hne, ih hmem]

variable {base? : SymbolId → Option (Option SymbolId)} {size : Nat}
  (hbase : ∀ s : SymbolId, s.index < size → base? s = some (base s))
  (hlt : ∀ s t : SymbolId, s.index < size → base s = some t → t.index < size)
include hbase hlt

/-- The way up ends, since it goes through no type twice. -/
lemma comesBack_eq (hgoal : goal.index < size) {n : Nat} {seen : List SymbolId} {s : SymbolId}
    (hs : s.index < size) (hnodup : (goal :: seen).Nodup) (hseen : ∀ t ∈ seen, t.index < size)
    (hlen : seen.length + n = size)
    (hclosed : ∀ r ∈ seen, r ≠ s → ∀ t, base r = some t → t ∈ seen) :
    Checked.comesBack base? goal n seen s = some (arrives base goal n s) := by
  induction n generalizing seen s with
  | zero =>
    have hle := length_le_of_nodup hnodup (List.forall_mem_cons.mpr ⟨hgoal, hseen⟩)
    rw [List.length_cons] at hle
    omega
  | succ n ih =>
    obtain ⟨hfresh, hseenNodup⟩ := List.nodup_cons.mp hnodup
    simp only [Checked.comesBack, hbase s hs, Option.bind_eq_bind, Option.bind_some, arrives]
    cases ht : base s with
    | none => rfl
    | some t =>
      by_cases heq : t = goal
      · simp [heq]
      · by_cases hmem : t ∈ seen
        · -- from here on the way goes round among the types seen
          have hround : ∀ r ∈ seen, ∀ u, base r = some u → u ∈ seen := by
            intro r hr u hu
            by_cases hrs : r = s
            · subst hrs
              obtain rfl := Option.some.inj (ht.symm.trans hu)
              exact hmem
            · exact hclosed r hr hrs u hu
          simp [heq, hmem, arrives_eq_false hfresh hround n hmem]
        · have hcons : (goal :: t :: seen).Nodup := by
            refine List.nodup_cons.mpr ⟨?_, List.nodup_cons.mpr ⟨hmem, hseenNodup⟩⟩
            simpa using ⟨Ne.symm heq, hfresh⟩
          have htlt := hlt s t hs ht
          have hrest := ih (s := t) htlt hcons (List.forall_mem_cons.mpr ⟨htlt, hseen⟩)
            (by rw [List.length_cons]; omega) (fun r hr hrt u hu => ?_)
          · simp [heq, hmem, hrest]
          · have hr' : r ∈ seen := (List.mem_cons.mp hr).resolve_left hrt
            by_cases hrs : r = s
            · subst hrs
              obtain rfl := Option.some.inj (ht.symm.trans hu)
              exact List.mem_cons_self
            · exact List.mem_cons_of_mem _ (hclosed r hr' hrs u hu)

lemma lineageFrom_eq {n : Nat} (more : Nat) {seen : List SymbolId} {s : SymbolId}
    (hs : s.index < size) (hnodup : (s :: seen).Nodup) (hseen : ∀ t ∈ seen, t.index < size)
    (hlen : seen.length + n = size) :
    Checked.lineageFrom base? n seen s = some (lineageFrom base (n + more) seen s) ∧
      ∀ t ∈ lineageFrom base (n + more) seen s, t.index < size := by
  induction n generalizing seen s with
  | zero =>
    have hle := length_le_of_nodup hnodup (List.forall_mem_cons.mpr ⟨hs, hseen⟩)
    rw [List.length_cons] at hle
    omega
  | succ n ih =>
    simp only [Checked.lineageFrom, hbase s hs, Option.bind_eq_bind, Option.bind_some,
      Nat.add_right_comm n 1 more, lineageFrom]
    cases ht : base s with
    | none => exact ⟨rfl, by simpa using hs⟩
    | some t =>
      by_cases hmem : t ∈ s :: seen
      · simpa [hmem] using hs
      · obtain ⟨heq, hall⟩ := ih (hlt s t hs ht) (List.nodup_cons.mpr ⟨hmem, hnodup⟩)
          (List.forall_mem_cons.mpr ⟨hs, hseen⟩) (by rw [List.length_cons]; omega)
        simp only [if_neg hmem, heq, Option.map_some]
        exact ⟨trivial, List.forall_mem_cons.mpr ⟨hs, hall⟩⟩

end Base

/-- The expressions of a value are those of its declaration. -/
lemma Symbol.exprs_of_typedValue? {x : Symbol} {v : TypedValue} (h : x.typedValue? = some v) :
    x.kind.exprs = v.exprs := by
  obtain ⟨n, line, kind⟩ := x
  cases kind <;> simp_all [Symbol.typedValue?, SymbolKind.exprs]

/-! ### Sound states -/

/-- All that the scopes and bindings of a state name is allocated. -/
structure Pass.Sound (p : Program) (st : Pass) : Prop where
  scopes : ∀ s sc, st.scopes.scope? s = some sc → sc.Within { p.extent with scopes := s.index }
  size : p.scopes.size ≤ st.scopes.size
  references : ∀ e t, st.bindings.references.get? e = some t → t.index < p.symbols.size
  bases : ∀ s t, st.bindings.baseClasses.get? s = some t → t.index < p.symbols.size

section Allocated

variable {p : Program}

lemma Program.exists_symbol {v : SymbolId} (h : v.index < p.symbols.size) :
    ∃ x, p.symbol? v = some x :=
  ⟨_, Array.getElem?_eq_getElem h⟩

lemma Program.exists_expr {e : ExprId} (h : e.index < p.exprs.size) : ∃ x, p.expr? e = some x :=
  ⟨_, Array.getElem?_eq_getElem h⟩

lemma Program.exists_stmt {s : StmtId} (h : s.index < p.stmts.size) : ∃ x, p.stmt? s = some x :=
  ⟨_, Array.getElem?_eq_getElem h⟩

lemma Program.text?_of_lt {n : Name} (h : n.key < p.names.size) :
    p.names.text? n = some (p.text n) := by
  have hget : p.names.text? n = some p.names.texts[n.key] := Array.getElem?_eq_getElem h
  rw [Program.text, hget, Option.getD_some]

lemma Program.lt_of_symbol? {v : SymbolId} {x : Symbol} (h : p.symbol? v = some x) :
    v.index < p.symbols.size :=
  (Array.getElem?_eq_some_iff.mp h).1

/-- The types at the top are allocated. -/
lemma Program.Listed.lt_of_mem (hp : p.Listed) {s : SymbolId} (hs : s ∈ p.classes ++ p.enums) :
    s.index < p.symbols.size := by
  rcases List.mem_append.mp hs with hs | hs
  · obtain ⟨c, hc, -⟩ := hp.classes s hs
    obtain ⟨x, hx, -⟩ := Option.bind_eq_some_iff.mp hc
    exact lt_of_symbol? hx
  · obtain ⟨t, ht, -⟩ := hp.enums s hs
    obtain ⟨x, hx, -⟩ := Option.bind_eq_some_iff.mp ht
    exact lt_of_symbol? hx

lemma Program.Allocated.symbolText_eq (hp : p.Allocated) {s : SymbolId}
    (hs : s.index < p.symbols.size) : Checked.symbolText p s = some (p.symbolText s) := by
  obtain ⟨x, hx⟩ := exists_symbol hs
  simp [Checked.symbolText, Program.symbolText, hx, text?_of_lt (hp.symbols s x hx).1]

end Allocated

lemma ScopeTree.findSome?_filterMap_scope? (t : ScopeTree) (n : Name) (ids : List ScopeId) :
    (ids.filterMap t.scope?).findSome? (·.entries.get? n) = ids.findSome? (t.declared? · n) := by
  induction ids with
  | nil => rfl
  | cons s ids ih =>
    rw [List.findSome?_cons, ← ih]
    cases hs : t.scope? s with
    | none => simp [List.filterMap_cons_none hs, ScopeTree.declared?, hs]
    | some sc => simp [List.filterMap_cons_some hs, ScopeTree.declared?, hs, List.findSome?_cons]

lemma ScopeTree.flatMap_filterMap_scope? (t : ScopeTree) (ids : List ScopeId) :
    (ids.filterMap t.scope?).flatMap Scope.names = ids.flatMap t.names := by
  induction ids with
  | nil => rfl
  | cons s ids ih =>
    rw [List.flatMap_cons, ← ih]
    cases hs : t.scope? s with
    | none => simp [List.filterMap_cons_none hs, ScopeTree.names, hs]
    | some sc => simp [List.filterMap_cons_some hs, ScopeTree.names, hs]

namespace Pass.Sound

variable {p : Program} {st : Pass} (h : Sound p st)
include h

lemma rooted : st.scopes.Rooted := by
  intro s q hq
  obtain ⟨sc, hsc, hparent⟩ := Option.bind_eq_some_iff.mp hq
  exact (h.scopes s sc hsc).1 q (by simp [hparent])

/-- What a scope declares is allocated. -/
lemma lt_of_declared? {s : ScopeId} {n : Name} {v : SymbolId}
    (hv : st.scopes.declared? s n = some v) : v.index < p.symbols.size :=
  (ScopeTree.within_of_declared? h.scopes hv).2

lemma exists_global (hp : p.Listed) : ∃ top, st.scopes.scope? ScopeTree.global = some top := by
  obtain ⟨root, hroot, -⟩ := hp.root
  exact ScopeTree.scope?_of_lt ((ScopeTree.lt_of_scope? hroot).trans_le h.size)

/-- The names that scopes declare have texts. -/
lemma mapM_names (ids : List ScopeId) :
    (ids.flatMap st.scopes.names).mapM p.names.text? =
      some ((ids.flatMap st.scopes.names).map p.text) := by
  refine mapM_eq_map fun n hn => Program.text?_of_lt ?_
  obtain ⟨s, -, hs⟩ := List.mem_flatMap.mp hn
  unfold ScopeTree.names at hs
  cases hsc : st.scopes.scope? s with
  | none => simp [hsc] at hs
  | some sc =>
    rw [hsc, Option.map_some, Option.getD_some] at hs
    obtain ⟨x, hx, rfl⟩ := List.mem_map.mp hs
    exact ((h.scopes s sc hsc).2 x hx).1

lemma ancestors_eq {n : Nat} {s : ScopeId} (hn : s.index < n) (hs : s.index < st.scopes.size) :
    Checked.ancestors st.scopes n s =
      some ((st.scopes.ancestors s).filterMap st.scopes.scope?) := by
  induction n generalizing s with
  | zero => omega
  | succ n ih =>
    obtain ⟨sc, hsc⟩ := ScopeTree.scope?_of_lt hs
    rw [ScopeTree.ancestors_eq h.rooted hsc, List.filterMap_cons_some hsc]
    simp only [Checked.ancestors, hsc, Option.bind_eq_bind, Option.bind_some]
    cases hq : sc.parent with
    | none => rfl
    | some q =>
      have hlt : q.index < s.index := h.rooted.lt hsc hq
      have hrest := ih (s := q) (by omega) (by omega)
      simp only [hrest, Option.map_some, Option.getD_some]

lemma lexical_eq {scope : ScopeId} {r : Reference} {line : Line}
    (hscope : scope.index < st.scopes.size) (hr : r.name.key < p.names.size) :
    Checked.lexical p st scope r line = some (st.lexical p scope r line) := by
  unfold Checked.lexical Pass.lexical
  by_cases hbound : r.isBound
  · rw [if_pos hbound, if_pos hbound]
  · simp only [if_neg hbound, h.ancestors_eq (Nat.lt_succ_self _) hscope, Program.text?_of_lt hr,
      Option.bind_eq_bind, Option.bind_some, ScopeTree.findSome?_filterMap_scope?,
      ScopeTree.flatMap_filterMap_scope?]
    have hlookup : (st.scopes.ancestors scope).findSome? (st.scopes.declared? · r.name) =
        st.scopes.lookup scope r.name := rfl
    rw [hlookup]
    cases ht : st.scopes.lookup scope r.name with
    | none =>
      simp only [h.mapM_names, Option.bind_some]
      rfl
    | some t =>
      obtain ⟨s, -, hs⟩ := List.exists_of_findSome?_eq_some ht
      obtain ⟨x, hx⟩ := Program.exists_symbol (h.lt_of_declared? hs)
      simp only [hx, Option.bind_some]

/-! ### Members -/

variable (hp : p.WellFormed)
include hp

omit h in
lemma target_lt {e : ExprId} {x : Expr} (hx : p.expr? e = some x) {r : Reference}
    (hr : x.reference? = some r) {t : SymbolId} (ht : r.target? = some t) :
    t.index < p.symbols.size :=
  ((hp.allocated.exprs e x hx).2 r (by simp [hr])).2 t (by simp [ht])

omit h hp in
lemma base?_eq {s : SymbolId} (hs : s.index < p.symbols.size) :
    Checked.base? p st.bindings s = some (p.base? st.bindings s) := by
  obtain ⟨x, hx⟩ := Program.exists_symbol hs
  unfold Checked.base? Program.base?
  cases st.bindings.baseClasses.get? s with
  | none => simp [hx]
  | some t => rfl

lemma base?_lt {s t : SymbolId} (hs : s.index < p.symbols.size)
    (ht : p.base? st.bindings s = some t) : t.index < p.symbols.size := by
  obtain ⟨x, hx⟩ := Program.exists_symbol hs
  unfold Program.base? at ht
  rw [Option.or_eq_some_iff] at ht
  rcases ht with ht | ⟨-, ht⟩
  · exact h.bases s t ht
  · obtain ⟨b, hb, htarget⟩ := Option.bind_eq_some_iff.mp ht
    rw [hx, Option.bind_some] at hb
    exact ((hp.allocated.symbols s x hx).2.2.2.2.2 b (by simp [hb])).2 t (by simp [htarget])

lemma isOwnAncestor_eq {s : SymbolId} (hs : s.index < p.symbols.size) :
    Checked.isOwnAncestor p st.bindings s = some (p.isOwnAncestor st.bindings s) :=
  comesBack_eq (fun _ => base?_eq) (fun _ _ => h.base?_lt hp) hs hs (by simp) (by simp)
    (by simp) (by simp)

lemma lineage_eq {s : SymbolId} (hs : s.index < p.symbols.size) :
    Checked.lineage p st.bindings s = some (p.lineage st.bindings s) ∧
      ∀ t ∈ p.lineage st.bindings s, t.index < p.symbols.size :=
  lineageFrom_eq (fun _ => base?_eq) (fun _ _ => h.base?_lt hp) _ hs (by simp) (by simp) (by simp)

lemma bound?_eq {e : ExprId} (he : e.index < p.exprs.size) :
    Checked.bound? p st e = some (st.bound? p e) ∧
      ∀ t, st.bound? p e = some t → t.index < p.symbols.size := by
  obtain ⟨x, hx⟩ := Program.exists_expr he
  constructor
  · simp [Checked.bound?, Pass.bound?, Program.reference?, hx]
  · intro t ht
    obtain ⟨r, hr, hor⟩ := Option.bind_eq_some_iff.mp ht
    rw [Program.reference?, hx, Option.bind_some] at hr
    rw [Option.or_eq_some_iff] at hor
    rcases hor with htarget | ⟨-, hget⟩
    · exact target_lt hp hx hr htarget
    · exact h.references e t hget

lemma declaredType?_eq {v : TypedValue} (hv : v.type.index < p.exprs.size) :
    Checked.declaredType? p st v = some (st.declaredType? p v) ∧
      ∀ t, st.declaredType? p v = some t → t.index < p.symbols.size := by
  obtain ⟨x, hx⟩ := Program.exists_expr hv
  obtain ⟨heq, hlt⟩ := h.bound?_eq hp hv
  obtain ⟨top, htop⟩ := h.exists_global hp.listed
  unfold Checked.declaredType? Pass.declaredType?
  simp only [heq, Option.bind_eq_bind, Option.bind_some]
  cases hbound : st.bound? p v.type with
  | some t => exact ⟨rfl, fun u hu => hlt u (hbound.trans hu)⟩
  | none =>
    refine ⟨?_, fun t ht => ?_⟩
    · simp [hx, htop, Program.reference?, ScopeTree.declared?]
    · obtain ⟨r, -, hdeclared⟩ := Option.bind_eq_some_iff.mp ht
      exact h.lt_of_declared? hdeclared

/-- The owner that a value stands for, by its declared type. -/
lemma ownerOf_value {t : SymbolId} {sym : Symbol} {v : TypedValue}
    (hname : sym.name.key < p.names.size) (hv : v.type.index < p.exprs.size)
    (hsym : sym.typedValue? = some v) :
    Checked.ownerOf p st t sym = some (st.ownerOf p t sym) ∧
      ∀ o, st.ownerOf p t sym = .type o → o.index < p.symbols.size := by
  obtain ⟨heq, hlt⟩ := h.declaredType?_eq hp hv
  obtain ⟨n, line, kind⟩ := sym
  have hcases : ∀ ty, st.declaredType? p v = some ty → ∃ x, p.symbol? ty = some x ∧
      p.names.text? x.name = some (p.text x.name) := by
    intro ty hty
    obtain ⟨x, hx⟩ := Program.exists_symbol (hlt ty hty)
    exact ⟨x, hx, Program.text?_of_lt (hp.allocated.symbols ty x hx).1⟩
  cases kind with
  | var w | field w | const w =>
    obtain rfl := Option.some.inj hsym
    simp only [Checked.ownerOf, Pass.ownerOf, heq, Option.bind_eq_bind, Option.bind_some]
    cases hty : st.declaredType? p _ with
    | none => exact ⟨rfl, by simp⟩
    | some ty =>
      obtain ⟨x, hx, htext⟩ := hcases ty hty
      cases hscope : x.scope? with
      | none => simp [hx, htext, hscope, Program.text?_of_lt hname, Program.symbolText]
      | some sc => simp [hx, htext, hscope, Program.text?_of_lt hname, hlt ty hty]
  | _ => simp [Symbol.typedValue?] at hsym

lemma ownerOf_eq {t : SymbolId} {sym : Symbol} (ht : p.symbol? t = some sym) :
    Checked.ownerOf p st t sym = some (st.ownerOf p t sym) ∧
      ∀ o, st.ownerOf p t sym = .type o → o.index < p.symbols.size := by
  obtain ⟨hname, hexprs, -⟩ := hp.allocated.symbols t sym ht
  obtain ⟨n, line, kind⟩ := sym
  have htype : ∀ v : TypedValue, v.exprs = SymbolKind.exprs kind → v.type.index < p.exprs.size :=
    fun v hv => hexprs _ (hv ▸ List.mem_cons_self)
  cases kind with
  | var v => exact h.ownerOf_value hp hname (htype v rfl) rfl
  | field m => exact h.ownerOf_value hp hname (htype m.value rfl) rfl
  | const m => exact h.ownerOf_value hp hname (htype m.value rfl) rfl
  | classType c =>
    refine ⟨rfl, fun o ho => ?_⟩
    obtain rfl := Pass.Owner.type.inj ho
    exact Program.lt_of_symbol? ht
  | enumType c =>
    refine ⟨rfl, fun o ho => ?_⟩
    obtain rfl := Pass.Owner.type.inj ho
    exact Program.lt_of_symbol? ht
  | _ => simp [Checked.ownerOf, Pass.ownerOf, Program.text?_of_lt hname]

lemma owner_eq {object : ExprId} (hobject : object.index < p.exprs.size) :
    Checked.owner p st object = some (st.owner p object) ∧
      ∀ o, st.owner p object = .type o → o.index < p.symbols.size := by
  obtain ⟨heq, hlt⟩ := h.bound?_eq hp hobject
  unfold Checked.owner Pass.owner
  simp only [heq, Option.bind_eq_bind, Option.bind_some]
  cases hbound : st.bound? p object with
  | none =>
    obtain ⟨x, hx⟩ := Program.exists_expr hobject
    cases hr : x.reference? <;> simp [hx, Program.reference?, hr]
  | some t =>
    obtain ⟨sym, hsym⟩ := Program.exists_symbol (hlt t hbound)
    simp only [hsym, Option.bind_some]
    exact h.ownerOf_eq hp hsym

/-- The scopes of a type and of those above it. -/
lemma mapM_lineageScopes {s : SymbolId} (hs : s.index < p.symbols.size) :
    ∃ syms, (p.lineage st.bindings s).mapM p.symbol? = some syms ∧
      (syms.filterMap Symbol.scope?).mapM st.scopes.scope? =
        some ((st.lineageScopes p s).filterMap st.scopes.scope?) := by
  obtain ⟨-, hlt⟩ := h.lineage_eq hp hs
  refine ⟨_, mapM_eq_filterMap fun t ht => ?_, ?_⟩
  · obtain ⟨x, hx⟩ := Program.exists_symbol (hlt t ht)
    simp [hx]
  · rw [List.filterMap_filterMap]
    refine mapM_eq_filterMap fun sc hsc => ?_
    obtain ⟨t, ht, hscope⟩ := List.mem_filterMap.mp hsc
    obtain ⟨x, hx, hscope⟩ := Option.bind_eq_some_iff.mp hscope
    have hlt' : sc.index < p.scopes.size :=
      (hp.allocated.symbols t x hx).2.2.2.2.1 sc (by simp [hscope])
    obtain ⟨y, hy⟩ := ScopeTree.scope?_of_lt (hlt'.trans_le h.size)
    simp [hy]

lemma selected_eq {object : ExprId} {r : Reference} {line : Line}
    (hobject : object.index < p.exprs.size) (hr : r.name.key < p.names.size) :
    Checked.selected p st object r line = some (st.selected p object r line) := by
  unfold Checked.selected Pass.selected
  by_cases hbound : r.isBound
  · rw [if_pos hbound, if_pos hbound]
  · obtain ⟨heq, hlt⟩ := h.owner_eq hp hobject
    simp only [if_neg hbound, heq, Program.text?_of_lt hr, Option.bind_eq_bind, Option.bind_some]
    cases howner : st.owner p object with
    | unknown => rfl
    | nothing what => rfl
    | type o =>
      have ho := hlt o howner
      obtain ⟨syms, hsyms, hscopes⟩ := h.mapM_lineageScopes hp ho
      simp only [(h.lineage_eq hp ho).1, hsyms, hscopes, Option.bind_some,
        hp.allocated.symbolText_eq ho, ScopeTree.findSome?_filterMap_scope?,
        ScopeTree.flatMap_filterMap_scope?, h.mapM_names]
      cases (st.lineageScopes p o).findSome? (st.scopes.declared? · r.name) with
      | none => rfl
      | some t => rfl

end Pass.Sound

end NameBinding
