import NameBinding.Proofs.WellFormed

/-!
Single changes of a program: a text interned, a node appended to its table, a name entered into a
scope, a class changed. Each keeps a program well formed.
-/

namespace NameBinding

namespace Program

variable {p q : Program}

lemma expr?_addExpr (p : Program) (x : Expr) (e : ExprId) :
    (p.addExpr x).2.expr? e = if e.index = p.exprs.size then some x else p.expr? e := by
  simp only [addExpr, expr?, Array.getElem?_push]

lemma stmt?_addStmt (p : Program) (x : Stmt) (s : StmtId) :
    (p.addStmt x).2.stmt? s = if s.index = p.stmts.size then some x else p.stmt? s := by
  simp only [addStmt, stmt?, Array.getElem?_push]

lemma symbol?_addSymbol (p : Program) (x : Symbol) (v : SymbolId) :
    (p.addSymbol x).2.symbol? v = if v.index = p.symbols.size then some x else p.symbol? v := by
  simp only [addSymbol, symbol?, Array.getElem?_push]

lemma symbol?_modifyClass (p : Program) (s v : SymbolId) (f : ClassInfo → ClassInfo) :
    (p.modifyClass s f).symbol? v =
      if v = s then (p.symbol? v).map (Symbol.mapClass f) else p.symbol? v := by
  obtain ⟨i⟩ := s
  obtain ⟨j⟩ := v
  by_cases h : j = i
  · subst h
    simp [modifyClass, symbol?, Array.getElem?_modify]
  · have h' : ¬ i = j := fun e => h e.symm
    simp [modifyClass, symbol?, Array.getElem?_modify, h, h']

lemma kind?_addSymbol_of_some {v : SymbolId} {k : SymbolKind} (x : Symbol)
    (h : p.kind? v = some k) : (p.addSymbol x).2.kind? v = some k := by
  have hlt := lt_of_kind? h
  have hne : ¬ v.index = p.symbols.size := by omega
  unfold kind? at h ⊢
  rw [symbol?_addSymbol, if_neg hne, h]

/-- A class keeps being a class, and other symbols do not change. -/
lemma kind?_modifyClass (s v : SymbolId) (f : ClassInfo → ClassInfo) :
    (p.modifyClass s f).kind? v = if v = s then (p.kind? v).map fun
      | .classType c => .classType (f c)
      | k => k
    else p.kind? v := by
  unfold kind?
  rw [symbol?_modifyClass]
  split
  · cases p.symbol? v with
    | none => rfl
    | some sym =>
      obtain ⟨n, l, k⟩ := sym
      cases k <;> rfl
  · rfl

lemma class?_modifyClass (s v : SymbolId) (f : ClassInfo → ClassInfo) :
    (p.modifyClass s f).class? v = if v = s then (p.class? v).map f else p.class? v := by
  unfold class?
  rw [symbol?_modifyClass]
  split
  · cases p.symbol? v with
    | none => rfl
    | some sym =>
      obtain ⟨n, l, k⟩ := sym
      cases k <;> rfl
  · rfl

end Program

namespace NameTable

lemma size_le_intern (t : NameTable) (text : String) : t.size ≤ (t.intern text).2.size := by
  unfold intern
  split <;> simp [size]

lemma key_intern_lt (t : NameTable) (text : String) :
    (t.intern text).1.key < (t.intern text).2.size := by
  have h := text?_intern t text
  exact (Array.getElem?_eq_some_iff.mp h).1

end NameTable

namespace ScopeTree

lemma scope?_add {t t' : ScopeTree} {s : ScopeId} {n : Name} {v : SymbolId}
    (h : t.add s n v = .ok t') (r : ScopeId) :
    t'.scope? r = if r = s then (t.scope? r).map fun sc =>
      { sc with entries := sc.entries.insertIfNew n v } else t.scope? r := by
  unfold add at h
  split at h
  · simp at h
  · obtain rfl := Except.ok.inj h
    obtain ⟨i⟩ := s
    obtain ⟨j⟩ := r
    by_cases hj : j = i
    · subst hj
      simp [scope?, Array.getElem?_modify]
    · have hj' : ¬ i = j := fun e => hj e.symm
      simp [scope?, Array.getElem?_modify, hj, hj']

lemma size_add {t t' : ScopeTree} {s : ScopeId} {n : Name} {v : SymbolId}
    (h : t.add s n v = .ok t') : t'.size = t.size := by
  unfold add at h
  split at h
  · simp at h
  · obtain rfl := Except.ok.inj h
    simp [size]

lemma lt_of_scope? {t : ScopeTree} {s : ScopeId} {sc : Scope} (h : t.scope? s = some sc) :
    s.index < t.size :=
  (Array.getElem?_eq_some_iff.mp h).1

end ScopeTree

lemma OrderedMap.mem_insertIfNew {κ ν : Type} [DecidableEq κ] {m : OrderedMap κ ν} {k : κ} {v : ν}
    {e : κ × ν} (h : e ∈ (m.insertIfNew k v).entries) : e ∈ m.entries ∨ e = (k, v) := by
  unfold insertIfNew at h
  split at h
  · exact .inl h
  · simpa using h

namespace Program

variable {p q : Program}

lemma WellFormed.intern (hp : p.WellFormed) (text : String) : (p.intern text).2.WellFormed := by
  have hle : p.extent.Le (p.intern text).2.extent :=
    ⟨p.names.size_le_intern text, le_rfl, le_rfl, le_rfl, le_rfl⟩
  refine ⟨hp.allocated.extend hle (fun _ _ h => .inl h) (fun _ _ h => .inl h)
    (fun _ _ h => .inl h) (fun _ _ h => .inl h), ?_⟩
  exact hp.listed.keeps ⟨fun _ _ h => h, fun _ sc h => ⟨sc, h, rfl⟩⟩ rfl rfl

lemma WellFormed.addExpr (hp : p.WellFormed) {x : Expr} (hx : x.Within p.extent) :
    (p.addExpr x).2.WellFormed := by
  have hsize : (p.addExpr x).2.exprs.size = p.exprs.size + 1 := by simp [Program.addExpr]
  have hle : p.extent.Le (p.addExpr x).2.extent :=
    ⟨le_rfl, by simp only [extent, hsize]; omega, le_rfl, le_rfl, le_rfl⟩
  refine ⟨hp.allocated.extend hle ?_ (fun _ _ h => .inl h) (fun _ _ h => .inl h)
    (fun _ _ h => .inl h), hp.listed.keeps ⟨fun _ _ h => h, fun _ sc h => ⟨sc, h, rfl⟩⟩ rfl rfl⟩
  intro e y h
  rw [expr?_addExpr] at h
  split at h
  · next he =>
    obtain rfl := Option.some.inj h
    exact .inr (hx.mono ⟨le_rfl, he.ge, le_rfl, le_rfl, le_rfl⟩)
  · exact .inl h

lemma WellFormed.addStmt (hp : p.WellFormed) {x : Stmt} (hx : x.Within p.extent) :
    (p.addStmt x).2.WellFormed := by
  have hsize : (p.addStmt x).2.stmts.size = p.stmts.size + 1 := by simp [Program.addStmt]
  have hle : p.extent.Le (p.addStmt x).2.extent :=
    ⟨le_rfl, le_rfl, by simp only [extent, hsize]; omega, le_rfl, le_rfl⟩
  refine ⟨hp.allocated.extend hle (fun _ _ h => .inl h) ?_ (fun _ _ h => .inl h)
    (fun _ _ h => .inl h), hp.listed.keeps ⟨fun _ _ h => h, fun _ sc h => ⟨sc, h, rfl⟩⟩ rfl rfl⟩
  intro s y h
  rw [stmt?_addStmt] at h
  split at h
  · next hs =>
    obtain rfl := Option.some.inj h
    exact .inr (hx.mono ⟨le_rfl, le_rfl, hs.ge, le_rfl, le_rfl⟩)
  · exact .inl h

lemma WellFormed.addSymbol (hp : p.WellFormed) {x : Symbol} (hx : x.Within p.extent) :
    (p.addSymbol x).2.WellFormed := by
  have hsize : (p.addSymbol x).2.symbols.size = p.symbols.size + 1 := by simp [Program.addSymbol]
  have hle : p.extent.Le (p.addSymbol x).2.extent :=
    ⟨le_rfl, le_rfl, le_rfl, by simp only [extent, hsize]; omega, le_rfl⟩
  refine ⟨hp.allocated.extend hle (fun _ _ h => .inl h) (fun _ _ h => .inl h) ?_
    (fun _ _ h => .inl h), hp.listed.keeps
      ⟨fun _ _ h => kind?_addSymbol_of_some x h, fun _ sc h => ⟨sc, h, rfl⟩⟩ rfl rfl⟩
  intro v y h
  rw [symbol?_addSymbol] at h
  split at h
  · obtain rfl := Option.some.inj h
    exact .inr (hx.mono hle)
  · exact .inl h

lemma WellFormed.enter (hp : p.WellFormed) (scope : ScopeId) {n : Name} {v : SymbolId}
    (hn : n.key < p.names.size) (hv : v.index < p.symbols.size) :
    (p.enter scope n v).WellFormed := by
  unfold Program.enter
  split
  · next scopes h =>
    have hle : p.extent.Le ({ p with scopes } : Program).extent :=
      ⟨le_rfl, le_rfl, le_rfl, le_rfl, (ScopeTree.size_add h).ge⟩
    refine ⟨hp.allocated.extend hle (fun _ _ h => .inl h) (fun _ _ h => .inl h)
      (fun _ _ h => .inl h) ?_, hp.listed.keeps ⟨fun _ _ h => h, ?_⟩ rfl rfl⟩
    · intro s sc hs
      rw [ScopeTree.scope?_add h] at hs
      split at hs
      · obtain ⟨old, hold, rfl⟩ := Option.map_eq_some_iff.mp hs
        obtain ⟨hpar, hent⟩ := hp.allocated.scopes s old hold
        refine .inr ⟨hpar, fun e he => ?_⟩
        rcases OrderedMap.mem_insertIfNew he with he | rfl
        · exact hent e he
        · exact ⟨hn, hv⟩
      · exact .inl hs
    · intro s sc hs
      rw [ScopeTree.scope?_add h]
      split
      · exact ⟨{ sc with entries := sc.entries.insertIfNew n v }, by rw [hs]; rfl, rfl⟩
      · exact ⟨sc, hs, rfl⟩
  · exact hp

/-- A change of a class that keeps its scope and lists what is new or was listed before. -/
lemma WellFormed.modifyClass (hp : p.WellFormed) (s : SymbolId) {f : ClassInfo → ClassInfo}
    (hin : ∀ x, p.symbol? s = some x → (x.mapClass f).Within p.extent)
    (hlists : ∀ c, s ∈ p.classes → p.class? s = some c → p.Lists c → p.Lists (f c))
    (hnew : ∀ c, ∀ v ∈ (f c).callables, v ∈ c.callables ∨
      ∀ t ∈ p.classes, ∀ c', p.class? t = some c' → v ∉ c'.callables) :
    (p.modifyClass s f).WellFormed := by
  have hle : p.extent.Le (p.modifyClass s f).extent := by
    refine ⟨le_rfl, le_rfl, le_rfl, ?_, le_rfl⟩
    simp [extent, Program.modifyClass]
  have hkind : ∀ v k, (∀ c, k ≠ .classType c) → p.kind? v = some k →
      (p.modifyClass s f).kind? v = some k := by
    intro v k hk h
    rw [kind?_modifyClass, h]
    split
    · cases k with
      | classType c => exact absurd rfl (hk c)
      | _ => rfl
    · rfl
  have hkeep : ∀ c, p.Lists c → (p.modifyClass s f).Lists c := by
    intro c hc
    refine ⟨hc.parent, ?_, ?_, ?_, ?_, hc.nodup⟩
    · exact fun v hv => (hc.consts v hv).imp fun _ => hkind v _ (by simp)
    · exact fun v hv => (hc.fields v hv).imp fun _ => hkind v _ (by simp)
    · exact fun v hv => (hc.methods v hv).imp fun _ => hkind v _ (by simp)
    · exact fun v hv => (hc.constructor v hv).imp fun _ => hkind v _ (by simp)
  -- a class of the result is one from before, changed if it is `s`
  have hclass : ∀ t c, (p.modifyClass s f).class? t = some c →
      ∃ c₀, p.class? t = some c₀ ∧ (t = s ∧ c = f c₀ ∨ t ≠ s ∧ c = c₀) := by
    intro t c h
    rw [class?_modifyClass] at h
    split at h
    · next ht =>
      obtain ⟨c₀, h₀, rfl⟩ := Option.map_eq_some_iff.mp h
      exact ⟨c₀, h₀, .inl ⟨ht, rfl⟩⟩
    · next ht => exact ⟨c, h, .inr ⟨ht, rfl⟩⟩
  refine ⟨hp.allocated.extend hle (fun _ _ h => .inl h) (fun _ _ h => .inl h) ?_
    (fun _ _ h => .inl h), hp.listed.root, ?_, ?_, hp.listed.nodup, ?_⟩
  · intro v x h
    rw [symbol?_modifyClass] at h
    split at h
    · next hv =>
      obtain ⟨x₀, h₀, rfl⟩ := Option.map_eq_some_iff.mp h
      exact .inr ((hin x₀ (hv ▸ h₀)).mono hle)
    · exact .inl h
  · intro t ht
    obtain ⟨c, hc, hl⟩ := hp.listed.classes t ht
    rw [class?_modifyClass, hc]
    split
    · next hts =>
      subst hts
      exact ⟨f c, rfl, hkeep _ (hlists c ht hc hl)⟩
    · exact ⟨c, rfl, hkeep c hl⟩
  · intro t ht
    obtain ⟨e, he, hpar⟩ := hp.listed.enums t ht
    exact ⟨e, enum?_eq_some.mpr (hkind t _ (by simp) (enum?_eq_some.mp he)), hpar⟩
  · intro t ht t' ht' c c' hc hc' v hv hv'
    obtain ⟨c₀, h₀, hcase⟩ := hclass t c hc
    obtain ⟨c₀', h₀', hcase'⟩ := hclass t' c' hc'
    rcases hcase with ⟨rfl, rfl⟩ | ⟨hts, rfl⟩ <;> rcases hcase' with ⟨rfl, rfl⟩ | ⟨hts', rfl⟩
    · rfl
    · rcases hnew c₀ v hv with hv | hv
      · exact hp.listed.owners _ ht _ ht' _ _ h₀ h₀' v hv hv'
      · exact absurd hv' (hv t' ht' _ h₀')
    · rcases hnew c₀' v hv' with hv' | hv'
      · exact hp.listed.owners _ ht _ ht' _ _ h₀ h₀' v hv hv'
      · exact absurd hv (hv' t ht _ h₀)
    · exact hp.listed.owners _ ht _ ht' _ _ h₀ h₀' v hv hv'

/-- A symbol that was not there is listed by no class. -/
lemma Listed.fresh (hp : p.Listed) {v : SymbolId} (hv : p.symbols.size ≤ v.index) :
    ∀ t ∈ p.classes, ∀ c, p.class? t = some c → v ∉ c.callables := by
  intro t ht c hc hmem
  have := (hp.lists ht hc).callables_lt v hmem
  omega

end Program

end NameBinding
