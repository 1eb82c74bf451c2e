import NameBinding.Proofs.LookupOrder

/-!
What can be reached from the classes and enums of a program. If locals and parameters are variables,
and the scopes of enums hold constants only, then the pass looks up every name that can be reached.
-/

namespace NameBinding

namespace Program

variable {p : Program}

/-- The symbols that stand directly in a symbol: parameters, and the members of types. -/
def symbolsOf (p : Program) (v : SymbolId) : List SymbolId :=
  ((p.symbol? v).map (·.kind.symbols)).getD [] ++
    ((p.enum? v).map fun t => p.members t.scope).getD []

/-- What stands directly in an expression, a statement or a symbol. -/
def partsOf (p : Program) : Site → List Site
  | .expr e => (p.operands e).map .expr
  | .stmt s => (p.exprsAt (.stmt s)).map .expr ++ (p.below s).map .stmt ++
    (p.declares? s).toList.map .symbol
  | .symbol v => (p.exprsAt (.symbol v)).map .expr ++ (p.stmtsOf v).map .stmt ++
    (p.symbolsOf v).map .symbol

/-- What is a class or an enum at the top, or stands in something that can be reached. -/
inductive Reachable (p : Program) : Site → Prop
  | top {v : SymbolId} : v ∈ p.classes ++ p.enums → Reachable p (.symbol v)
  | part {a b : Site} : Reachable p a → b ∈ p.partsOf a → Reachable p b

/-- All free names can be reached, locals and parameters are variables, and the scopes of enums hold
constants only. -/
structure Orderly (p : Program) : Prop where
  reachable : ∀ e n, p.reference? e = some (.free n) → p.Reachable (.expr e)
  locals : ∀ s v, p.declares? s = some v → ∃ value, p.kind? v = some (.var value)
  parameters : ∀ v m, p.kind? v = some (.method m) → ∀ w ∈ m.parameters,
    ∃ value, p.kind? w = some (.var value)
  constants : ∀ v t, p.kind? v = some (.enumType t) → ∀ w ∈ p.members t.scope,
    ∃ value, p.kind? w = some (.const value)

end Program

/-! ### Names of parts -/

namespace Script

variable {p : Program} {x : ExprId}

@[simp] lemma lookups_nested (f : StmtId → Script) (s : StmtId) :
    (nested p f s).lookups p = (f s).lookups p := by
  unfold nested
  split <;> rfl

@[simp] lemma lookups_exprs (es : List ExprId) :
    (exprs p es).lookups p = es.flatMap fun e => (expr p e).lookups p :=
  lookups_each _ _

/-- The names in the parts of a statement are looked up with it. -/
lemma mem_lookups_stmtStep {f : StmtId → Script} (s : StmtId) (y : Stmt)
    (h : (∃ e ∈ y.exprs, x ∈ (expr p e).lookups p) ∨ (∃ c ∈ y.children, x ∈ (f c).lookups p) ∨
      ∃ v, y.declared? = some v ∧ x ∈ (value p v).lookups p) :
    x ∈ (stmtStep p f s y).lookups p := by
  cases y with
  | forLoop init cond advance body line =>
    simp only [stmtStep, lookups, lookups_each, lookups_exprs, lookups_nested, List.mem_append,
      List.mem_flatMap, Stmt.exprs, Stmt.children, Stmt.declared?, List.mem_singleton] at h ⊢
    rcases h with h | ⟨c, hc | rfl, hx⟩ | ⟨v, hv, -⟩
    · exact .inr (.inl h)
    · exact .inl ⟨c, hc, hx⟩
    · exact .inr (.inr hx)
    · simp at hv
  | switch value cases defaultBody line =>
    simp only [stmtStep, lookups, case, clauseBody, lookups_each, lookups_exprs, List.mem_append,
      List.mem_flatMap, Stmt.exprs, Stmt.children, Stmt.declared?, List.mem_cons] at h ⊢
    have hindex : ∀ c ∈ cases, ∃ i, (c, i) ∈ cases.zipIdx := fun c hc => by
      obtain ⟨i, hi⟩ := List.mem_iff_getElem?.mp hc
      exact ⟨i, List.mk_mem_zipIdx_iff_getElem?.mpr hi⟩
    rcases h with ⟨e, rfl | ⟨c, hc, he⟩, hx⟩ | ⟨t, ⟨c, hc, ht⟩ | ht, hx⟩ | ⟨v, hv, -⟩
    · exact .inl hx
    · obtain ⟨i, hi⟩ := hindex c hc
      exact .inr (.inl ⟨(c, i), hi, he.elim (fun he => .inl ⟨e, he, hx⟩)
        fun he => .inr (.inr ⟨e, he, hx⟩)⟩)
    · obtain ⟨i, hi⟩ := hindex c hc
      exact .inr (.inl ⟨(c, i), hi, .inr (.inl ⟨t, ht, hx⟩)⟩)
    · cases defaultBody with
      | none => simp at ht
      | some body => exact .inr (.inr ⟨body, by simp, t, ht, hx⟩)
    · simp at hv
  | doWhile body cond line =>
    simpa [stmtStep, lookups, Stmt.exprs, Stmt.children, Stmt.declared?, or_comm] using h
  | breakLoop line | continueLoop line => simp [Stmt.exprs, Stmt.children, Stmt.declared?] at h
  | _ => simpa [stmtStep, lookups, Stmt.exprs, Stmt.children, Stmt.declared?, localVar] using h

end Script

/-! ### Reachable names are looked up -/

namespace Program

variable {p : Program}

/-- The names in a symbol of some kind are looked up; a type is one of those at the top. -/
def LookedAtAs (p : Program) (v : SymbolId) : SymbolKind → Prop
  | .classType _ => v ∈ p.classes
  | .enumType _ => v ∈ p.enums
  | .method _ => (Script.method p v).lookups p ⊆ p.lookups
  | .constructor _ => (Script.constructor p v).lookups p ⊆ p.lookups
  | .var _ | .field _ | .const _ => (Script.value p v).lookups p ⊆ p.lookups
  | .builtin _ => True

/-- The names in a node are looked up. -/
def LookedAt (p : Program) : Site → Prop
  | .expr e => (Script.expr p e).lookups p ⊆ p.lookups
  | .stmt s => (Script.stmt p s).lookups p ⊆ p.lookups
  | .symbol v => ∀ kind, p.kind? v = some kind → p.LookedAtAs v kind

lemma LookedAtAs.lookedAt {v : SymbolId} {kind : SymbolKind} (h : p.LookedAtAs v kind)
    (hv : p.kind? v = some kind) : p.LookedAt (.symbol v) := by
  intro kind' hkind'
  obtain rfl := Option.some.inj (hv.symm.trans hkind')
  exact h

lemma lookups_class_subset {s : SymbolId} {c : ClassInfo} (hs : s ∈ p.classes)
    (hc : p.class? s = some c) : (Script.classType p s c).lookups p ⊆ p.lookups := by
  intro x hx
  refine List.mem_flatMap.mpr ⟨(c.scope, Script.classType p s c), ?_, hx⟩
  exact List.mem_append_left _ (List.mem_filterMap.mpr ⟨s, hs, by rw [hc]; rfl⟩)

lemma lookups_enum_subset {s : SymbolId} {t : EnumInfo} (hs : s ∈ p.enums)
    (ht : p.enum? s = some t) : (Script.enumType p t).lookups p ⊆ p.lookups := by
  intro x hx
  refine List.mem_flatMap.mpr ⟨(t.scope, Script.enumType p t), ?_, hx⟩
  exact List.mem_append_right _ (List.mem_filterMap.mpr ⟨s, hs, by rw [ht]; rfl⟩)

lemma LookedAt.expr (hp : p.Allocated) {e : ExprId} (h : p.LookedAt (.expr e)) :
    ∀ b ∈ p.partsOf (.expr e), p.LookedAt b := by
  intro b hb
  obtain ⟨c, hc, rfl⟩ := List.mem_map.mp hb
  intro x hx
  refine h ?_
  rw [Script.lookups_expr hp]
  exact List.mem_append_left _ (List.mem_flatMap.mpr ⟨c, hc, hx⟩)

lemma LookedAt.stmt (hp : p.Allocated) (ho : p.Orderly) {s : StmtId} (h : p.LookedAt (.stmt s)) :
    ∀ b ∈ p.partsOf (.stmt s), p.LookedAt b := by
  intro b hb
  cases hs : p.stmt? s with
  | none => simp [partsOf, exprsAt, below, declares?, hs] at hb
  | some y =>
    have hlookups : (Script.stmtStep p (Script.stmt p) s y).lookups p ⊆ p.lookups := by
      rw [← Script.stmt_eq hp hs]
      exact h
    have hstep := fun x hx => hlookups (Script.mem_lookups_stmtStep (x := x) s y hx)
    simp only [partsOf, exprsAt, below, declares?, hs, Option.map_some, Option.getD_some,
      Option.bind_some, List.mem_append, List.mem_map, or_assoc] at hb
    rcases hb with ⟨e, he, rfl⟩ | ⟨c, hc, rfl⟩ | ⟨v, hv, rfl⟩
    · exact fun x hx => hstep x (.inl ⟨e, he, hx⟩)
    · exact fun x hx => hstep x (.inr (.inl ⟨c, hc, hx⟩))
    · have hdeclared : y.declared? = some v := by simpa using hv
      obtain ⟨value, hvalue⟩ := ho.locals s v (by simp [declares?, hs, hdeclared])
      have hlooked : p.LookedAtAs v (.var value) :=
        fun x hx => hstep x (.inr (.inr ⟨v, hdeclared, hx⟩))
      exact hlooked.lookedAt hvalue

lemma LookedAt.classType (hp : p.Listed) {s : SymbolId} {c : ClassInfo} (hs : s ∈ p.classes)
    (hc : p.class? s = some c) :
    (∀ t ∈ (c.destructor.map Block.statements).getD [], p.LookedAt (.stmt t)) ∧
      ∀ v ∈ (SymbolKind.classType c).symbols, p.LookedAt (.symbol v) := by
  have hlists := hp.lists hs hc
  have hsubset := lookups_class_subset hs hc
  simp only [Script.classType, Script.lookups, Script.lookups_each, List.append_subset,
    List.flatMap_append] at hsubset
  obtain ⟨⟨hconsts, hfields⟩, hconstructor, hdestructor, hmethods⟩ := hsubset
  refine ⟨fun t ht x hx => ?_, fun v hv => ?_⟩
  · cases hd : c.destructor with
    | none => simp [hd] at ht
    | some b =>
      rw [hd, Option.map_some, Option.getD_some] at ht
      refine hdestructor (List.mem_flatMap.mpr ⟨b, by simp [hd], ?_⟩)
      simpa [Script.plainBody, Script.lookups] using ⟨t, ht, hx⟩
  · simp only [SymbolKind.symbols, List.mem_append, or_assoc] at hv
    rcases hv with hv | hv | hv | hv
    · obtain ⟨m, hm⟩ := hlists.constructor v hv
      have hlooked : p.LookedAtAs v (.constructor m) :=
        fun x hx => hconstructor (List.mem_flatMap.mpr ⟨v, hv, hx⟩)
      exact hlooked.lookedAt hm
    · obtain ⟨m, hm⟩ := hlists.consts v hv
      have hlooked : p.LookedAtAs v (.const m) :=
        fun x hx => hconsts (List.mem_flatMap.mpr ⟨v, hv, hx⟩)
      exact hlooked.lookedAt hm
    · obtain ⟨m, hm⟩ := hlists.fields v hv
      have hlooked : p.LookedAtAs v (.field m) :=
        fun x hx => hfields (List.mem_flatMap.mpr ⟨v, hv, hx⟩)
      exact hlooked.lookedAt hm
    · obtain ⟨m, hm⟩ := hlists.methods v hv
      have hlooked : p.LookedAtAs v (.method m) :=
        fun x hx => hmethods (List.mem_flatMap.mpr ⟨v, hv, hx⟩)
      exact hlooked.lookedAt hm

lemma LookedAt.symbol (hp : p.WellFormed) (ho : p.Orderly) {v : SymbolId}
    (h : p.LookedAt (.symbol v)) : ∀ b ∈ p.partsOf (.symbol v), p.LookedAt b := by
  intro b hb
  cases hv : p.symbol? v with
  | none => simp [partsOf, exprsAt, stmtsOf, symbolsOf, enum?, hv] at hb
  | some sym =>
    obtain ⟨n, line, kind⟩ := sym
    have hkind : p.kind? v = some kind := by simp [kind?, hv]
    have hlooked := h kind hkind
    simp only [partsOf, exprsAt, stmtsOf, symbolsOf, enum?, hv, Option.map_some, Option.getD_some,
      Option.bind_some, List.mem_append, List.mem_map, or_assoc] at hb
    have hvalue : ∀ e ∈ p.valueExprs v, (Script.value p v).lookups p ⊆ p.lookups →
        p.LookedAt (.expr e) := fun e he hsubset x hx =>
      hsubset ((Script.lookups_exprs _).symm ▸ List.mem_flatMap.mpr ⟨e, he, hx⟩)
    cases kind with
    | classType c =>
      obtain ⟨hstmts, hsymbols⟩ := LookedAt.classType hp.listed hlooked (class?_eq_some.mpr hkind)
      rcases hb with ⟨e, he, rfl⟩ | ⟨t, ht, rfl⟩ | ⟨w, hw | hw, rfl⟩
      · simp [SymbolKind.exprs] at he
      · exact hstmts t ht
      · exact hsymbols w hw
      · simp [Symbol.enum?] at hw
    | enumType t =>
      have hsubset := lookups_enum_subset hlooked (enum?_eq_some.mpr hkind)
      rcases hb with ⟨e, he, rfl⟩ | ⟨s, hs, rfl⟩ | ⟨w, hw | hw, rfl⟩
      · simp [SymbolKind.exprs] at he
      · simp [SymbolKind.stmts] at hs
      · simp [SymbolKind.symbols] at hw
      · have hmember : w ∈ p.members t.scope := hw
        obtain ⟨value, hconst⟩ := ho.constants v t hkind w hmember
        have hlooked : p.LookedAtAs w (.const value) := fun x hx => hsubset (by
          rw [Script.enumType, Script.lookups_each]
          exact List.mem_flatMap.mpr ⟨w, hmember, hx⟩)
        exact hlooked.lookedAt hconst
    | method m =>
      have hm : (p.symbol? v).bind (·.method?) = some m := by simp [hv, Symbol.method?]
      have hsubset : (Script.method p v).lookups p ⊆ p.lookups := hlooked
      simp only [Script.method, hm, Script.lookups, Script.lookups_each, Script.lookups_exprs,
        Script.localVar, List.append_nil, List.append_subset] at hsubset
      obtain ⟨hreturn, hparameters, hbody⟩ := hsubset
      rcases hb with ⟨e, he, rfl⟩ | ⟨s, hs, rfl⟩ | ⟨w, hw | hw, rfl⟩
      · exact fun x hx => hreturn (List.mem_flatMap.mpr ⟨e, he, hx⟩)
      · exact fun x hx => hbody (List.mem_flatMap.mpr ⟨s, hs, hx⟩)
      · obtain ⟨value, hvar⟩ := ho.parameters v m hkind w hw
        have hlooked : p.LookedAtAs w (.var value) :=
          fun x hx => hparameters (List.mem_flatMap.mpr ⟨w, hw, hx⟩)
        exact hlooked.lookedAt hvar
      · simp [Symbol.enum?] at hw
    | constructor c =>
      have hc : (p.symbol? v).bind (·.constructor?) = some c := by simp [hv, Symbol.constructor?]
      have hsubset : (Script.constructor p v).lookups p ⊆ p.lookups := hlooked
      simp only [Script.constructor, hc, Script.plainBody, Script.lookups,
        Script.lookups_each] at hsubset
      rcases hb with ⟨e, he, rfl⟩ | ⟨s, hs, rfl⟩ | ⟨w, hw | hw, rfl⟩
      · simp [SymbolKind.exprs] at he
      · exact fun x hx => hsubset (List.mem_flatMap.mpr ⟨s, hs, hx⟩)
      · simp [SymbolKind.symbols] at hw
      · simp [Symbol.enum?] at hw
    | builtin t => simp [SymbolKind.exprs, SymbolKind.stmts, SymbolKind.symbols, Symbol.enum?] at hb
    | var value | field value | const value =>
      obtain ⟨e, he, rfl⟩ : ∃ e ∈ p.valueExprs v, Site.expr e = b := by
        simpa [valueExprs, typedValue?, hv, Symbol.typedValue?, SymbolKind.exprs, SymbolKind.stmts,
          SymbolKind.symbols, Symbol.enum?] using hb
      exact hvalue e he hlooked

/-- **Reachable names are looked up**. -/
theorem Orderly.mem_lookups (ho : p.Orderly) (hp : p.WellFormed) {e : ExprId} {n : Name}
    (he : p.reference? e = some (.free n)) : e ∈ p.lookups := by
  have hlooked : ∀ a, p.Reachable a → p.LookedAt a := by
    intro a ha
    induction ha with
    | @top v hv =>
      intro kind hkind
      rcases List.mem_append.mp hv with hv | hv
      · obtain ⟨c, hc⟩ := hp.listed.class?_of_mem hv
        obtain rfl := Option.some.inj ((class?_eq_some.mp hc).symm.trans hkind)
        exact hv
      · obtain ⟨t, ht, -⟩ := hp.listed.enums v hv
        obtain rfl := Option.some.inj ((enum?_eq_some.mp ht).symm.trans hkind)
        exact hv
    | @part a b _ hb ih =>
      cases a with
      | expr e => exact LookedAt.expr hp.allocated ih b hb
      | stmt s => exact LookedAt.stmt hp.allocated ho ih b hb
      | symbol v => exact LookedAt.symbol hp ho ih b hb
  refine hlooked _ (ho.reachable e n he) ?_
  rw [Script.lookups_expr hp.allocated, he]
  simp

end Program

end NameBinding
