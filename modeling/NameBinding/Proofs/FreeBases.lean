import NameBinding.Proofs.Success
import NameBinding.Proofs.WellFormed.Operations

/-!
The base classes that stay free. In a program to which bindings were applied all names are bound,
and so are the bases of all classes that it lists. But a class can also be declared as a symbol of
its own, and is then not listed: nothing asks for its base to be bound.
-/

namespace NameBinding

/-- Whether a symbol is a class with a base that is not bound. -/
def Symbol.hasFreeBase (x : Symbol) : Bool := x.baseClass?.any fun b => !b.reference.isBound

lemma Symbol.hasFreeBase_mapClass {f : ClassInfo → ClassInfo}
    (hf : ∀ c, (f c).baseClass = c.baseClass) (x : Symbol) :
    (x.mapClass f).hasFreeBase = x.hasFreeBase := by
  obtain ⟨n, l, k⟩ := x
  cases k with
  | classType c => simp [hasFreeBase, mapClass, baseClass?, class?, hf]
  | _ => rfl

lemma Reference.isBound_bind (ref : Reference) (t : SymbolId) : (ref.bind t).isBound = true := by
  cases ref <;> rfl

lemma Symbol.hasFreeBase_bindBase (x : Symbol) (t : SymbolId) :
    (x.mapClass (·.bindBase t)).hasFreeBase = false := by
  obtain ⟨n, l, k⟩ := x
  cases k with
  | classType c =>
    cases hc : c.baseClass <;> simp [hasFreeBase, mapClass, baseClass?, class?, ClassInfo.bindBase,
      hc, Reference.isBound_bind]
  | _ => rfl

namespace Program

variable {p q : Program} {s : SymbolId}

def hasFreeBase (p : Program) (s : SymbolId) : Bool := (p.symbol? s).any Symbol.hasFreeBase

/-- A class with a free base that is not listed. -/
def StrayBase (p : Program) (s : SymbolId) : Prop := p.hasFreeBase s = true ∧ s ∉ p.classes

/-- The class that an operation declares and does not list, if its base is free. -/
def stray? (p : Program) : Operation → Option SymbolId
  | .declare scope x =>
    if p.scopes.declared? scope x.name = none ∧ x.hasFreeBase = true then some ⟨p.symbols.size⟩
    else none
  | _ => none

/-- The classes with free bases that operations declare and do not list. -/
def strayClasses (p : Program) : List Operation → List SymbolId
  | [] => []
  | op :: ops => (p.stray? op).toList ++ (p.perform op).strayClasses ops

/-! ### What an operation does to bases -/

/-- The same bases are free, and the same classes are listed. -/
structure SameBases (p q : Program) : Prop where
  free : ∀ s, q.hasFreeBase s = p.hasFreeBase s
  classes : q.classes = p.classes

lemma SameBases.refl (p : Program) : p.SameBases p := ⟨fun _ => rfl, rfl⟩

lemma SameBases.trans {r : Program} (h : p.SameBases q) (h' : q.SameBases r) : p.SameBases r :=
  ⟨fun s => (h'.free s).trans (h.free s), h'.classes.trans h.classes⟩

lemma SameBases.of_symbols (h : q.symbols = p.symbols) (hc : q.classes = p.classes) :
    p.SameBases q :=
  ⟨fun s => by rw [hasFreeBase, hasFreeBase, symbol?, symbol?, h], hc⟩

lemma SameBases.strayBase_iff (h : p.SameBases q) : q.StrayBase s ↔ p.StrayBase s := by
  rw [StrayBase, StrayBase, h.free, h.classes]

/-- A symbol that is not there yet has no base. -/
lemma hasFreeBase_fresh (p : Program) : p.hasFreeBase ⟨p.symbols.size⟩ = false := by
  simp [hasFreeBase, symbol?]

lemma hasFreeBase_addSymbol (x : Symbol) : (p.addSymbol x).2.hasFreeBase s =
    if s = ⟨p.symbols.size⟩ then x.hasFreeBase else p.hasFreeBase s := by
  obtain ⟨i⟩ := s
  simp only [hasFreeBase, symbol?_addSymbol, SymbolId.mk.injEq]
  split <;> rfl

lemma sameBases_addSymbol {x : Symbol} (hx : x.hasFreeBase = false) :
    p.SameBases (p.addSymbol x).2 := by
  refine ⟨fun s => ?_, rfl⟩
  rw [hasFreeBase_addSymbol]
  split
  · next hs => rw [hs, hx, hasFreeBase_fresh]
  · rfl

lemma sameBases_enter (scope : ScopeId) (n : Name) (v : SymbolId) :
    p.SameBases (p.enter scope n v) :=
  .of_symbols (enter_tables scope n v).1 (enter_tables scope n v).2

lemma sameBases_modifyClass (v : SymbolId) {f : ClassInfo → ClassInfo}
    (hf : ∀ c, (f c).baseClass = c.baseClass) : p.SameBases (p.modifyClass v f) := by
  refine ⟨fun s => ?_, rfl⟩
  rw [hasFreeBase, hasFreeBase, symbol?_modifyClass]
  split
  · rw [Option.any_map]
    exact congrArg (Option.any · _) (funext fun x => x.hasFreeBase_mapClass hf)
  · rfl

/-- Of a type declared at the top only its own base is new. -/
lemma hasFreeBase_declareType (n : Name) (line : Line) (kind : ScopeId → SymbolKind) :
    (p.declareType n line kind).2.hasFreeBase s = if s = ⟨p.symbols.size⟩ then
      (⟨n, line, kind ⟨p.scopes.size⟩⟩ : Symbol).hasFreeBase else p.hasFreeBase s := by
  set p₁ : Program :=
    { p with scopes := (p.scopes.addChild ScopeTree.global (.type ⟨p.symbols.size⟩)).2 }
  set x : Symbol := ⟨n, line, kind ⟨p.scopes.size⟩⟩
  have heq : (p.declareType n line kind).2 =
      (p₁.addSymbol x).2.enter ScopeTree.global n ⟨p.symbols.size⟩ := rfl
  rw [heq, (sameBases_enter ..).free, hasFreeBase_addSymbol]
  rfl

lemma classes_declareType (n : Name) (line : Line) (kind : ScopeId → SymbolKind) :
    (p.declareType n line kind).2.classes = p.classes :=
  (sameBases_enter ..).classes

lemma sameBases_declare {scope : ScopeId} {x : Symbol} (hx : x.hasFreeBase = false) :
    p.SameBases (p.declare scope x).2 := by
  cases h : p.scopes.declared? scope x.name with
  | some v =>
    rw [declare_of_some h]
    exact .refl p
  | none =>
    rw [declare_of_none h]
    exact (sameBases_addSymbol hx).trans (sameBases_enter ..)

lemma sameBases_intern (p : Program) (text : String) : p.SameBases (p.intern text).2 :=
  .of_symbols rfl rfl

/-- A declaration that is not refused brings one symbol. -/
lemma declare_bases {scope : ScopeId} {x : Symbol} (h : p.scopes.declared? scope x.name = none) :
    (p.declare scope x).2.classes = p.classes ∧ ∀ s, (p.declare scope x).2.hasFreeBase s =
      if s = ⟨p.symbols.size⟩ then x.hasFreeBase else p.hasFreeBase s := by
  have hsame := (p.addSymbol x).2.sameBases_enter scope x.name ⟨p.symbols.size⟩
  rw [declare_of_none h]
  exact ⟨hsame.classes, fun s => (hsame.free s).trans (hasFreeBase_addSymbol x)⟩

/-- A class declared at the top is listed, if it is not refused. -/
lemma declareClass_bases (p : Program) (text : String) (line : Line) (head : ClassHead) :
    p.SameBases (p.declareClass text line head).2 ∨
      (p.declareClass text line head).2.classes = p.classes ++ [⟨p.symbols.size⟩] ∧
      ∀ s, s ≠ ⟨p.symbols.size⟩ →
        (p.declareClass text line head).2.hasFreeBase s = p.hasFreeBase s := by
  rw [declareClass]
  simp only
  split
  · exact .inl (p.sameBases_intern text)
  · right
    cases head.baseClass with
    | none =>
      refine ⟨congrArg (· ++ _) (classes_declareType ..), fun s hs => ?_⟩
      exact (hasFreeBase_declareType ..).trans (if_neg hs)
    | some base =>
      refine ⟨congrArg (· ++ _) (classes_declareType ..), fun s hs => ?_⟩
      exact (hasFreeBase_declareType ..).trans (if_neg hs)

lemma sameBases_declareEnum (p : Program) (text : String) (line : Line) (head : EnumHead) :
    p.SameBases (p.declareEnum text line head).2 := by
  rw [declareEnum]
  simp only
  split
  · exact p.sameBases_intern text
  · refine ⟨fun s => (hasFreeBase_declareType ..).trans ?_, classes_declareType ..⟩
    split
    · next hs => rw [hs]; exact (hasFreeBase_fresh _).symm
    · rfl

/-- Members are no classes. -/
lemma sameBases_declareMember (p : Program) (owner : SymbolId) (x : Symbol) :
    p.SameBases (p.declareMember owner x).2 := by
  rw [declareMember]
  split
  · exact .refl p
  · split
    · exact .refl p
    · next scope _ =>
      split
      · next haccepts =>
        have hx : x.hasFreeBase = false := by
          obtain ⟨m, hk⟩ | ⟨m, hk⟩ | ⟨m, hk⟩ := kind_of_accepts haccepts <;>
            simp [Symbol.hasFreeBase, Symbol.baseClass?, Symbol.class?, hk]
        have hsame : p.SameBases (p.declare scope x).2 := sameBases_declare hx
        split
        · next h => rwa [h] at hsame
        · next h =>
          rw [h] at hsame
          refine hsame.trans (sameBases_modifyClass owner fun c => ?_)
          cases hk : x.kind <;> rfl
      · exact .refl p

lemma sameBases_defineConstructor (p : Program) (s : SymbolId) (line : Line) (c : Callable) :
    p.SameBases (p.defineConstructor s line c).2 := by
  rw [defineConstructor]
  split
  · exact .refl p
  · split
    · exact .refl p
    · split
      · exact .refl p
      · exact (sameBases_addSymbol rfl).trans (sameBases_modifyClass s fun _ => rfl)

lemma sameBases_defineDestructor (p : Program) (s : SymbolId) (body : Block) :
    p.SameBases (p.defineDestructor s body).2 := by
  rw [defineDestructor]
  split
  · exact .refl p
  · split
    · exact .refl p
    · exact sameBases_modifyClass s fun _ => rfl

/-- What an operation does: it leaves bases and classes alone, or it declares one symbol, which it
lists only if it is a class at the top. -/
lemma perform_cases (p : Program) (op : Operation) :
    (p.SameBases (p.perform op) ∧ p.stray? op = none) ∨
    (∃ scope x, op = .declare scope x ∧ p.scopes.declared? scope x.name = none ∧
      (p.perform op).classes = p.classes ∧ ∀ s, (p.perform op).hasFreeBase s =
        if s = ⟨p.symbols.size⟩ then x.hasFreeBase else p.hasFreeBase s) ∨
    (p.stray? op = none ∧ (p.perform op).classes = p.classes ++ [⟨p.symbols.size⟩] ∧
      ∀ s, s ≠ ⟨p.symbols.size⟩ → (p.perform op).hasFreeBase s = p.hasFreeBase s) := by
  cases op with
  | intern text => exact .inl ⟨p.sameBases_intern text, rfl⟩
  | addExpr e => exact .inl ⟨.of_symbols rfl rfl, rfl⟩
  | addStmt s => exact .inl ⟨.of_symbols rfl rfl, rfl⟩
  | addVar text line value =>
    exact .inl ⟨(p.sameBases_intern text).trans (sameBases_addSymbol rfl), rfl⟩
  | declare scope x =>
    cases h : p.scopes.declared? scope x.name with
    | some v =>
      refine .inl ⟨?_, by simp [stray?, h]⟩
      rw [perform, declare_of_some h]
      exact .refl p
    | none => exact .inr (.inl ⟨scope, x, rfl, h, declare_bases h⟩)
  | declareClass text line head =>
    rcases p.declareClass_bases text line head with hsame | hlisted
    · exact .inl ⟨hsame, rfl⟩
    · exact .inr (.inr ⟨rfl, hlisted⟩)
  | declareEnum text line head => exact .inl ⟨p.sameBases_declareEnum text line head, rfl⟩
  | declareMember owner x => exact .inl ⟨p.sameBases_declareMember owner x, rfl⟩
  | defineConstructor s line c => exact .inl ⟨p.sameBases_defineConstructor s line c, rfl⟩
  | defineDestructor s body => exact .inl ⟨p.sameBases_defineDestructor s body, rfl⟩

/-- One operation adds to the stray classes the one that it declares and does not list. -/
lemma strayBase_perform_iff (hp : p.WellFormed) (op : Operation) :
    (p.perform op).StrayBase s ↔ p.StrayBase s ∨ p.stray? op = some s := by
  obtain ⟨hsame, hnone⟩ | ⟨scope, x, rfl, hfresh, hclasses, hfree⟩ | ⟨hnone, hclasses, hfree⟩ :=
    p.perform_cases op
  · simp [hsame.strayBase_iff, hnone]
  · rw [StrayBase, StrayBase, hclasses, hfree]
    by_cases hs : s = ⟨p.symbols.size⟩
    · subst hs
      simp [hasFreeBase_fresh, hp.listed.not_mem_classes, stray?, hfresh]
    · have hne : ¬ (⟨p.symbols.size⟩ : SymbolId) = s := fun h => hs h.symm
      simp [hs, stray?, hne]
  · rw [hnone, StrayBase, StrayBase, hclasses]
    by_cases hs : s = ⟨p.symbols.size⟩
    · subst hs
      simp [hasFreeBase_fresh]
    · simp [hfree s hs, hs]

/-- The stray classes of a program are those that its operations declare and do not list. -/
theorem strayBase_build?_iff (hp : p.Built) {ops : List Operation} (h : p.build? ops = some q) :
    q.StrayBase s ↔ p.StrayBase s ∨ s ∈ p.strayClasses ops := by
  induction ops generalizing p with
  | nil =>
    obtain rfl := Option.some.inj h
    simp [strayClasses]
  | cons op ops ih =>
    rw [build?] at h
    split at h
    · next hop =>
      rw [ih (hp.perform hop) h, strayBase_perform_iff hp.wellFormed, strayClasses, List.mem_append,
        Option.mem_toList, or_assoc]
    · simp at h

lemma not_strayBase_new : ¬ new.StrayBase s := by
  rintro ⟨hfree, -⟩
  have hnone : ∀ x ∈ new.symbols.toList, x.hasFreeBase = false := by decide
  cases hs : new.symbol? s with
  | none => simp [hasFreeBase, hs] at hfree
  | some x =>
    have hx := hnone x (Array.mem_toList_iff.mpr (Array.mem_of_getElem? hs))
    simp [hasFreeBase, hs, hx] at hfree

/-! ### What bindings do to bases -/

section Bind

variable {b : Bindings} {r : BoundProgram}

lemma applyBindings_eq_ok_iff : p.applyBindings b = .ok r ↔ p.unbound b = [] ∧
    r = ⟨p.bind b, b.methodScopes, b.blockScopes, b.clauseScopes⟩ := by
  cases hu : p.unbound b with
  | nil => simp [applyBindings, hu, eq_comm]
  | cons e es => simp [applyBindings, hu]

lemma reference?_bind (e : ExprId) : (p.bind b).reference? e =
    (p.reference? e).map fun ref => ((b.references.get? e).map ref.bind).getD ref := by
  simp only [reference?, expr?, bind, Array.getElem?_mapIdx]
  cases p.exprs[e.index]? with
  | none => rfl
  | some x =>
    cases b.references.get? e with
    | none => cases hx : x.reference? <;> simp [hx]
    | some t => cases x <;> rfl

lemma hasFreeBase_bind (s : SymbolId) : (p.bind b).hasFreeBase s = true ↔
    p.hasFreeBase s = true ∧ b.baseClasses.contains s = false := by
  simp only [hasFreeBase, symbol?, bind, Array.getElem?_mapIdx, OrderedMap.contains]
  cases p.symbols[s.index]? with
  | none => simp
  | some x =>
    cases b.baseClasses.get? s with
    | none => simp
    | some t => simp [x.hasFreeBase_bindBase t]

/-- Every name is bound in a program to which bindings could be applied. -/
lemma isBound_of_unbound (h : p.unbound b = []) {e : ExprId} {ref : Reference}
    (href : (p.bind b).reference? e = some ref) : ref.isBound = true := by
  rw [reference?_bind] at href
  obtain ⟨ref', href', rfl⟩ := Option.map_eq_some_iff.mp href
  have hcovered := (unbound_eq_nil_iff.mp h).2 e ref' href'
  cases hget : b.references.get? e with
  | some t => exact ref'.isBound_bind t
  | none =>
    by_contra hfree
    have hcontains := hcovered (Bool.eq_false_iff.mpr hfree)
    simp [OrderedMap.contains, hget] at hcontains

/-- The bases that stay free are those of stray classes that the bindings leave out. -/
lemma hasFreeBase_of_unbound (h : p.unbound b = []) (s : SymbolId) :
    (p.bind b).hasFreeBase s = true ↔ p.StrayBase s ∧ b.baseClasses.contains s = false := by
  rw [hasFreeBase_bind, StrayBase, and_assoc]
  refine and_congr_right fun hfree => ⟨fun hcontains => ⟨fun hs => ?_, hcontains⟩, And.right⟩
  cases hx : p.symbol? s with
  | none => simp [hasFreeBase, hx] at hfree
  | some x =>
    obtain ⟨base, hbase, hbound⟩ : ∃ base, x.baseClass? = some base ∧
        base.reference.isBound = false := by
      simpa [hasFreeBase, hx, Symbol.hasFreeBase, Option.any_eq_true] using hfree
    have hcovered := (unbound_eq_nil_iff.mp h).1 s hs base (by simp [hx, hbase]) hbound
    simp [hcontains] at hcovered

end Bind

end Program

namespace Pass

variable {p : Program} {st : Pass} {s : SymbolId}

lemma contains_foldl_bindBase {xs : List SymbolId}
    (h : (xs.foldl (bindBase p) st).bindings.baseClasses.contains s = true) :
    s ∈ xs ∨ st.bindings.baseClasses.contains s = true := by
  induction xs generalizing st with
  | nil => exact .inr h
  | cons x xs ih =>
    rcases ih h with hs | hs
    · exact .inl (List.mem_cons_of_mem _ hs)
    · obtain ⟨heq, -⟩ | ⟨b, t, -, -, -, -, heq⟩ | ⟨f, -, heq⟩ := bindBase_cases p st x
      · exact .inr (heq ▸ hs)
      · by_cases hx : s = x
        · exact .inl (hx ▸ List.mem_cons_self)
        · rw [heq] at hs
          right
          simpa [Pass.note, OrderedMap.contains, OrderedMap.get?_insert, hx] using hs
      · rw [heq] at hs
        exact .inr hs

/-- The pass binds bases of listed classes only. -/
lemma mem_classes_of_contains (hp : p.Listed) {o : Options}
    (h : (p.bindings o).1.baseClasses.contains s = true) : s ∈ p.classes := by
  have hfinish : (finish p).bindings.baseClasses = (start p).bindings.baseClasses :=
    (steps_finish hp).baseClasses
  have hstart : (start p).bindings =
      (p.classes.foldl (bindBase p) { scopes := p.scopes }).bindings :=
    bindings_foldl_checkCycle p p.classes _
  rw [Program.bindings_fst] at h
  simp only [hfinish, hstart] at h
  rcases contains_foldl_bindBase h with hs | hs
  · exact hs
  · simp [OrderedMap.contains] at hs

end Pass

/-- **What is bound in a resolved program.** All names of expressions are. The bases that stay free
are those of the classes that were declared and not listed, less those that the given bindings bind;
the pass binds none of them. -/
theorem only_stray_bases_left_free {ops : List Operation} {p : Program}
    (hp : Program.new.build? ops = some p) :
    (∀ b r, p.applyBindings b = .ok r →
      (∀ e ref, r.program.reference? e = some ref → ref.isBound = true) ∧
      ∀ s, r.program.hasFreeBase s = true ↔
        s ∈ Program.new.strayClasses ops ∧ b.baseClasses.contains s = false) ∧
    ∀ o r, p.resolve o = .ok r →
      (∀ e ref, r.program.reference? e = some ref → ref.isBound = true) ∧
      ∀ s, r.program.hasFreeBase s = true ↔ s ∈ Program.new.strayClasses ops := by
  have hbuilt : p.Built := Program.Built.new.build? hp
  have hstray : ∀ s, p.StrayBase s ↔ s ∈ Program.new.strayClasses ops := fun s => by
    rw [Program.strayBase_build?_iff .new hp]
    exact or_iff_right Program.not_strayBase_new
  refine ⟨fun b r h => ?_, fun o r h => ?_⟩
  · obtain ⟨hunbound, rfl⟩ := Program.applyBindings_eq_ok_iff.mp h
    refine ⟨fun e ref => Program.isBound_of_unbound hunbound, fun s => ?_⟩
    rw [Program.hasFreeBase_of_unbound hunbound, hstray]
  · obtain ⟨-, hunbound, rfl⟩ := Program.resolve_eq_ok_iff.mp h
    refine ⟨fun e ref => Program.isBound_of_unbound hunbound, fun s => ?_⟩
    rw [Program.hasFreeBase_of_unbound hunbound, ← hstray]
    refine and_iff_left_of_imp fun hs => Bool.eq_false_iff.mpr fun hcontains => ?_
    exact hs.2 (Pass.mem_classes_of_contains hbuilt.wellFormed.listed hcontains)

/-- Class `D` derives from `Base`. It is declared at the top, or if not `listed` as a symbol. -/
def derivedSteps (listed : Bool) : List Operation :=
  [.declareClass "Base" ⟨1⟩ {}, .intern "D",
    if listed then .declareClass "D" ⟨2⟩ { baseClass := some "Base" }
    else .declare ScopeTree.global ⟨⟨8⟩, ⟨2⟩,
      .classType (Program.newClass {} (some ⟨.free ⟨7⟩, ⟨2⟩⟩) ScopeTree.global)⟩]

def derived (listed : Bool) : Program := (Program.new.build? (derivedSteps listed)).getD .new

/-- The bindings that bind the base of `D`. -/
def derivedBases : Bindings := { baseClasses := OrderedMap.empty.insert ⟨8⟩ ⟨7⟩ }

/-- The program with bindings applied that leave nothing unbound. -/
def applied (p : Program) (b : Bindings) : BoundProgram :=
  ⟨p.bind b, b.methodScopes, b.blockScopes, b.clauseScopes⟩

theorem derived_bases_bound :
    Program.new.build? (derivedSteps true) = some (derived true) ∧
    (∃ r, (derived true).resolve {} = .ok r ∧ ∀ s, r.program.hasFreeBase s = false) ∧
    Program.new.build? (derivedSteps false) = some (derived false) ∧
    ∃ r, (derived false).applyBindings derivedBases = .ok r ∧
      ∀ s, r.program.hasFreeBase s = false := by
  have hlisted : Program.new.build? (derivedSteps true) = some (derived true) := by decide
  have hstray : Program.new.build? (derivedSteps false) = some (derived false) := by decide
  have hresolve : (derived true).resolve {} =
      .ok (applied (derived true) ((derived true).bindings {}).1) := by decide
  have happly : (derived false).applyBindings derivedBases =
      .ok (applied (derived false) derivedBases) := by decide
  refine ⟨hlisted, ⟨_, hresolve, fun s => ?_⟩, hstray, _, happly, fun s => ?_⟩
  · have hfree := ((only_stray_bases_left_free hlisted).2 {} _ hresolve).2 s
    have hnone : Program.new.strayClasses (derivedSteps true) = [] := by decide
    simpa [hnone] using hfree
  · have hfree := ((only_stray_bases_left_free hstray).1 derivedBases _ happly).2 s
    have hone : Program.new.strayClasses (derivedSteps false) = [⟨8⟩] := by decide
    rw [hone, List.mem_singleton] at hfree
    refine Bool.eq_false_iff.mpr fun h => ?_
    obtain ⟨rfl, hcontains⟩ := hfree.mp h
    exact absurd hcontains (by decide)

/-- Where `D` is not listed, its base stays free though nothing is reported. -/
theorem stray_base_left_free : (derived false).Built ∧
    (∃ r, (derived false).applyBindings {} = .ok r ∧ r.program.hasFreeBase ⟨8⟩ = true) ∧
    ∃ r, (derived false).resolve {} = .ok r ∧ r.program.hasFreeBase ⟨8⟩ = true := by
  have hsteps : Program.new.build? (derivedSteps false) = some (derived false) := by decide
  exact ⟨Program.Built.new.build? hsteps, ⟨applied (derived false) {}, by decide, by decide⟩,
    applied (derived false) ((derived false).bindings {}).1, by decide, by decide⟩

end NameBinding
