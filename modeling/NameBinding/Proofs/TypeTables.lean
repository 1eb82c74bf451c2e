import NameBinding.Proofs.Growth

/-!
Types and their members are kept twice: by name in scopes, and in order in lists. If single symbols
are only declared where no type has its members, and are no types themselves, the two stay in step.
-/

namespace NameBinding

namespace SymbolKind

def isConst : SymbolKind → Bool
  | const _ => true
  | _ => false

def isField : SymbolKind → Bool
  | field _ => true
  | _ => false

def isMethod : SymbolKind → Bool
  | method _ => true
  | _ => false

def isClass : SymbolKind → Bool
  | classType _ => true
  | _ => false

def isEnum : SymbolKind → Bool
  | enumType _ => true
  | _ => false

/-- The kinds of what a class holds. -/
def isMember (k : SymbolKind) : Bool := k.isConst || k.isField || k.isMethod

end SymbolKind

/-- The members of a class by kind, as it lists them. -/
def ClassInfo.lists (c : ClassInfo) : List SymbolId × List SymbolId × List SymbolId :=
  (c.consts, c.fields, c.methods)

def Symbol.lists? (x : Symbol) : Option (List SymbolId × List SymbolId × List SymbolId) :=
  x.class?.map (·.lists)

lemma Symbol.lists?_mapClass {f : ClassInfo → ClassInfo} (hf : ∀ c, (f c).lists = c.lists)
    (x : Symbol) : (x.mapClass f).lists? = x.lists? := by
  obtain ⟨n, l, k⟩ := x
  cases k with
  | classType c => exact congrArg some (hf c)
  | _ => rfl

namespace Program

open SymbolKind (isConst isField isMethod isClass isEnum isMember)

variable {p q : Program}

/-- Whether a symbol is of a kind. -/
def hasKind (p : Program) (f : SymbolKind → Bool) (v : SymbolId) : Bool := (p.kind? v).any f

/-- The symbols of a kind that a scope declares, in the order of declaration. -/
def membersOf (p : Program) (s : ScopeId) (f : SymbolKind → Bool) : List SymbolId :=
  (p.members s).filter (p.hasKind f)

/-- A class lists exactly what its scope declares, and that is nothing but members. -/
structure ListsMembers (p : Program) (c : ClassInfo) : Prop where
  consts : c.consts = p.membersOf c.scope isConst
  fields : c.fields = p.membersOf c.scope isField
  methods : c.methods = p.membersOf c.scope isMethod
  only : ∀ v ∈ p.members c.scope, p.hasKind isMember v = true

/-- A class lists its members, and the scope of an enum declares constants only. -/
def HoldsMembers (p : Program) : SymbolKind → Prop
  | .classType c => p.ListsMembers c
  | .enumType t => ∀ v ∈ p.members t.scope, p.hasKind isConst v = true
  | _ => True

/-- The type `v` is declared at the top under its own name. Its members are declared in a scope that
is its own, right under the global one. -/
structure TypeInStep (p : Program) (v : SymbolId) (x : Symbol) (s : ScopeId) : Prop where
  declared : p.scopes.declared? ScopeTree.global x.name = some v
  scope : ∃ sc, p.scopes.scope? s = some sc ∧ sc.kind = .type v ∧ sc.parent = some ScopeTree.global
  members : p.HoldsMembers x.kind

/-- The lists of types and members are in step with the scopes. -/
structure InStep (p : Program) : Prop where
  root : ∃ sc, p.scopes.scope? ScopeTree.global = some sc ∧ sc.kind = .global
  known : ∀ v ∈ p.members ScopeTree.global, (p.symbol? v).isSome
  nodup : (p.members ScopeTree.global).Nodup
  types : ∀ v x s, p.symbol? v = some x → x.scope? = some s → p.TypeInStep v x s
  classes : p.classes = p.membersOf ScopeTree.global isClass
  enums : p.enums = p.membersOf ScopeTree.global isEnum

/-! ### What growth keeps -/

lemma hasKind_of_symbol? {f : SymbolKind → Bool} {v : SymbolId} {x : Symbol}
    (h : p.symbol? v = some x) : p.hasKind f v = f x.kind := by
  rw [hasKind, kind?, h]
  rfl

lemma isSome_of_hasKind {f : SymbolKind → Bool} {v : SymbolId} (h : p.hasKind f v = true) :
    (p.symbol? v).isSome := by
  cases hv : p.symbol? v with
  | none => simp [hasKind, kind?, hv] at h
  | some x => rfl

/-- A symbol keeps its kind. -/
lemma Grows.hasKind_eq (hg : p.Grows q) {f : SymbolKind → Bool}
    (hf : ∀ c c', f (.classType c) = f (.classType c')) {v : SymbolId}
    (hv : (p.symbol? v).isSome) : q.hasKind f v = p.hasKind f v := by
  obtain ⟨⟨n, l, k⟩, hx⟩ := Option.isSome_iff_exists.mp hv
  obtain ⟨⟨n', l', k'⟩, hy, hxy⟩ := hg.symbols v _ hx
  rw [hasKind_of_symbol? hx, hasKind_of_symbol? hy]
  cases hxy.kind with
  | same => rfl
  | classType _ => exact hf _ _

lemma Grows.membersOf_eq (hg : p.Grows q) {f : SymbolKind → Bool}
    (hf : ∀ c c', f (.classType c) = f (.classType c')) {s : ScopeId} {new : List SymbolId}
    (hmembers : q.members s = p.members s ++ new)
    (hknown : ∀ v ∈ p.members s, (p.symbol? v).isSome) :
    q.membersOf s f = p.membersOf s f ++ new.filter (q.hasKind f) := by
  rw [membersOf, hmembers, List.filter_append]
  congr 1
  exact List.filter_congr fun v hv => hg.hasKind_eq hf (hknown v hv)

lemma Grows.declared? (hg : p.Grows q) {s : ScopeId} {n : Name} {v : SymbolId}
    (h : p.scopes.declared? s n = some v) : q.scopes.declared? s n = some v := by
  obtain ⟨sc, hsc, hget⟩ := Option.bind_eq_some_iff.mp h
  obtain ⟨sc', hsc', hbecomes⟩ := hg.scopes s sc hsc
  obtain ⟨rest, hrest⟩ := hbecomes.entries
  have hlookup : sc.entries.entries.lookup n = some v := hget
  rw [ScopeTree.declared?, hsc', Option.bind_some, OrderedMap.get?, ← hrest, List.lookup_append,
    hlookup, Option.some_or]

/-- A class whose scope declares `new` besides holds these, if it lists them by their kinds. -/
lemma Grows.listsMembers (hg : p.Grows q) {c c' : ClassInfo} (hp : p.ListsMembers c)
    {new : List SymbolId} (hscope : c'.scope = c.scope)
    (hmembers : q.members c.scope = p.members c.scope ++ new)
    (hlists : c'.lists = (c.consts ++ new.filter (q.hasKind isConst),
      c.fields ++ new.filter (q.hasKind isField), c.methods ++ new.filter (q.hasKind isMethod)))
    (hnew : ∀ v ∈ new, q.hasKind isMember v = true) : q.ListsMembers c' := by
  have hknown : ∀ v ∈ p.members c.scope, (p.symbol? v).isSome :=
    fun v hv => isSome_of_hasKind (hp.only v hv)
  obtain ⟨hconsts, hfields, hmethods⟩ := Prod.ext_iff.mp hlists |>.imp id Prod.ext_iff.mp
  refine ⟨hconsts.trans ?_, hfields.trans ?_, hmethods.trans ?_, fun v hv => ?_⟩
  · rw [hscope, hg.membersOf_eq (fun _ _ => rfl) hmembers hknown, ← hp.consts]
  · rw [hscope, hg.membersOf_eq (fun _ _ => rfl) hmembers hknown, ← hp.fields]
  · rw [hscope, hg.membersOf_eq (fun _ _ => rfl) hmembers hknown, ← hp.methods]
  · rw [hscope, hmembers] at hv
    rcases List.mem_append.mp hv with hv | hv
    · rw [hg.hasKind_eq (fun _ _ => rfl) (hknown v hv), hp.only v hv]
    · exact hnew v hv

lemma Grows.enumMembers (hg : p.Grows q) {s : ScopeId}
    (hp : ∀ v ∈ p.members s, p.hasKind isConst v = true) {new : List SymbolId}
    (hmembers : q.members s = p.members s ++ new)
    (hnew : ∀ v ∈ new, q.hasKind isConst v = true) :
    ∀ v ∈ q.members s, q.hasKind isConst v = true := by
  intro v hv
  rw [hmembers] at hv
  rcases List.mem_append.mp hv with hv | hv
  · rw [hg.hasKind_eq (fun _ _ => rfl) (isSome_of_hasKind (hp v hv)), hp v hv]
  · exact hnew v hv

/-- A type holds its members as before, if neither its scope nor its lists change. -/
lemma Grows.holdsMembers (hg : p.Grows q) {x y : Symbol} (hxy : x.Becomes y) {s : ScopeId}
    (hs : x.scope? = some s) (hmembers : q.members s = p.members s)
    (hlists : y.lists? = x.lists?) (hp : p.HoldsMembers x.kind) : q.HoldsMembers y.kind := by
  obtain ⟨n, l, k⟩ := x
  obtain ⟨n', l', k'⟩ := y
  rw [← List.append_nil (p.members s)] at hmembers
  cases hxy.kind with
  | same =>
    cases k with
    | classType c =>
      obtain rfl := Option.some.inj hs
      exact hg.listsMembers hp rfl hmembers (by simp [ClassInfo.lists]) (by simp)
    | enumType t =>
      obtain rfl := Option.some.inj hs
      exact hg.enumMembers hp hmembers (by simp)
    | _ => trivial
  | @classType c c' hclass =>
    obtain rfl := Option.some.inj hs
    refine hg.listsMembers hp hclass.scope hmembers ?_ (by simp)
    have hlists' : c'.lists = c.lists := Option.some.inj hlists
    rw [hlists']
    simp [ClassInfo.lists]

/-- **Growth in step.** The global scope declares `new` besides, the types among these are listed,
and are in step themselves. The types from before still hold their members. -/
lemma InStep.of_grows (hp : p.InStep) (hg : p.Grows q) (new : List SymbolId)
    (hglobal : q.members ScopeTree.global = p.members ScopeTree.global ++ new) (hnodup : new.Nodup)
    (hfresh : ∀ v ∈ new, p.symbol? v = none ∧ (q.symbol? v).isSome)
    (hclasses : q.classes = p.classes ++ new.filter (q.hasKind isClass))
    (henums : q.enums = p.enums ++ new.filter (q.hasKind isEnum))
    (hold : ∀ v x y s, p.symbol? v = some x → q.symbol? v = some y → x.Becomes y →
      x.scope? = some s → p.TypeInStep v x s → q.HoldsMembers y.kind)
    (hnew : ∀ v y s, p.symbol? v = none → q.symbol? v = some y → y.scope? = some s →
      q.TypeInStep v y s) : q.InStep := by
  refine ⟨?_, fun v hv => ?_, ?_, fun v y s hy hs => ?_, ?_, ?_⟩
  · obtain ⟨sc, hsc, hkind⟩ := hp.root
    obtain ⟨sc', hsc', hbecomes⟩ := hg.scopes _ sc hsc
    exact ⟨sc', hsc', hbecomes.kind.trans hkind⟩
  · rw [hglobal] at hv
    rcases List.mem_append.mp hv with hv | hv
    · obtain ⟨x, hx⟩ := Option.isSome_iff_exists.mp (hp.known v hv)
      obtain ⟨y, hy, -⟩ := hg.symbols v x hx
      simp [hy]
    · exact (hfresh v hv).2
  · rw [hglobal]
    refine hp.nodup.append hnodup fun v hv hv' => ?_
    have hsome := hp.known v hv
    simp [(hfresh v hv').1] at hsome
  · cases hx : p.symbol? v with
    | none => exact hnew v y s hx hy hs
    | some x =>
      obtain ⟨y', hy', hxy⟩ := hg.symbols v x hx
      obtain rfl := Option.some.inj (hy.symm.trans hy')
      rw [hxy.scope?] at hs
      have htype := hp.types v x s hx hs
      obtain ⟨sc, hsc, hkind, hparent⟩ := htype.scope
      obtain ⟨sc', hsc', hbecomes⟩ := hg.scopes s sc hsc
      refine ⟨?_, ⟨sc', hsc', hbecomes.kind.trans hkind, hbecomes.parent.trans hparent⟩,
        hold v x y s hx hy hxy hs htype⟩
      rw [hxy.name]
      exact hg.declared? htype.declared
  · rw [hclasses, hp.classes, hg.membersOf_eq (fun _ _ => rfl) hglobal hp.known]
  · rw [henums, hp.enums, hg.membersOf_eq (fun _ _ => rfl) hglobal hp.known]

/-- Nothing is declared at the top or in a type, no list changes, and no type is new. -/
lemma InStep.of_quiet (hp : p.InStep) (hg : p.Grows q) (hclasses : q.classes = p.classes)
    (henums : q.enums = p.enums)
    (hmembers : ∀ s sc, p.scopes.scope? s = some sc → q.members s = p.members s)
    (hlists : ∀ v x y, p.symbol? v = some x → q.symbol? v = some y → y.lists? = x.lists?)
    (hnew : ∀ v y, p.symbol? v = none → q.symbol? v = some y → y.scope? = none) : q.InStep := by
  obtain ⟨root, hroot, -⟩ := hp.root
  refine hp.of_grows hg [] ?_ List.nodup_nil (by simp) (by simp [hclasses])
    (by simp [henums]) (fun v x y s hx hy hxy hs htype => ?_) fun v y s hx hy hs => ?_
  · rw [hmembers _ root hroot, List.append_nil]
  · obtain ⟨sc, hsc, -⟩ := htype.scope
    exact hg.holdsMembers hxy hs (hmembers s sc hsc) (hlists v x y hx hy) htype.members
  · simp [hnew v y hx hy] at hs

/-! ### Entries of scopes -/

lemma symbol?_enter (scope : ScopeId) (n : Name) (v w : SymbolId) :
    (p.enter scope n v).symbol? w = p.symbol? w := by
  rw [symbol?, symbol?, (enter_tables scope n v).1]

lemma enter_lists (scope : ScopeId) (n : Name) (v : SymbolId) :
    (p.enter scope n v).classes = p.classes ∧ (p.enter scope n v).enums = p.enums := by
  unfold enter
  split <;> exact ⟨rfl, rfl⟩

lemma members_enter_of_ne {s scope : ScopeId} (h : s ≠ scope) (n : Name) (v : SymbolId) :
    (p.enter scope n v).members s = p.members s := by
  unfold enter
  split
  · next t ht =>
    unfold members ScopeTree.symbols
    rw [ScopeTree.scope?_add ht, if_neg h]
  · rfl

/-- What is entered comes last, unless the name is taken. -/
lemma members_enter_self {scope : ScopeId} (hlt : scope.index < p.scopes.size) (n : Name)
    (v : SymbolId) : (p.enter scope n v).members scope =
      p.members scope ++ if p.scopes.declared? scope n = none then [v] else [] := by
  unfold enter
  cases h : p.scopes.declared? scope n with
  | none =>
    obtain ⟨t, ht⟩ := ScopeTree.exists_add v h
    simp only [ht, if_true]
    exact (ScopeTree.symbols_add ht hlt scope).trans (if_pos rfl)
  | some w => simp [ScopeTree.add_eq_error_iff.mpr h]

lemma InStep.lt_size (hp : p.InStep) : ScopeTree.global.index < p.scopes.size := by
  obtain ⟨sc, hsc, -⟩ := hp.root
  exact ScopeTree.lt_of_scope? hsc

/-- The members of a type are not declared in the global scope. -/
lemma InStep.ne_global (hp : p.InStep) {v : SymbolId} {x : Symbol} {s : ScopeId}
    (hx : p.symbol? v = some x) (hs : x.scope? = some s) : s ≠ ScopeTree.global := by
  rintro rfl
  obtain ⟨sc, hsc, hglobal⟩ := hp.root
  obtain ⟨sc', hsc', hkind, -⟩ := (hp.types v x _ hx hs).scope
  obtain rfl := Option.some.inj (hsc.symm.trans hsc')
  simp [hglobal] at hkind

/-- No two types have their members in one scope. -/
lemma InStep.eq_of_scope? (hp : p.InStep) {v w : SymbolId} {x y : Symbol} {s : ScopeId}
    (hx : p.symbol? v = some x) (hy : p.symbol? w = some y) (hxs : x.scope? = some s)
    (hys : y.scope? = some s) : v = w := by
  obtain ⟨sc, hsc, hv, -⟩ := (hp.types v x s hx hxs).scope
  obtain ⟨sc', hsc', hw, -⟩ := (hp.types w y s hy hys).scope
  obtain rfl := Option.some.inj (hsc.symm.trans hsc')
  exact ScopeKind.type.inj (hv.symm.trans hw)

/-- Classes and enums have members. -/
lemma scope?_eq_none_iff {x : Symbol} :
    x.scope? = none ↔ isClass x.kind = false ∧ isEnum x.kind = false := by
  obtain ⟨n, l, k⟩ := x
  cases k <;> simp [Symbol.scope?, isClass, isEnum]

/-! ### Operations in step -/

/-- What is not about symbols and scopes does not matter. -/
lemma InStep.of_tables (hp : p.InStep) (hg : p.Grows q) (hsymbols : q.symbols = p.symbols)
    (hscopes : q.scopes = p.scopes) (hclasses : q.classes = p.classes)
    (henums : q.enums = p.enums) : q.InStep := by
  have hsymbol : ∀ v, q.symbol? v = p.symbol? v := fun v => by rw [symbol?, symbol?, hsymbols]
  refine hp.of_quiet hg hclasses henums (fun s _ _ => by rw [members, members, hscopes])
    (fun v x y hx hy => ?_) fun v y hnone hy => ?_
  · rw [hsymbol, hx] at hy
    rw [Option.some.inj hy]
  · simp [hsymbol, hnone] at hy

lemma InStep.intern (hp : p.InStep) (text : String) : (p.intern text).2.InStep :=
  hp.of_tables (p.grows_intern text) rfl rfl rfl rfl

/-- A symbol that is no type is entered into a scope, which is not that of a type. -/
lemma InStep.addEntry (hp : p.InStep) {scope : ScopeId} {x : Symbol} (hx : x.scope? = none)
    (hscope : ∀ v y, p.symbol? v = some y → y.scope? ≠ some scope) :
    ((p.addSymbol x).2.enter scope x.name ⟨p.symbols.size⟩).InStep := by
  set q := (p.addSymbol x).2.enter scope x.name ⟨p.symbols.size⟩ with hq
  have hg : p.Grows q := (p.grows_addSymbol x).trans (grows_enter ..)
  have hsymbol : p.AddsSymbol q x := fun _ => (symbol?_enter ..).trans (symbol?_addSymbol ..)
  obtain ⟨hclasses, henums⟩ := (p.addSymbol x).2.enter_lists scope x.name ⟨p.symbols.size⟩
  -- at the top there is at most the new symbol besides
  obtain ⟨new, hglobal, hnodup, hnew⟩ : ∃ new, q.members ScopeTree.global =
      p.members ScopeTree.global ++ new ∧ new.Nodup ∧ ∀ v ∈ new, v = ⟨p.symbols.size⟩ := by
    by_cases hs : ScopeTree.global = scope
    · subst hs
      refine ⟨_, members_enter_self (p := (p.addSymbol x).2) hp.lt_size x.name _, ?_, ?_⟩
      · split <;> simp
      · split <;> simp
    · exact ⟨[], by rw [hq, members_enter_of_ne hs, List.append_nil]; rfl, List.nodup_nil, by simp⟩
  have hsome : ∀ v ∈ new, q.symbol? v = some x := fun v hv => hnew v hv ▸ hsymbol.new
  obtain ⟨hclass, henum⟩ := scope?_eq_none_iff.mp hx
  refine hp.of_grows hg new hglobal hnodup (fun v hv => ⟨?_, by simp [hsome v hv]⟩) ?_ ?_
    (fun v y z s hy hz hyz hs htype => ?_) fun v y s hnone hy hs => ?_
  · rw [hnew v hv]
    exact Array.getElem?_eq_none le_rfl
  · have hnil : new.filter (q.hasKind isClass) = [] :=
      List.filter_eq_nil_iff.mpr fun v hv => by simp [hasKind_of_symbol? (hsome v hv), hclass]
    rw [hnil, List.append_nil]
    exact hclasses
  · have hnil : new.filter (q.hasKind isEnum) = [] :=
      List.filter_eq_nil_iff.mpr fun v hv => by simp [hasKind_of_symbol? (hsome v hv), henum]
    rw [hnil, List.append_nil]
    exact henums
  · have hne : s ≠ scope := fun h => hscope v y hy (h ▸ hs)
    obtain rfl := Option.some.inj ((hsymbol.old hy).symm.trans hz)
    exact hg.holdsMembers hyz hs (members_enter_of_ne hne _ _) rfl htype.members
  · obtain ⟨-, rfl⟩ := hsymbol.eq_new hnone hy
    simp [hx] at hs

lemma InStep.declare (hp : p.InStep) {scope : ScopeId} {x : Symbol} (hx : x.scope? = none)
    (hscope : ∀ v y, p.symbol? v = some y → y.scope? ≠ some scope) :
    (p.declare scope x).2.InStep := by
  cases h : p.scopes.declared? scope x.name with
  | some v => rwa [declare_of_some h]
  | none =>
    rw [declare_of_none h]
    exact hp.addEntry hx hscope

lemma InStep.addSymbol (hp : p.InStep) {x : Symbol} (hx : x.scope? = none) :
    (p.addSymbol x).2.InStep := by
  have hsymbol := p.addsSymbol_addSymbol x
  refine hp.of_quiet (p.grows_addSymbol x) rfl rfl (fun _ _ _ => rfl)
    (fun v y z hy hz => ?_) fun v y hnone hy => ?_
  · rw [Option.some.inj ((hsymbol.old hy).symm.trans hz)]
  · rw [(hsymbol.eq_new hnone hy).2, hx]

section DeclareType

variable (n : Name) (line : Line) (kind : ScopeId → SymbolKind)

lemma addsSymbol_declareType :
    p.AddsSymbol (p.declareType n line kind).2 ⟨n, line, kind ⟨p.scopes.size⟩⟩ :=
  fun _ => (symbol?_enter ..).trans (symbol?_addSymbol ..)

lemma lists_declareType : (p.declareType n line kind).2.classes = p.classes ∧
    (p.declareType n line kind).2.enums = p.enums :=
  enter_lists ..

lemma members_declareType_of_ne {s : ScopeId} (h : s ≠ ScopeTree.global) :
    (p.declareType n line kind).2.members s = p.members s :=
  (members_enter_of_ne h ..).trans (ScopeTree.symbols_addChild ..)

/-- The scope of the type is right under the global one. -/
lemma scope?_declareType : ∃ sc,
    (p.declareType n line kind).2.scopes.scope? ⟨p.scopes.size⟩ = some sc ∧
      sc.kind = .type ⟨p.symbols.size⟩ ∧ sc.parent = some ScopeTree.global := by
  set p₁ : Program :=
    { p with scopes := (p.scopes.addChild ScopeTree.global (.type ⟨p.symbols.size⟩)).2 }
  have hopened : p₁.scopes.scope? ⟨p.scopes.size⟩ =
      some { kind := .type ⟨p.symbols.size⟩, parent := some ScopeTree.global } :=
    (ScopeTree.scope?_addChild ..).trans (if_pos rfl)
  have hg := (p₁.grows_addSymbol ⟨n, line, kind ⟨p.scopes.size⟩⟩).trans
    (grows_enter _ ScopeTree.global n ⟨p.symbols.size⟩)
  obtain ⟨sc, hsc, hbecomes⟩ := hg.scopes _ _ hopened
  exact ⟨sc, hsc, hbecomes.kind, hbecomes.parent⟩

variable {n}

/-- The type is declared at the top, after all that is declared there. -/
lemma global_declareType (hlt : ScopeTree.global.index < p.scopes.size)
    (hfree : p.scopes.declared? ScopeTree.global n = none) :
    (p.declareType n line kind).2.members ScopeTree.global =
      p.members ScopeTree.global ++ [⟨p.symbols.size⟩] ∧
    (p.declareType n line kind).2.scopes.declared? ScopeTree.global n = some ⟨p.symbols.size⟩ := by
  set opened := (p.scopes.addChild ScopeTree.global (.type ⟨p.symbols.size⟩)).2
  set p₂ : Program := (({ p with scopes := opened } : Program).addSymbol
    ⟨n, line, kind ⟨p.scopes.size⟩⟩).2
  have hsize : opened.size = p.scopes.size + 1 := ScopeTree.size_addChild ..
  have hfree' : opened.declared? ScopeTree.global n = none := by
    rw [← hfree, ScopeTree.declared?, ScopeTree.declared?,
      ScopeTree.scope?_addChild_of_lt _ _ hlt]
  obtain ⟨t, ht⟩ := ScopeTree.exists_add ⟨p.symbols.size⟩ hfree'
  have hr : (p.declareType n line kind).2 = { p₂ with scopes := t } := by
    change p₂.enter ScopeTree.global n ⟨p.symbols.size⟩ = _
    have hadd : p₂.scopes.add ScopeTree.global n ⟨p.symbols.size⟩ = .ok t := ht
    simp only [enter, hadd]
  rw [hr]
  refine ⟨?_, (ScopeTree.declared?_add ht (by omega) _ _).trans (if_pos ⟨rfl, rfl⟩)⟩
  rw [members, ScopeTree.symbols_add ht (by omega), if_pos rfl, ScopeTree.symbols_addChild]
  rfl

end DeclareType

/-- A type without members is declared at the top, and listed by its kind. -/
lemma InStep.declareType (hp : p.InStep) {n : Name} {line : Line} (kind : ScopeId → SymbolKind)
    (hfree : p.scopes.declared? ScopeTree.global n = none)
    (hkind : ∀ s, (⟨n, line, kind s⟩ : Symbol).scope? = some s)
    (hempty : ∀ (r : Program) s, r.members s = [] → r.HoldsMembers (kind s)) (hg : p.Grows q)
    (hsymbols : q.symbols = (p.declareType n line kind).2.symbols)
    (hscopes : q.scopes = (p.declareType n line kind).2.scopes)
    (hclasses : q.classes =
      p.classes ++ if isClass (kind ⟨p.scopes.size⟩) then [⟨p.symbols.size⟩] else [])
    (henums : q.enums =
      p.enums ++ if isEnum (kind ⟨p.scopes.size⟩) then [⟨p.symbols.size⟩] else []) : q.InStep := by
  obtain ⟨hglobal, hdeclared⟩ := global_declareType line kind hp.lt_size hfree
  have hsymbol : p.AddsSymbol q ⟨n, line, kind ⟨p.scopes.size⟩⟩ := by
    intro v
    rw [symbol?, hsymbols]
    exact addsSymbol_declareType n line kind v
  have hmembers : ∀ s, s ≠ ScopeTree.global → q.members s = p.members s := by
    intro s hs
    rw [members, hscopes]
    exact members_declareType_of_ne n line kind hs
  refine hp.of_grows hg [⟨p.symbols.size⟩] ?_ (List.nodup_singleton _) (fun v hv => ?_) ?_ ?_
    (fun v y z s hy hz hyz hs htype => ?_) fun v y s hnone hy hs => ?_
  · rw [members, hscopes]
    exact hglobal
  · obtain rfl := List.mem_singleton.mp hv
    exact ⟨Array.getElem?_eq_none le_rfl, by simp [hsymbol.new]⟩
  · rw [hclasses, List.filter_cons, hasKind_of_symbol? hsymbol.new]
    rfl
  · rw [henums, List.filter_cons, hasKind_of_symbol? hsymbol.new]
    rfl
  · obtain rfl := Option.some.inj ((hsymbol.old hy).symm.trans hz)
    exact hg.holdsMembers hyz hs (hmembers s (hp.ne_global hy hs)) rfl htype.members
  · obtain ⟨rfl, rfl⟩ := hsymbol.eq_new hnone hy
    obtain rfl := Option.some.inj ((hkind _).symm.trans hs)
    obtain ⟨sc, hsc⟩ := scope?_declareType (p := p) n line kind
    refine ⟨by rw [hscopes, hdeclared], ⟨sc, by rw [hscopes]; exact hsc⟩, hempty q _ ?_⟩
    -- nothing is declared in a scope that was not there
    have hne : (⟨p.scopes.size⟩ : ScopeId) ≠ ScopeTree.global :=
      fun h => hp.lt_size.ne' (congrArg ScopeId.index h)
    have hnew : p.scopes.scope? ⟨p.scopes.size⟩ = none := Array.getElem?_eq_none le_rfl
    rw [hmembers _ hne, members, ScopeTree.symbols, hnew]
    rfl

lemma InStep.newClass (hp : p.InStep) {n : Name} (line : Line) (head : ClassHead)
    (base : Option BaseClass) (hfree : p.scopes.declared? ScopeTree.global n = none) :
    ({ (p.declareType n line fun scope => .classType (newClass head base scope)).2 with
      classes := (p.declareType n line fun scope => .classType (newClass head base scope)).2.classes
        ++ [⟨p.symbols.size⟩] } : Program).InStep := by
  obtain ⟨hclasses, henums⟩ :=
    lists_declareType (p := p) n line fun scope => .classType (Program.newClass head base scope)
  have hempty : ∀ (r : Program) s, r.members s = [] →
      r.ListsMembers (Program.newClass head base s) := by
    intro r s hs
    constructor <;> simp [Program.newClass, membersOf, hs]
  exact hp.declareType (fun scope => .classType (Program.newClass head base scope)) hfree
    (fun _ => rfl) hempty (p.grows_newClass n line head base) rfl rfl (congrArg (· ++ _) hclasses)
    (henums.trans (List.append_nil _).symm)

lemma InStep.declareClass (hp : p.InStep) (text : String) (line : Line) (head : ClassHead) :
    (p.declareClass text line head).2.InStep := by
  have hp₁ := hp.intern text
  unfold Program.declareClass
  simp only
  split
  · exact hp₁
  · next hfree =>
    cases head.baseClass with
    | none => exact hp₁.newClass line head none hfree
    | some base => exact (hp₁.intern base).newClass line head _ hfree

lemma InStep.declareEnum (hp : p.InStep) (text : String) (line : Line) (head : EnumHead) :
    (p.declareEnum text line head).2.InStep := by
  have hp₁ := hp.intern text
  unfold Program.declareEnum
  simp only
  split
  · exact hp₁
  · next hfree =>
    obtain ⟨hclasses, henums⟩ := lists_declareType (p := (p.intern text).2) (p.intern text).1 line
      fun scope => .enumType ⟨head.origin, head.isFlags, scope⟩
    have hempty : ∀ (r : Program) s, r.members s = [] →
        ∀ v ∈ r.members s, r.hasKind isConst v = true := fun r s hs => by simp [hs]
    exact hp₁.declareType (fun scope => .enumType ⟨head.origin, head.isFlags, scope⟩) hfree
      (fun _ => rfl) hempty (grows_newEnum _ (p.intern text).1 line head) rfl rfl
      (hclasses.trans (List.append_nil _).symm) (congrArg (· ++ _) henums)

/-- A member goes to the end of the list of its kind. -/
lemma lists_listMember {k : SymbolKind} (hk : isMember k = true) (v : SymbolId) (c : ClassInfo) :
    (listMember k v c).lists = (c.consts ++ if isConst k then [v] else [],
      c.fields ++ if isField k then [v] else [], c.methods ++ if isMethod k then [v] else []) := by
  cases k <;> simp_all [isMember, isConst, isField, isMethod, listMember, ClassInfo.lists]

lemma isMember_of_accepts {o k : SymbolKind} (h : accepts o k = true) : isMember k = true := by
  obtain ⟨m, rfl⟩ | ⟨m, rfl⟩ | ⟨m, rfl⟩ := kind_of_accepts h <;> rfl

/-- An enum holds constants only. -/
lemma isConst_of_accepts {t : EnumInfo} {k : SymbolKind} (h : accepts (.enumType t) k = true) :
    isConst k = true := by
  obtain ⟨m, rfl⟩ | ⟨m, rfl⟩ | ⟨m, rfl⟩ := kind_of_accepts h
  · rfl
  · simp [accepts] at h
  · simp [accepts] at h

lemma scope?_of_isMember {x : Symbol} (h : isMember x.kind = true) : x.scope? = none := by
  obtain ⟨n, l, k⟩ := x
  cases k with
  | classType c => simp [isMember, isConst, isField, isMethod] at h
  | enumType t => simp [isMember, isConst, isField, isMethod] at h
  | _ => rfl

/-- A type that accepts a new member, and lists it if it is a class, holds it besides. -/
lemma Grows.holdsMembers_listMember (hg : p.Grows q) {o x : Symbol} {s : ScopeId} {v : SymbolId}
    (hs : o.scope? = some s) (haccepts : accepts o.kind x.kind = true) (hv : q.symbol? v = some x)
    (hmembers : q.members s = p.members s ++ [v]) (hp : p.HoldsMembers o.kind) :
    q.HoldsMembers (o.mapClass (listMember x.kind v)).kind := by
  have hmember := isMember_of_accepts haccepts
  have hkind : ∀ f, [v].filter (q.hasKind f) = if f x.kind then [v] else [] := by
    intro f
    rw [List.filter_cons, hasKind_of_symbol? hv]
    rfl
  obtain ⟨n, l, k⟩ := o
  cases k with
  | classType c =>
    obtain rfl := Option.some.inj hs
    refine hg.listsMembers hp (c.becomes_listMember ..).scope hmembers ?_ ?_
    · rw [hkind, hkind, hkind, lists_listMember hmember]
    · simp [hasKind_of_symbol? hv, hmember]
  | enumType t =>
    obtain rfl := Option.some.inj hs
    refine hg.enumMembers hp hmembers ?_
    simp [hasKind_of_symbol? hv, isConst_of_accepts haccepts]
  | _ => simp [Symbol.scope?] at hs

lemma InStep.listMember (hp : p.InStep) {owner : SymbolId} {o x : Symbol} {scope : ScopeId}
    (ho : p.symbol? owner = some o) (hscope : o.scope? = some scope)
    (haccepts : accepts o.kind x.kind = true) (hfree : p.scopes.declared? scope x.name = none) :
    ((p.declare scope x).2.modifyClass owner (listMember x.kind ⟨p.symbols.size⟩)).InStep := by
  have hg : p.Grows ((p.declare scope x).2.modifyClass owner (Program.listMember x.kind
      ⟨p.symbols.size⟩)) :=
    (p.grows_declare scope x).trans (grows_modifyClass fun c _ => c.becomes_listMember ..)
  rw [declare_of_none hfree] at hg ⊢
  set r := (p.addSymbol x).2.enter scope x.name ⟨p.symbols.size⟩
  set q := r.modifyClass owner (Program.listMember x.kind ⟨p.symbols.size⟩)
  have hsymbol : p.AddsSymbol r x := fun _ => (symbol?_enter ..).trans (symbol?_addSymbol ..)
  have hother : ∀ v, v ≠ owner → q.symbol? v = r.symbol? v := fun v hv => by
    rw [symbol?_modifyClass, if_neg hv]
  have hid : q.symbol? ⟨p.symbols.size⟩ = some x := by
    rw [hother, hsymbol.new]
    rintro rfl
    exact lt_irrefl _ (Array.getElem?_eq_some_iff.mp ho).1
  have hmembers : ∀ s, s ≠ scope → q.members s = p.members s := fun s hs =>
    members_enter_of_ne hs x.name ⟨p.symbols.size⟩
  have hown : q.members scope = p.members scope ++ [⟨p.symbols.size⟩] := by
    obtain ⟨sc, hsc, -⟩ := (hp.types owner o scope ho hscope).scope
    have hfree' : (p.addSymbol x).2.scopes.declared? scope x.name = none := hfree
    refine (members_enter_self (p := (p.addSymbol x).2) (ScopeTree.lt_of_scope? hsc) _ _).trans ?_
    rw [if_pos hfree']
    rfl
  obtain ⟨hclasses, henums⟩ := (p.addSymbol x).2.enter_lists scope x.name ⟨p.symbols.size⟩
  refine hp.of_grows hg [] ?_ List.nodup_nil (by simp) ?_ ?_
    (fun v y z s hy hz hyz hs htype => ?_) fun v y s hnone hy hs => ?_
  · rw [hmembers _ (hp.ne_global ho hscope).symm, List.append_nil]
  · exact hclasses.trans (List.append_nil _).symm
  · exact henums.trans (List.append_nil _).symm
  · by_cases hv : v = owner
    · -- the owner holds the new member besides
      subst hv
      obtain rfl := Option.some.inj (ho.symm.trans hy)
      obtain rfl := Option.some.inj (hscope.symm.trans hs)
      rw [symbol?_modifyClass, if_pos rfl, hsymbol.old ho] at hz
      obtain rfl := Option.some.inj hz
      exact hg.holdsMembers_listMember hscope haccepts hid hown htype.members
    · have hne : s ≠ scope := fun h => hv (hp.eq_of_scope? hy ho (h ▸ hs) hscope)
      rw [hother v hv, hsymbol.old hy] at hz
      obtain rfl := Option.some.inj hz
      exact hg.holdsMembers hyz hs (hmembers s hne) rfl htype.members
  · have hv : v ≠ owner := by
      rintro rfl
      simp [ho] at hnone
    obtain ⟨-, rfl⟩ := hsymbol.eq_new hnone (hother v hv ▸ hy)
    simp [scope?_of_isMember (isMember_of_accepts haccepts)] at hs

lemma InStep.declareMember (hp : p.InStep) (owner : SymbolId) (x : Symbol) :
    (p.declareMember owner x).2.InStep := by
  obtain h | ⟨o, scope, ho, hscope, haccepts, hfree, h⟩ := p.declareMember_cases owner x
  · rwa [h]
  · rw [h]
    exact hp.listMember ho hscope haccepts hfree

/-- A change of a class that is not about its members does not matter. -/
lemma InStep.modifyClass (hp : p.InStep) {s : SymbolId} {f : ClassInfo → ClassInfo}
    (hg : p.Grows (p.modifyClass s f)) (hf : ∀ c, (f c).lists = c.lists) :
    (p.modifyClass s f).InStep := by
  refine hp.of_quiet hg rfl rfl (fun _ _ _ => rfl) (fun v x y hx hy => ?_) fun v y hnone hy => ?_
  · rw [symbol?_modifyClass, hx] at hy
    split at hy
    · rw [← Option.some.inj hy, x.lists?_mapClass hf]
    · rw [Option.some.inj hy]
  · rw [symbol?_modifyClass, hnone] at hy
    simp at hy

lemma InStep.defineConstructor (hp : p.InStep) (s : SymbolId) (line : Line) (c : Callable) :
    (p.defineConstructor s line c).2.InStep := by
  obtain h | ⟨n, hnone, h⟩ := p.defineConstructor_cases s line c
  · rwa [h]
  · rw [h]
    exact (hp.addSymbol rfl).modifyClass (grows_setConstructor hnone _) fun _ => rfl

lemma InStep.defineDestructor (hp : p.InStep) (s : SymbolId) (body : Block) :
    (p.defineDestructor s body).2.InStep := by
  obtain h | ⟨hnone, h⟩ := p.defineDestructor_cases s body
  · rwa [h]
  · rw [h]
    exact hp.modifyClass (grows_setDestructor hnone body) fun _ => rfl

/-! ### Bindings -/

lemma InStep.bind (hp : p.InStep) {b : Bindings} (h : ∀ s sc, p.scopes.scope? s = some sc →
    (b.scopes.getD p.scopes).scope? s = some sc) : (p.bind b).InStep := by
  refine hp.of_quiet (grows_bind h) rfl rfl (fun s sc hs => ?_)
    (fun v x y hx hy => ?_) fun v y hnone hy => ?_
  · have hs' : (p.bind b).scopes.scope? s = some sc := h s sc hs
    rw [members, members, ScopeTree.symbols, ScopeTree.symbols, hs, hs']
  · rw [symbol?_bind, hx] at hy
    rw [← Option.some.inj hy]
    cases b.baseClasses.get? v with
    | none => rfl
    | some t => exact Symbol.lists?_mapClass (f := (·.bindBase t)) (fun _ => rfl) x
  · rw [symbol?_bind, hnone] at hy
    simp at hy

lemma InStep.resolve (hp : p.InStep) (hplaced : p.Placed) {o : Options} {r : BoundProgram}
    (h : p.resolve o = .ok r) : r.program.InStep := by
  rw [program_of_resolve h]
  refine hp.bind fun s sc hs => ?_
  rw [bindings_fst]
  exact (hplaced.scope?_finish (ScopeTree.lt_of_scope? hs)).trans hs

end Program

/-! ### Orderly runs -/

/-- A single symbol is declared where no type has its members, and is no type itself. -/
def Operation.Orderly (p : Program) : Operation → Prop
  | declare scope x => (x.kind.isClass = false ∧ x.kind.isEnum = false) ∧
      ∀ y ∈ p.symbols.toList, y.scope? ≠ some scope
  | _ => True

def Move.Orderly (p : Program) : Move → Prop
  | build op => op.Orderly p
  | _ => True

/-- Every operation of a run is orderly where it is made. -/
def Stage.Orderly : Stage → List Move → Prop
  | _, [] => True
  | s, m :: ms => m.Orderly s.program ∧ ∀ t ∈ s.after m, t.Orderly ms

instance (p : Program) : (op : Operation) → Decidable (op.Orderly p)
  | .declare _ _ => inferInstanceAs (Decidable (_ ∧ _))
  | .intern _ | .addExpr _ | .addStmt _ | .addVar _ _ _ | .declareClass _ _ _ | .declareEnum _ _ _
  | .declareMember _ _ | .defineConstructor _ _ _ | .defineDestructor _ _ =>
    inferInstanceAs (Decidable True)

instance (p : Program) : (m : Move) → Decidable (m.Orderly p)
  | .build op => inferInstanceAs (Decidable (op.Orderly p))
  | .resolve _ | .apply _ | .reopen => inferInstanceAs (Decidable True)

instance Stage.decidableOrderly : (s : Stage) → (ms : List Move) → Decidable (s.Orderly ms)
  | _, [] => inferInstanceAs (Decidable True)
  | s, m :: ms =>
    have := fun t => decidableOrderly t ms
    inferInstanceAs (Decidable (m.Orderly s.program ∧ ∀ t ∈ s.after m, t.Orderly ms))

namespace Program

variable {p : Program}

lemma InStep.perform (hp : p.InStep) {op : Operation} (hop : op.Orderly p) :
    (p.perform op).InStep := by
  cases op with
  | intern text => exact hp.intern text
  | addExpr x => exact hp.of_tables (p.grows_addExpr x) rfl rfl rfl rfl
  | addStmt x => exact hp.of_tables (p.grows_addStmt x) rfl rfl rfl rfl
  | addVar text line value => exact (hp.intern text).addSymbol rfl
  | declare scope x =>
    refine hp.declare (scope?_eq_none_iff.mpr hop.1) fun v y hy => hop.2 y ?_
    exact Array.mem_toList_iff.mpr (Array.mem_of_getElem? hy)
  | declareClass text line head => exact hp.declareClass text line head
  | declareEnum text line head => exact hp.declareEnum text line head
  | declareMember owner x => exact hp.declareMember owner x
  | defineConstructor s line c => exact hp.defineConstructor s line c
  | defineDestructor s body => exact hp.defineDestructor s body

lemma InStep.declareBuiltin (hp : p.InStep) (b : Builtin) : (p.declareBuiltin b).InStep := by
  have hp₁ := hp.intern b.keyword
  exact hp₁.addEntry (x := ⟨(p.intern b.keyword).1, {}, .builtin b⟩) rfl fun v y hy hs =>
    hp₁.ne_global hy hs rfl

lemma inStep_new : new.InStep := by
  have hempty : (⟨{}, #[], #[], #[], .new, [], []⟩ : Program).InStep := by
    refine ⟨⟨⟨.global, none, .empty⟩, rfl, rfl⟩, fun v hv => ?_, List.nodup_nil,
      fun v x s hx => ?_, rfl, rfl⟩
    · exact absurd hv List.not_mem_nil
    · simp [symbol?] at hx
  unfold new
  generalize (⟨{}, #[], #[], #[], .new, [], []⟩ : Program) = p at hempty
  induction Builtin.all generalizing p with
  | nil => exact hempty
  | cons b bs ih => exact ih _ (hempty.declareBuiltin b)

end Program

namespace Stage

variable {s t : Stage}

lemma inStep_after (hs : s.program.InStep) (hplaced : s.program.Placed) {m : Move}
    (hm : m.Orderly s.program) (h : s.after m = some t) : t.program.InStep := by
  obtain ht | ⟨op, rfl, ht⟩ | ⟨o, r, hr, ht⟩ | ⟨b, -, hb, ht⟩ := after_cases h
  · rwa [ht]
  · rw [ht]
    exact hs.perform hm
  · rw [ht]
    exact hs.resolve hplaced hr
  · rw [ht]
    exact hs.bind fun _ _ hsc => by rwa [hb]

lemma inStep_run? (hs : s.program.InStep) (hplaced : s.program.Placed) {ms : List Move}
    (hms : s.Orderly ms) (h : s.run? ms = some t) : t.program.InStep := by
  induction ms generalizing s with
  | nil =>
    obtain rfl := Option.some.inj h
    exact hs
  | cons m ms ih =>
    obtain ⟨mid, hmid, hrest⟩ := Option.bind_eq_some_iff.mp h
    exact ih (inStep_after hs hplaced hms.1 hmid) ((grows_after hplaced hmid).placed hplaced)
      (hms.2 mid hmid) hrest

end Stage

namespace Program

variable {p : Program}

lemma mem_membersOf {s : ScopeId} {f : SymbolKind → Bool} {v : SymbolId} (h : v ∈ p.membersOf s f) :
    ∃ x, p.symbol? v = some x ∧ f x.kind = true := by
  have hv : p.hasKind f v = true := (List.mem_filter.mp h).2
  obtain ⟨x, hx⟩ := Option.isSome_iff_exists.mp (isSome_of_hasKind hv)
  exact ⟨x, hx, (hasKind_of_symbol? hx).symm.trans hv⟩

lemma InStep.class?_of_mem (hp : p.InStep) {v : SymbolId} (hv : v ∈ p.classes) :
    ∃ c, p.class? v = some c := by
  rw [hp.classes] at hv
  obtain ⟨⟨n, l, k⟩, hx, hk⟩ := mem_membersOf hv
  cases k with
  | classType c => exact ⟨c, by rw [class?, hx]; rfl⟩
  | _ => simp [SymbolKind.isClass] at hk

lemma InStep.enum?_of_mem (hp : p.InStep) {v : SymbolId} (hv : v ∈ p.enums) :
    ∃ t, p.enum? v = some t := by
  rw [hp.enums] at hv
  obtain ⟨⟨n, l, k⟩, hx, hk⟩ := mem_membersOf hv
  cases k with
  | enumType t => exact ⟨t, by rw [enum?, hx]; rfl⟩
  | _ => simp [SymbolKind.isEnum] at hk

end Program

/-- **Types and members are in step.** After any orderly run, the classes and enums at the top are
listed once each, in the order of declaration. Every type is declared at the top under its own name,
and has a scope of its own for its members, right under the global one. A class lists its constants,
fields and methods as that scope declares them, and nothing else is declared there; an enum declares
constants only. -/
theorem type_tables_in_step {ms : List Move} {s : Stage}
    (hrun : (Stage.building .new).run? ms = some s) (horderly : (Stage.building .new).Orderly ms) :
    (∀ v ∈ s.program.classes, ∃ c, s.program.class? v = some c) ∧ s.program.classes.Nodup ∧
    (∀ v ∈ s.program.enums, ∃ t, s.program.enum? v = some t) ∧ s.program.enums.Nodup ∧
    (∀ v x sc, s.program.symbol? v = some x → x.scope? = some sc → s.program.TypeInStep v x sc) ∧
    (∀ v w x y sc, s.program.symbol? v = some x → s.program.symbol? w = some y →
      x.scope? = some sc → y.scope? = some sc → v = w) ∧
    s.program.classes = s.program.membersOf ScopeTree.global SymbolKind.isClass ∧
    s.program.enums = s.program.membersOf ScopeTree.global SymbolKind.isEnum := by
  have h := Stage.inStep_run? (s := .building .new) Program.inStep_new Program.placed_new horderly
    hrun
  refine ⟨fun _ => h.class?_of_mem, ?_, fun _ => h.enum?_of_mem, ?_, h.types,
    fun _ _ _ _ _ => h.eq_of_scope?, h.classes, h.enums⟩
  · rw [h.classes]
    exact h.nodup.filter _
  · rw [h.enums]
    exact h.nodup.filter _

/-- The program is opened once more. The enum `E` gets a constant `One`, and so does the global
scope. -/
def enumMoves : List Move :=
  [.reopen, .build (.declareEnum "E" ⟨4⟩ {}), .build (.intern "One"),
    .build (.declareMember ⟨10⟩ ⟨⟨11⟩, ⟨5⟩, .const ⟨.pub, ⟨⟨0⟩, none⟩⟩⟩),
    .build (.declare ScopeTree.global ⟨⟨11⟩, ⟨6⟩, .const ⟨.pub, ⟨⟨0⟩, none⟩⟩⟩), .resolve {}]

def enumStage : Stage := (fieldStage.run? enumMoves).getD (.building .new)

theorem enum_tables_in_step :
    (Stage.building .new).run? (derivedMoves ++ fieldMoves ++ enumMoves) = some enumStage ∧
    (Stage.building .new).Orderly (derivedMoves ++ fieldMoves ++ enumMoves) ∧
    [⟨7⟩, ⟨8⟩] = enumStage.program.membersOf ScopeTree.global SymbolKind.isClass ∧
    [⟨10⟩] = enumStage.program.membersOf ScopeTree.global SymbolKind.isEnum ∧
    [⟨9⟩] = enumStage.program.membersOf ⟨1⟩ SymbolKind.isField ∧
    enumStage.program.members ⟨3⟩ = [⟨11⟩] ∧
    enumStage.program.hasKind SymbolKind.isConst ⟨11⟩ = true := by
  have hrun : (Stage.building .new).run? (derivedMoves ++ fieldMoves ++ enumMoves) =
      some enumStage := by decide
  have horderly : (Stage.building .new).Orderly (derivedMoves ++ fieldMoves ++ enumMoves) := by
    decide
  obtain ⟨-, -, -, -, htypes, -, hclasses, henums⟩ := type_tables_in_step hrun horderly
  have hbase : enumStage.program.symbol? ⟨7⟩ = some ⟨⟨7⟩, ⟨1⟩, .classType
      { Program.newClass {} none ⟨1⟩ with fields := [⟨9⟩] }⟩ := by decide
  have henum : enumStage.program.symbol? ⟨10⟩ =
      some ⟨⟨10⟩, ⟨4⟩, .enumType ⟨⟨"", false⟩, false, ⟨3⟩⟩⟩ := by decide
  exact ⟨hrun, horderly, hclasses, henums, (htypes _ _ _ hbase rfl).members.fields,
    by decide, (htypes _ _ _ henum rfl).members ⟨11⟩ (by decide)⟩

end NameBinding
