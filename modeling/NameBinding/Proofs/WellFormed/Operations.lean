import NameBinding.Proofs.WellFormed.Changes

/-!
Every operation keeps a program well formed, so every program that can be built is.
-/

namespace NameBinding

namespace Program

variable {p q : Program}

lemma declare_of_some {scope : ScopeId} {x : Symbol} {v : SymbolId}
    (h : p.scopes.declared? scope x.name = some v) :
    p.declare scope x = (.error (p.duplicate x.name x.line v), p) := by
  simp only [Program.declare, h]

lemma declare_of_none {scope : ScopeId} {x : Symbol}
    (h : p.scopes.declared? scope x.name = none) :
    p.declare scope x =
      (.ok ⟨p.symbols.size⟩, (p.addSymbol x).2.enter scope x.name ⟨p.symbols.size⟩) := by
  simp only [Program.declare, h]
  rfl

lemma WellFormed.declare (hp : p.WellFormed) (scope : ScopeId) {x : Symbol}
    (hx : x.Within p.extent) : (p.declare scope x).2.WellFormed := by
  cases h : p.scopes.declared? scope x.name with
  | some v =>
    rw [declare_of_some h]
    exact hp
  | none =>
    rw [declare_of_none h]
    refine (hp.addSymbol hx).enter scope hx.1 ?_
    simp [Program.addSymbol]

lemma WellFormed.openType (hp : p.WellFormed) (kind : ScopeKind) :
    ({ p with scopes := (p.scopes.addChild ScopeTree.global kind).2 } : Program).WellFormed := by
  have hle : p.extent.Le
      ({ p with scopes := (p.scopes.addChild ScopeTree.global kind).2 } : Program).extent := by
    refine ⟨le_rfl, le_rfl, le_rfl, le_rfl, ?_⟩
    simp [extent, ScopeTree.size, ScopeTree.addChild]
  have hpos : 0 < p.scopes.size := by
    obtain ⟨sc, hsc, -⟩ := hp.listed.root
    exact ScopeTree.lt_of_scope? hsc
  refine ⟨hp.allocated.extend hle (fun _ _ h => .inl h) (fun _ _ h => .inl h)
    (fun _ _ h => .inl h) ?_, hp.listed.keeps ⟨fun _ _ h => h, ?_⟩ rfl rfl⟩
  · intro s sc h
    rw [ScopeTree.scope?_addChild] at h
    split at h
    · next hs =>
      obtain rfl := Option.some.inj h
      refine .inr ⟨fun q hq => ?_, by simp [OrderedMap.empty]⟩
      obtain rfl : q = ScopeTree.global := by simpa using hq
      simp only [ScopeTree.global]
      omega
    · exact .inl h
  · intro s sc h
    have hlt := ScopeTree.lt_of_scope? h
    have hne : ¬ s.index = p.scopes.size := by omega
    rw [ScopeTree.scope?_addChild, if_neg hne]
    exact ⟨sc, h, rfl⟩

/-- What the declaration of a type at the top brings about, before the type is listed. -/
lemma WellFormed.declareType (hp : p.WellFormed) (n : Name) (line : Line)
    (kind : ScopeId → SymbolKind)
    (hx : (⟨n, line, kind ⟨p.scopes.size⟩⟩ : Symbol).Within
      { p.extent with scopes := p.scopes.size + 1 }) :
    (p.declareType n line kind).2.WellFormed ∧
      (p.declareType n line kind).2.kind? ⟨p.symbols.size⟩ = some (kind ⟨p.scopes.size⟩) ∧
      (p.declareType n line kind).2.scopes.parent? ⟨p.scopes.size⟩ = some ScopeTree.global ∧
      (p.declareType n line kind).2.classes = p.classes ∧
      (p.declareType n line kind).2.enums = p.enums := by
  have hopen := hp.openType (.type ⟨p.symbols.size⟩)
  set p₁ : Program :=
    { p with scopes := (p.scopes.addChild ScopeTree.global (.type ⟨p.symbols.size⟩)).2 } with hp₁
  set x : Symbol := ⟨n, line, kind ⟨p.scopes.size⟩⟩ with hxdef
  have hx₁ : x.Within p₁.extent := by
    refine hx.mono ⟨le_rfl, le_rfl, le_rfl, le_rfl, ?_⟩
    simp [p₁, extent, ScopeTree.size, ScopeTree.addChild]
  have heq : (p.declareType n line kind).2 =
      (p₁.addSymbol x).2.enter ScopeTree.global n ⟨p.symbols.size⟩ := rfl
  have hparent : p₁.scopes.parent? ⟨p.scopes.size⟩ = some ScopeTree.global := by
    simp [p₁, ScopeTree.parent?, ScopeTree.scope?_addChild]
  have hkind : (p₁.addSymbol x).2.kind? ⟨p.symbols.size⟩ = some (kind ⟨p.scopes.size⟩) := by
    simp [kind?, symbol?_addSymbol, p₁, x]
  rw [heq]
  refine ⟨(hopen.addSymbol hx₁).enter _ hx.1 (by simp [Program.addSymbol, p₁]), ?_⟩
  unfold Program.enter
  split
  · next scopes h =>
    refine ⟨hkind, ?_, rfl, rfl⟩
    simp only [ScopeTree.parent?] at hparent ⊢
    rw [ScopeTree.scope?_add h]
    split
    · rw [Option.bind_map]
      exact hparent
    · exact hparent
  · exact ⟨hkind, hparent, rfl, rfl⟩

lemma Listed.not_mem_classes (hp : p.Listed) : (⟨p.symbols.size⟩ : SymbolId) ∉ p.classes := by
  intro h
  obtain ⟨c, hc⟩ := hp.class?_of_mem h
  have := lt_of_kind? (class?_eq_some.mp hc)
  simp at this

lemma WellFormed.listClass (hp : p.WellFormed) {s : SymbolId} {c : ClassInfo}
    (hs : s ∉ p.classes) (hc : p.class? s = some c) (hl : p.Lists c) (hnone : c.callables = []) :
    ({ p with classes := p.classes ++ [s] } : Program).WellFormed := by
  obtain ⟨hal, hroot, hclasses, henums, hnodup, howners⟩ := hp
  refine ⟨⟨hal.exprs, hal.stmts, hal.symbols, hal.scopes⟩, hroot, ?_, ?_, ?_, ?_⟩
  · intro t ht
    rcases List.mem_append.mp ht with ht | ht
    · obtain ⟨c', hc', hl'⟩ := hclasses t ht
      exact ⟨c', hc', hl'.keeps ⟨fun _ _ h => h, fun _ sc h => ⟨sc, h, rfl⟩⟩⟩
    · obtain rfl : t = s := by simpa using ht
      exact ⟨c, hc, hl.keeps ⟨fun _ _ h => h, fun _ sc h => ⟨sc, h, rfl⟩⟩⟩
  · exact henums
  · exact hnodup.append (by simp) (by simpa using hs)
  · intro t ht t' ht' d d' hd hd' v hv hv'
    -- the new class lists nothing
    have hne : ∀ u e, p.class? u = some e → v ∈ e.callables → u ≠ s := by
      rintro u e hu he rfl
      obtain rfl := Option.some.inj (hc.symm.trans hu)
      simp [hnone] at he
    have h1 : t ∈ p.classes := by
      have := hne t d hd hv
      simpa [this] using ht
    have h2 : t' ∈ p.classes := by
      have := hne t' d' hd' hv'
      simpa [this] using ht'
    exact howners t h1 t' h2 d d' hd hd' v hv hv'

/-- The class that a declaration brings, without members. -/
def newClass (head : ClassHead) (base : Option BaseClass) (scope : ScopeId) : ClassInfo where
  origin := head.origin
  modifier := head.modifier
  baseClass := base
  constructor := none
  destructor := none
  consts := []
  fields := []
  methods := []
  scope := scope

lemma WellFormed.declareNewClass (hp : p.WellFormed) {n : Name} (line : Line) (head : ClassHead)
    {base : Option BaseClass} (hn : n.key < p.names.size)
    (hb : ∀ b ∈ base.toList, b.reference.Within p.extent) :
    ({ (p.declareType n line fun scope => .classType (newClass head base scope)).2 with
      classes := (p.declareType n line fun scope => .classType (newClass head base scope)).2.classes
        ++ [⟨p.symbols.size⟩] } : Program).WellFormed := by
  have hx : (⟨n, line, .classType (newClass head base ⟨p.scopes.size⟩)⟩ : Symbol).Within
      { p.extent with scopes := p.scopes.size + 1 } := by
    refine ⟨hn, by simp [SymbolKind.exprs], by simp [SymbolKind.stmts, newClass],
      by simp [SymbolKind.symbols, newClass], by simp [Symbol.scope?, newClass], ?_⟩
    intro b hmem
    exact (hb b (by simpa [Symbol.baseClass?, Symbol.class?, newClass] using hmem)).mono
      ⟨le_rfl, le_rfl, le_rfl, le_rfl, by simp [extent]⟩
  obtain ⟨hwf, hkind, hpar, hcls, -⟩ :=
    hp.declareType n line (fun scope => .classType (newClass head base scope)) hx
  refine hwf.listClass ?_ (class?_eq_some.mpr hkind)
    ⟨hpar, by simp [newClass], by simp [newClass], by simp [newClass], by simp [newClass],
      by simp [newClass]⟩ rfl
  rw [hcls]
  exact hp.listed.not_mem_classes

lemma WellFormed.declareClass (hp : p.WellFormed) (text : String) (line : Line)
    (head : ClassHead) : (p.declareClass text line head).2.WellFormed := by
  have hp₁ := hp.intern text
  have hkey := p.names.key_intern_lt text
  unfold Program.declareClass
  simp only
  split
  · exact hp₁
  · cases head.baseClass with
    | none => exact hp₁.declareNewClass line head hkey (by simp)
    | some base =>
      -- the name of the base class is interned before the class is declared
      refine (hp₁.intern base).declareNewClass line head
        (hkey.trans_le (NameTable.size_le_intern _ base)) ?_
      intro b hb
      obtain rfl : b = ⟨.free ((p.intern text).2.intern base).1, line⟩ := by simpa using hb
      exact ⟨NameTable.key_intern_lt _ base, by simp [Reference.target?]⟩

lemma WellFormed.declareEnum (hp : p.WellFormed) (text : String) (line : Line)
    (head : EnumHead) : (p.declareEnum text line head).2.WellFormed := by
  have hp₁ := hp.intern text
  unfold Program.declareEnum
  simp only
  split
  · exact hp₁
  · have hx : (⟨(p.intern text).1, line, .enumType
        ⟨head.origin, head.isFlags, ⟨(p.intern text).2.scopes.size⟩⟩⟩ : Symbol).Within
        { (p.intern text).2.extent with scopes := (p.intern text).2.scopes.size + 1 } :=
      ⟨p.names.key_intern_lt text, by simp [SymbolKind.exprs], by simp [SymbolKind.stmts],
        by simp [SymbolKind.symbols], by simp [Symbol.scope?],
        by simp [Symbol.baseClass?, Symbol.class?]⟩
    obtain ⟨hwf, hkind, hpar, -, -⟩ := hp₁.declareType (p.intern text).1 line
      (fun scope => .enumType ⟨head.origin, head.isFlags, scope⟩) hx
    obtain ⟨hal, hroot, hclasses, henums, hnodup, howners⟩ := hwf
    refine ⟨⟨hal.exprs, hal.stmts, hal.symbols, hal.scopes⟩, hroot, ?_, ?_, hnodup, howners⟩
    · intro t ht
      obtain ⟨c, hc, hl⟩ := hclasses t ht
      exact ⟨c, hc, hl.keeps ⟨fun _ _ h => h, fun _ sc h => ⟨sc, h, rfl⟩⟩⟩
    · intro t ht
      rcases List.mem_append.mp ht with ht | ht
      · exact henums t ht
      · obtain rfl := List.mem_singleton.mp ht
        exact ⟨_, enum?_eq_some.mpr hkind, hpar⟩

/-- What is entered into a scope changes no symbol. -/
lemma enter_tables (scope : ScopeId) (n : Name) (v : SymbolId) :
    (p.enter scope n v).symbols = p.symbols ∧ (p.enter scope n v).classes = p.classes := by
  unfold Program.enter
  split <;> simp

/-- What a declaration answers with was not there before, and is of the kind declared. -/
lemma declare_ok {scope : ScopeId} {x : Symbol} {v : SymbolId}
    (h : (p.declare scope x).1 = .ok v) :
    v = ⟨p.symbols.size⟩ ∧ (p.declare scope x).2.kind? v = some x.kind ∧
      (p.declare scope x).2.classes = p.classes ∧
      ∀ t, t ≠ v → (p.declare scope x).2.symbol? t = p.symbol? t := by
  cases hd : p.scopes.declared? scope x.name with
  | some w =>
    rw [declare_of_some hd] at h
    simp at h
  | none =>
    rw [declare_of_none hd] at h ⊢
    obtain rfl := Except.ok.inj h
    obtain ⟨hsym, hcls⟩ := (p.addSymbol x).2.enter_tables scope x.name ⟨p.symbols.size⟩
    have hlook : ∀ t, ((p.addSymbol x).2.enter scope x.name ⟨p.symbols.size⟩).symbol? t =
        (p.addSymbol x).2.symbol? t := by
      intro t
      simp only [symbol?, hsym]
    refine ⟨rfl, ?_, hcls, ?_⟩
    · simp [kind?, hlook, symbol?_addSymbol]
    · intro t ht
      have hne : ¬ t.index = p.symbols.size := fun hi => ht (by cases t; simp_all)
      rw [hlook, symbol?_addSymbol, if_neg hne]

/-- The lists of a class after a member has been added to one of them. -/
lemma mem_listMember {k : SymbolKind} {v : SymbolId} {c : ClassInfo} :
    ∀ w ∈ (SymbolKind.classType (listMember k v c)).symbols,
      w ∈ (SymbolKind.classType c).symbols ∨ w = v := by
  intro w hw
  cases k <;> simp [listMember, SymbolKind.symbols] at hw ⊢ <;> tauto

lemma callables_listMember {k : SymbolKind} {v : SymbolId} {c : ClassInfo} :
    ∀ w ∈ (listMember k v c).callables, w ∈ c.callables ∨ w = v := by
  intro w hw
  cases k <;> simp [listMember, ClassInfo.callables] at hw ⊢ <;> tauto

end Program

/-- A change of a class that keeps its scope and its base, and names allocated nodes. -/
lemma Symbol.Within.mapClass {y : Extent} {x : Symbol} (hx : x.Within y) {f : ClassInfo → ClassInfo}
    (hsym : ∀ c, ∀ v ∈ (SymbolKind.classType (f c)).symbols,
      v ∈ (SymbolKind.classType c).symbols ∨ v.index < y.symbols)
    (hstmt : ∀ c, ∀ t ∈ (SymbolKind.classType (f c)).stmts,
      t ∈ (SymbolKind.classType c).stmts ∨ t.index < y.stmts)
    (hscope : ∀ c, (f c).scope = c.scope) (hbase : ∀ c, (f c).baseClass = c.baseClass) :
    (x.mapClass f).Within y := by
  obtain ⟨n, l, k⟩ := x
  cases k with
  | classType c =>
    obtain ⟨hn, -, ht, hv, hsc, hb⟩ := hx
    refine ⟨hn, by simp [Symbol.mapClass, SymbolKind.exprs], ?_, ?_, ?_, ?_⟩
    · exact fun t h => (hstmt c t h).elim (ht t) id
    · exact fun v h => (hsym c v h).elim (hv v) id
    · simpa [Symbol.mapClass, Symbol.scope?, hscope] using hsc
    · simpa [Symbol.mapClass, Symbol.baseClass?, Symbol.class?, hbase] using hb
  | _ => exact hx

namespace Program

variable {p q : Program}

lemma Lists.listMember {c : ClassInfo} {k : SymbolKind} {v : SymbolId} (hc : p.Lists c)
    (hk : p.kind? v = some k) (hv : v ∉ c.callables)
    (hkind : (∃ m, k = .const m) ∨ (∃ m, k = .field m) ∨ ∃ m, k = .method m) :
    p.Lists (listMember k v c) := by
  obtain ⟨hpar, hcon, hfld, hmet, hctor, hnd⟩ := hc
  rcases hkind with ⟨m, rfl⟩ | ⟨m, rfl⟩ | ⟨m, rfl⟩
  · refine ⟨hpar, ?_, hfld, hmet, hctor, hnd⟩
    intro w hw
    rcases List.mem_append.mp hw with hw | hw
    · exact hcon w hw
    · obtain rfl := List.mem_singleton.mp hw
      exact ⟨m, hk⟩
  · refine ⟨hpar, hcon, ?_, hmet, hctor, hnd⟩
    intro w hw
    rcases List.mem_append.mp hw with hw | hw
    · exact hfld w hw
    · obtain rfl := List.mem_singleton.mp hw
      exact ⟨m, hk⟩
  · refine ⟨hpar, hcon, hfld, ?_, hctor, ?_⟩
    · intro w hw
      rcases List.mem_append.mp hw with hw | hw
      · exact hmet w hw
      · obtain rfl := List.mem_singleton.mp hw
        exact ⟨m, hk⟩
    · refine hnd.append (by simp) ?_
      simp only [List.disjoint_singleton]
      exact fun h => hv (List.mem_append_right _ h)

lemma kind_of_accepts {o k : SymbolKind} (h : accepts o k = true) :
    (∃ m, k = .const m) ∨ (∃ m, k = .field m) ∨ ∃ m, k = .method m := by
  cases o <;> cases k <;> simp_all [accepts]

lemma WellFormed.declareMember (hp : p.WellFormed) (owner : SymbolId) {x : Symbol}
    (hx : x.Within p.extent) : (p.declareMember owner x).2.WellFormed := by
  unfold Program.declareMember
  split
  · exact hp
  · next o ho =>
    split
    · exact hp
    · next scope hscope =>
      split
      · next hacc =>
        have hq := hp.declare scope hx
        split
        · next e q h =>
          rw [h] at hq
          exact hq
        · next v q h =>
          have hok := @declare_ok p scope x v (by rw [h])
          rw [h] at hq hok
          obtain ⟨rfl, hkind, hcls, hold⟩ := hok
          have hfresh : ∀ t ∈ q.classes, ∀ c, q.class? t = some c →
              (⟨p.symbols.size⟩ : SymbolId) ∉ c.callables := by
            intro t ht c hc
            rw [hcls] at ht
            have hne : t ≠ ⟨p.symbols.size⟩ := by
              rintro rfl
              exact hp.listed.not_mem_classes ht
            rw [class?, hold t hne] at hc
            exact hp.listed.fresh (by simp) t ht c hc
          refine hq.modifyClass owner ?_ ?_ ?_
          · intro y hy
            refine (hq.allocated.symbols owner y hy).mapClass ?_ ?_ ?_ ?_
            · intro c w hw
              refine (mem_listMember w hw).imp id ?_
              rintro rfl
              exact lt_of_kind? hkind
            · intro c w hw
              left
              cases hk : x.kind <;> simpa [Program.listMember, hk, SymbolKind.stmts] using hw
            · intro c
              cases hk : x.kind <;> rfl
            · intro c
              cases hk : x.kind <;> rfl
          · intro c ho hc hl
            exact hl.listMember hkind (hfresh _ ho c hc) (kind_of_accepts hacc)
          · intro c w hw
            refine (callables_listMember w hw).imp id ?_
            rintro rfl
            exact hfresh
      · exact hp

lemma WellFormed.defineConstructor (hp : p.WellFormed) (s : SymbolId) (line : Line) {c : Callable}
    (hc : ∀ t ∈ c.body.toList, t.index < p.stmts.size) :
    (p.defineConstructor s line c).2.WellFormed := by
  unfold Program.defineConstructor
  split
  · exact hp
  · next sym hsym =>
    split
    · exact hp
    · next cls hcls =>
      split
      · exact hp
      · -- the constructor is a new symbol that no class lists
        have hx : (⟨sym.name, line, .constructor c⟩ : Symbol).Within p.extent :=
          ⟨(hp.allocated.symbols s sym hsym).1, by simp [SymbolKind.exprs], hc,
            by simp [SymbolKind.symbols], by simp [Symbol.scope?],
            by simp [Symbol.baseClass?, Symbol.class?]⟩
        have hq := hp.addSymbol hx
        have hkind : (p.addSymbol ⟨sym.name, line, .constructor c⟩).2.kind? ⟨p.symbols.size⟩ =
            some (.constructor c) := by
          simp [kind?, symbol?_addSymbol]
        have hfresh : ∀ t ∈ p.classes, ∀ d,
            (p.addSymbol ⟨sym.name, line, .constructor c⟩).2.class? t = some d →
            (⟨p.symbols.size⟩ : SymbolId) ∉ d.callables := by
          intro t ht d hd
          obtain ⟨d', hd'⟩ := hp.listed.class?_of_mem ht
          have := kind?_addSymbol_of_some ⟨sym.name, line, .constructor c⟩ (class?_eq_some.mp hd')
          rw [← class?_eq_some, hd] at this
          obtain rfl := Option.some.inj this
          exact hp.listed.fresh (by simp) t ht d hd'
        refine hq.modifyClass s ?_ ?_ ?_
        · intro y hy
          refine (hq.allocated.symbols s y hy).mapClass ?_ (fun _ _ h => .inl h)
            (fun _ => rfl) (fun _ => rfl)
          intro d w hw
          have hw' : w = ⟨p.symbols.size⟩ ∨ w ∈ d.consts ∨ w ∈ d.fields ∨ w ∈ d.methods := by
            simpa [SymbolKind.symbols, Program.addSymbol] using hw
          rcases hw' with rfl | h
          · exact .inr (lt_of_kind? hkind)
          · left
            simp only [SymbolKind.symbols, List.mem_append]
            tauto
        · intro d _ _ hl
          refine ⟨hl.parent, hl.consts, hl.fields, hl.methods, ?_, hl.nodup⟩
          intro w hw
          obtain rfl : w = ⟨p.symbols.size⟩ := by simpa [Program.addSymbol] using hw
          exact ⟨c, hkind⟩
        · intro d w hw
          have hw' : w = ⟨p.symbols.size⟩ ∨ w ∈ d.methods := by
            simpa [ClassInfo.callables, Program.addSymbol] using hw
          rcases hw' with rfl | h
          · exact .inr hfresh
          · exact .inl (List.mem_append_right _ h)

lemma WellFormed.defineDestructor (hp : p.WellFormed) (s : SymbolId) {body : Block}
    (hb : ∀ t ∈ body.statements, t.index < p.stmts.size) :
    (p.defineDestructor s body).2.WellFormed := by
  unfold Program.defineDestructor
  split
  · exact hp
  · split
    · exact hp
    · refine hp.modifyClass s ?_ (fun _ _ _ h => ⟨h.1, h.2, h.3, h.4, h.5, h.6⟩)
        (fun _ _ h => .inl h)
      intro y hy
      exact (hp.allocated.symbols s y hy).mapClass (fun _ _ h => .inl h)
        (fun _ t ht => .inr (hb t (by simpa [SymbolKind.stmts] using ht)))
        (fun _ => rfl) (fun _ => rfl)

lemma WellFormed.declareBuiltin (hp : p.WellFormed) (b : Builtin) :
    (p.declareBuiltin b).WellFormed := by
  have hkey := p.names.key_intern_lt b.keyword
  have hx : (⟨(p.intern b.keyword).1, {}, .builtin b⟩ : Symbol).Within
      (p.intern b.keyword).2.extent :=
    ⟨hkey, by simp [SymbolKind.exprs], by simp [SymbolKind.stmts], by simp [SymbolKind.symbols],
      by simp [Symbol.scope?], by simp [Symbol.baseClass?, Symbol.class?]⟩
  refine ((hp.intern b.keyword).addSymbol hx).enter _ hkey ?_
  simp [Program.addSymbol, Program.intern]

lemma wellFormed_new : new.WellFormed := by
  have hempty : (⟨{}, #[], #[], #[], .new, [], []⟩ : Program).WellFormed := by
    refine ⟨⟨?_, ?_, ?_, ?_⟩, ⟨⟨.global, none, .empty⟩, rfl, rfl⟩, by simp, by simp, by simp,
      by simp⟩
    · intro e x h
      simp [expr?] at h
    · intro s x h
      simp [stmt?] at h
    · intro v x h
      simp [symbol?] at h
    · rintro ⟨s⟩ sc h
      cases s with
      | zero =>
        obtain rfl : (⟨.global, none, .empty⟩ : Scope) = sc := by
          simpa [ScopeTree.scope?, ScopeTree.new] using h
        exact ⟨by simp, by simp [OrderedMap.empty]⟩
      | succ s => simp [ScopeTree.scope?, ScopeTree.new] at h
  unfold new
  generalize (⟨{}, #[], #[], #[], .new, [], []⟩ : Program) = p at hempty
  induction Builtin.all generalizing p with
  | nil => exact hempty
  | cons b bs ih => exact ih _ (hempty.declareBuiltin b)

lemma WellFormed.perform (hp : p.WellFormed) {op : Operation} (hop : op.Within p.extent) :
    (p.perform op).WellFormed := by
  cases op with
  | intern text => exact hp.intern text
  | addExpr e => exact hp.addExpr hop
  | addStmt s => exact hp.addStmt hop
  | addVar text line value =>
    refine (hp.intern text).addSymbol ⟨p.names.key_intern_lt text, hop, ?_, ?_, ?_, ?_⟩
    · simp [SymbolKind.stmts]
    · simp [SymbolKind.symbols]
    · simp [Symbol.scope?]
    · simp [Symbol.baseClass?, Symbol.class?]
  | declare scope s => exact hp.declare scope hop.2
  | declareClass text line head => exact hp.declareClass text line head
  | declareEnum text line head => exact hp.declareEnum text line head
  | declareMember owner s => exact hp.declareMember owner hop.2
  | defineConstructor s line c => exact hp.defineConstructor s line hop.2
  | defineDestructor s body => exact hp.defineDestructor s hop.2

/-- Every program that can be built is well formed. -/
theorem Built.wellFormed (h : p.Built) : p.WellFormed := by
  induction h with
  | new => exact wellFormed_new
  | perform _ hop ih => exact ih.perform hop

end Program

end NameBinding
