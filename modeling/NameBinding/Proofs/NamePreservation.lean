import NameBinding.Proofs.TypeTables

/-!
Names and what they are bound to. A scope enters every symbol under its own name, so whatever a
look-up finds bears the name that was looked up. If no operation brings a reference that is bound
already, all references of a program come from look-ups, and every target bears the name of its
reference.
-/

namespace NameBinding

/-! ### Entries of scopes -/

namespace ScopeTree

variable {t t' : ScopeTree} {n m : Name} {v w : SymbolId}

/-- Some scope of the tree has the symbol under the name. -/
def Enters (t : ScopeTree) (n : Name) (v : SymbolId) : Prop :=
  ∃ s sc, t.scope? s = some sc ∧ (n, v) ∈ sc.entries.entries

lemma enters_of_declared? {s : ScopeId} (h : t.declared? s n = some v) : t.Enters n v := by
  obtain ⟨sc, hsc, hget⟩ := Option.bind_eq_some_iff.mp h
  exact ⟨s, sc, hsc, OrderedMap.mem_entries_of_get? hget⟩

lemma Enters.of_add {s : ScopeId} (hadd : t.add s n v = .ok t') (h : t'.Enters m w) :
    t.Enters m w ∨ (m, w) = (n, v) := by
  obtain ⟨s', sc, hsc, hmem⟩ := h
  rw [scope?_add hadd] at hsc
  split at hsc
  · obtain ⟨old, hold, rfl⟩ := Option.map_eq_some_iff.mp hsc
    exact (OrderedMap.mem_insertIfNew hmem).imp_left fun hmem => ⟨s', old, hold, hmem⟩
  · exact .inl ⟨s', sc, hsc, hmem⟩

lemma Enters.of_addChild {parent : ScopeId} {kind : ScopeKind}
    (h : (t.addChild parent kind).2.Enters m w) : t.Enters m w := by
  obtain ⟨s, sc, hsc, hmem⟩ := h
  rw [scope?_addChild] at hsc
  split at hsc
  · obtain rfl := Option.some.inj hsc
    exact absurd hmem List.not_mem_nil
  · exact ⟨s, sc, hsc, hmem⟩

end ScopeTree

/-! ### Targets that bear their names -/

/-- The expression uses no name that is bound. -/
def Expr.isFree (x : Expr) : Bool := x.reference?.all fun r => !r.isBound

/-- The symbol has no base class that is bound. -/
def Symbol.isFree (x : Symbol) : Bool := x.baseClass?.all fun b => !b.reference.isBound

namespace Program

variable {p q : Program} {n : Name} {v t : SymbolId}

/-- The symbol bears the name. -/
def Named (p : Program) (v : SymbolId) (n : Name) : Prop :=
  ∃ x, p.symbol? v = some x ∧ x.name = n

/-- The symbol is a class that bears the name and is declared under it at the top. -/
structure IsBase (p : Program) (t : SymbolId) (n : Name) : Prop where
  declared : p.scopes.declared? ScopeTree.global n = some t
  named : p.Named t n
  isClass : (p.class? t).isSome

/-- All that is entered, and all targets of names, bear the name in question, and base classes are
classes of the global scope. -/
structure KeepsNames (p : Program) : Prop where
  entries : ∀ n v, p.scopes.Enters n v → p.Named v n
  references : ∀ e n t, p.reference? e = some (.bound n t) → p.Named t n
  bases : ∀ v n t line, (p.symbol? v).bind (·.baseClass?) = some ⟨.bound n t, line⟩ → p.IsBase t n

lemma Grows.named (hg : p.Grows q) (h : p.Named v n) : q.Named v n := by
  obtain ⟨x, hx, hname⟩ := h
  obtain ⟨y, hy, hxy⟩ := hg.symbols v x hx
  exact ⟨y, hy, hxy.name.trans hname⟩

lemma Grows.isBase (hg : p.Grows q) (h : p.IsBase t n) : q.IsBase t n where
  declared := hg.declared? h.declared
  named := hg.named h.named
  isClass := by
    obtain ⟨c, hc⟩ := Option.isSome_iff_exists.mp h.isClass
    obtain ⟨⟨_, _, k⟩, hx, hk⟩ := Option.bind_eq_some_iff.mp hc
    obtain ⟨⟨_, _, k'⟩, hy, hxy⟩ := hg.symbols t _ hx
    rw [class?, hy, Option.bind_some]
    cases hxy.kind with
    | same => exact Option.isSome_iff_exists.mpr ⟨c, hk⟩
    | classType _ => rfl

/-- A program that grows keeps names if whatever is new in it does. -/
lemma KeepsNames.of_grows (hp : p.KeepsNames) (hg : p.Grows q)
    (hentries : ∀ n v, q.scopes.Enters n v → p.scopes.Enters n v ∨ q.Named v n)
    (hreferences : ∀ e n t, q.reference? e = some (.bound n t) →
      p.reference? e = some (.bound n t) ∨ q.Named t n)
    (hbases : ∀ v n t line, (q.symbol? v).bind (·.baseClass?) = some ⟨.bound n t, line⟩ →
      (p.symbol? v).bind (·.baseClass?) = some ⟨.bound n t, line⟩ ∨ q.IsBase t n) :
    q.KeepsNames where
  entries n v h := (hentries n v h).elim (fun h => hg.named (hp.entries n v h)) id
  references e n t h :=
    (hreferences e n t h).elim (fun h => hg.named (hp.references e n t h)) id
  bases v n t line h := (hbases v n t line h).elim (fun h => hg.isBase (hp.bases v n t line h)) id

/-! ### Single changes -/

lemma KeepsNames.of_tables (hp : p.KeepsNames) (hg : p.Grows q) (hscopes : q.scopes = p.scopes)
    (hexprs : q.exprs = p.exprs) (hsymbols : q.symbols = p.symbols) : q.KeepsNames := by
  refine hp.of_grows hg (fun n v h => .inl (hscopes ▸ h)) (fun e n t h => .inl ?_)
    fun v n t line h => .inl ?_
  · rwa [reference?, expr?, hexprs] at h
  · rwa [symbol?, hsymbols] at h

lemma KeepsNames.intern (hp : p.KeepsNames) (text : String) : (p.intern text).2.KeepsNames :=
  hp.of_tables (p.grows_intern text) rfl rfl rfl

lemma KeepsNames.addExpr (hp : p.KeepsNames) {x : Expr} (hx : x.isFree = true) :
    (p.addExpr x).2.KeepsNames := by
  refine hp.of_grows (p.grows_addExpr x) (fun _ _ => .inl) (fun e n t he => ?_) fun _ _ _ _ => .inl
  left
  rw [reference?, expr?_addExpr] at he
  split at he
  · have hbound : x.reference? = some (.bound n t) := he
    simp [Expr.isFree, hbound, Reference.isBound, Reference.target?] at hx
  · exact he

lemma KeepsNames.addSymbol (hp : p.KeepsNames) {x : Symbol} (hx : x.isFree = true) :
    (p.addSymbol x).2.KeepsNames := by
  refine hp.of_grows (p.grows_addSymbol x) (fun _ _ => .inl) (fun _ _ _ => .inl)
    fun v n t line hv => ?_
  left
  rw [symbol?_addSymbol] at hv
  split at hv
  · have hbound : x.baseClass? = some ⟨.bound n t, line⟩ := hv
    simp [Symbol.isFree, hbound, Reference.isBound, Reference.target?] at hx
  · exact hv

lemma KeepsNames.enter (hp : p.KeepsNames) (scope : ScopeId) (hv : p.Named v n) :
    (p.enter scope n v).KeepsNames := by
  have hg := p.grows_enter scope n v
  revert hg
  unfold Program.enter
  split
  · next tree htree =>
    intro hg
    refine hp.of_grows hg (fun m w h => ?_) (fun _ _ _ => .inl) fun _ _ _ _ => .inl
    rcases ScopeTree.Enters.of_add htree h with h | heq
    · exact .inl h
    · obtain ⟨rfl, rfl⟩ := Prod.mk.inj heq
      exact .inr (hg.named hv)
  · exact fun _ => hp

lemma KeepsNames.openScope (hp : p.KeepsNames) (parent : ScopeId) (kind : ScopeKind) :
    ({ p with scopes := (p.scopes.addChild parent kind).2 } : Program).KeepsNames :=
  hp.of_grows (p.grows_openScope parent kind) (fun _ _ h => .inl h.of_addChild) (fun _ _ _ => .inl)
    fun _ _ _ _ => .inl

lemma KeepsNames.modifyClass (hp : p.KeepsNames) {s : SymbolId} {f : ClassInfo → ClassInfo}
    (hg : p.Grows (p.modifyClass s f)) (hf : ∀ c, (f c).baseClass = c.baseClass) :
    (p.modifyClass s f).KeepsNames := by
  refine hp.of_grows hg (fun _ _ => .inl) (fun _ _ _ => .inl) fun v n t line hv => .inl ?_
  obtain ⟨y, hy, hbase⟩ := Option.bind_eq_some_iff.mp hv
  rw [symbol?_modifyClass] at hy
  split at hy
  · obtain ⟨⟨_, _, k⟩, hx, rfl⟩ := Option.map_eq_some_iff.mp hy
    rw [hx, Option.bind_some, ← hbase]
    cases k with
    | classType c => exact (hf c).symm
    | _ => rfl
  · rw [hy, Option.bind_some, hbase]

/-! ### Operations -/

lemma named_addSymbol (p : Program) (x : Symbol) :
    (p.addSymbol x).2.Named ⟨p.symbols.size⟩ x.name :=
  ⟨x, (p.addsSymbol_addSymbol x).new, rfl⟩

lemma KeepsNames.declare (hp : p.KeepsNames) (scope : ScopeId) {x : Symbol}
    (hx : x.isFree = true) : (p.declare scope x).2.KeepsNames := by
  cases h : p.scopes.declared? scope x.name with
  | some v => rwa [declare_of_some h]
  | none =>
    rw [declare_of_none h]
    exact (hp.addSymbol hx).enter scope (p.named_addSymbol x)

lemma KeepsNames.declareType (hp : p.KeepsNames) (n : Name) (line : Line)
    {kind : ScopeId → SymbolKind} (hkind : ∀ s, (⟨n, line, kind s⟩ : Symbol).isFree = true) :
    (p.declareType n line kind).2.KeepsNames :=
  ((hp.openScope ScopeTree.global (.type ⟨p.symbols.size⟩)).addSymbol (hkind _)).enter
    ScopeTree.global (named_addSymbol _ _)

lemma KeepsNames.newClass (hp : p.KeepsNames) (n : Name) (line : Line) (head : ClassHead)
    {base : Option BaseClass} (hbase : base.all (fun b => !b.reference.isBound) = true) :
    ({ (p.declareType n line fun scope => .classType (newClass head base scope)).2 with
      classes := (p.declareType n line fun scope => .classType (newClass head base scope)).2.classes
        ++ [⟨p.symbols.size⟩] } : Program).KeepsNames := by
  obtain ⟨-, hplace⟩ := p.grows_declareType n line
    (fun scope => .classType (Program.newClass head base scope)) fun _ => rfl
  have htype : (p.declareType n line fun scope =>
      .classType (Program.newClass head base scope)).2.KeepsNames :=
    hp.declareType n line fun _ => hbase
  exact htype.of_tables (grows_listClass hplace) rfl rfl rfl

lemma KeepsNames.declareClass (hp : p.KeepsNames) (text : String) (line : Line)
    (head : ClassHead) : (p.declareClass text line head).2.KeepsNames := by
  unfold Program.declareClass
  simp only
  split
  · exact hp.intern text
  · cases head.baseClass with
    | none => exact (hp.intern text).newClass _ line head rfl
    | some base => exact ((hp.intern text).intern base).newClass _ line head rfl

lemma KeepsNames.declareEnum (hp : p.KeepsNames) (text : String) (line : Line)
    (head : EnumHead) : (p.declareEnum text line head).2.KeepsNames := by
  unfold Program.declareEnum
  simp only
  split
  · exact hp.intern text
  · obtain ⟨-, hplace⟩ := (p.intern text).2.grows_declareType (p.intern text).1 line
      (fun scope => .enumType ⟨head.origin, head.isFlags, scope⟩) fun _ => rfl
    exact ((hp.intern text).declareType _ line fun _ => rfl).of_tables (grows_listEnum hplace)
      rfl rfl rfl

lemma KeepsNames.declareMember (hp : p.KeepsNames) (owner : SymbolId) (x : Symbol) :
    (p.declareMember owner x).2.KeepsNames := by
  obtain h | ⟨o, scope, -, -, haccepts, -, h⟩ := p.declareMember_cases owner x
  · rwa [h]
  · rw [h]
    obtain ⟨n, line, kind⟩ := x
    have hfree : (⟨n, line, kind⟩ : Symbol).isFree = true := by
      obtain ⟨m, rfl⟩ | ⟨m, rfl⟩ | ⟨m, rfl⟩ := kind_of_accepts haccepts <;> rfl
    refine (hp.declare scope hfree).modifyClass
      (grows_modifyClass fun c _ => c.becomes_listMember ..) fun c => ?_
    cases kind <;> rfl

lemma KeepsNames.defineConstructor (hp : p.KeepsNames) (s : SymbolId) (line : Line) (c : Callable) :
    (p.defineConstructor s line c).2.KeepsNames := by
  obtain h | ⟨n, hnone, h⟩ := p.defineConstructor_cases s line c
  · rwa [h]
  · rw [h]
    have hadd : (p.addSymbol ⟨n, line, .constructor c⟩).2.KeepsNames := hp.addSymbol rfl
    exact hadd.modifyClass (grows_setConstructor hnone _) fun _ => rfl

lemma KeepsNames.defineDestructor (hp : p.KeepsNames) (s : SymbolId) (body : Block) :
    (p.defineDestructor s body).2.KeepsNames := by
  obtain h | ⟨hnone, h⟩ := p.defineDestructor_cases s body
  · rwa [h]
  · rw [h]
    exact hp.modifyClass (grows_setDestructor hnone body) fun _ => rfl

end Program

/-! ### Resolution -/

namespace Pass

variable {p : Program} {st st' : Pass}

/-- What the pass has entered into scopes and bound names to bears the names in question. -/
structure KeepsNames (p : Program) (st : Pass) : Prop where
  entries : ∀ n v, st.scopes.Enters n v → p.Named v n
  references : ∀ e r t, p.reference? e = some r → st.bindings.references.get? e = some t →
    p.Named t r.name

lemma KeepsNames.settle (h : KeepsNames p st) {e : ExprId} {b : Binding}
    (hb : ∀ r t, p.reference? e = some r → b.target? = some t →
      ∃ s, st.scopes.declared? s r.name = some t) : KeepsNames p (st.settle e b) := by
  refine ⟨by rw [scopes_settle]; exact h.entries, fun e' r t hr ht => ?_⟩
  rw [references_settle] at ht
  rcases Option.or_eq_some_iff.mp ht with htarget | ⟨-, hold⟩
  · simp only [Entry.target?] at htarget
    split at htarget
    · next heq =>
      obtain ⟨s, hs⟩ := hb r t (heq ▸ hr) htarget
      exact h.entries _ _ (ScopeTree.enters_of_declared? hs)
    · simp at htarget
  · exact h.references e' r t hr hold

lemma Step.keepsNames (h : Step p st st') (hst : KeepsNames p st) : KeepsNames p st' := by
  cases h with
  | meet e => exact ⟨hst.entries, hst.references⟩
  | bind scope e =>
    obtain ⟨r, l, he, h⟩ | ⟨o, r, l, he, h⟩ | ⟨-, h⟩ := bindOwn_cases p scope st e
    · rw [h]
      refine hst.settle fun r' t hr ht => ?_
      obtain rfl : r = r' := by simpa [Program.reference?, he, Expr.reference?] using hr
      exact declared?_of_lexical ht
    · rw [h]
      refine hst.settle fun r' t hr ht => ?_
      obtain rfl : r = r' := by simpa [Program.reference?, he, Expr.reference?] using hr
      exact declared?_of_selected ht
    · rwa [h]
  | @declare scope v hnew hlt =>
    obtain ⟨-, h⟩ | ⟨sym, hv, ⟨t, ht, h⟩ | ⟨w, -, h⟩⟩ := declare_cases p scope st v
    · rwa [h]
    · rw [h]
      refine ⟨fun n w hw => ?_, hst.references⟩
      rcases ScopeTree.Enters.of_add ht hw with hw | heq
      · exact hst.entries n w hw
      · obtain ⟨rfl, rfl⟩ := Prod.mk.inj heq
        exact ⟨sym, hv, rfl⟩
    · rw [h]
      exact ⟨hst.entries, hst.references⟩
  | @opened scope key hlt =>
    refine ⟨fun n w hw => ?_, by rw [references_openFor]; exact hst.references⟩
    rw [scopes_openFor] at hw
    exact hst.entries n w hw.of_addChild
  | closed key =>
    exact ⟨by rw [scopes_closeFor]; exact hst.entries,
      by rw [references_closeFor]; exact hst.references⟩

lemma keepsNames_start (hp : p.KeepsNames) : KeepsNames p (start p) := by
  refine ⟨by rw [scopes_start]; exact hp.entries, fun e r t _ ht => ?_⟩
  rw [(onlyBases_start p).bindings] at ht
  simp at ht

end Pass

namespace Program

variable {p : Program}

lemma eq_of_getD_bind {ref : Reference} {target : Option SymbolId} {n : Name} {t : SymbolId}
    (h : (target.map ref.bind).getD ref = .bound n t) :
    ref = .bound n t ∨ ref = .free n ∧ target = some t := by
  cases target with
  | none => exact .inl h
  | some u =>
    cases ref with
    | bound m w => exact .inl h
    | free m =>
      obtain ⟨rfl, rfl⟩ : m = n ∧ u = t := by simpa [Reference.bind] using h
      exact .inr ⟨rfl, rfl⟩

/-- A name that is bound in the end was bound before, or the bindings bind it. -/
lemma reference?_of_bind {b : Bindings} {e : ExprId} {n : Name} {t : SymbolId}
    (h : (p.bind b).reference? e = some (.bound n t)) :
    p.reference? e = some (.bound n t) ∨
      p.reference? e = some (.free n) ∧ b.references.get? e = some t := by
  rw [reference?_bind] at h
  obtain ⟨ref, href, heq⟩ := Option.map_eq_some_iff.mp h
  obtain rfl | ⟨rfl, hget⟩ := eq_of_getD_bind heq
  · exact .inl href
  · exact .inr ⟨href, hget⟩

lemma baseClass?_bind (p : Program) (b : Bindings) (v : SymbolId) :
    ((p.bind b).symbol? v).bind (·.baseClass?) =
      ((p.symbol? v).bind (·.baseClass?)).map fun base =>
        ⟨((b.baseClasses.get? v).map base.reference.bind).getD base.reference, base.line⟩ := by
  rw [symbol?_bind]
  cases p.symbol? v with
  | none => rfl
  | some x =>
    obtain ⟨n, l, k⟩ := x
    cases b.baseClasses.get? v with
    | none => simp
    | some t => cases k <;> rfl

lemma baseClass?_of_bind {b : Bindings} {v : SymbolId} {n : Name} {t : SymbolId} {line : Line}
    (h : ((p.bind b).symbol? v).bind (·.baseClass?) = some ⟨.bound n t, line⟩) :
    (p.symbol? v).bind (·.baseClass?) = some ⟨.bound n t, line⟩ ∨
      (p.symbol? v).bind (·.baseClass?) = some ⟨.free n, line⟩ ∧
        b.baseClasses.get? v = some t := by
  rw [baseClass?_bind] at h
  obtain ⟨⟨ref, line'⟩, hbase, heq⟩ := Option.map_eq_some_iff.mp h
  obtain ⟨href, rfl⟩ := BaseClass.mk.inj heq
  obtain rfl | ⟨rfl, hget⟩ := eq_of_getD_bind href
  · exact .inl hbase
  · exact .inr ⟨hbase, hget⟩

/-- A resolution binds names and base classes to what it has looked up. -/
lemma KeepsNames.resolve (hp : p.KeepsNames) (hplaced : p.Placed) {o : Options} {r : BoundProgram}
    (h : p.resolve o = .ok r) : r.program.KeepsNames := by
  have hg := hplaced.grows_resolve h
  have hfinish : Pass.KeepsNames p (Pass.finish p) :=
    hplaced.steps_finish.keep (fun _ _ => Pass.Step.keepsNames) (Pass.keepsNames_start hp)
  have hprogram := program_of_resolve h
  rw [bindings_fst] at hprogram
  refine hp.of_grows hg (fun n v hentry => .inr ?_) (fun e n t he => ?_) fun v n t line hv => ?_
  · rw [scopes_of_resolve h] at hentry
    exact hg.named (hfinish.entries n v hentry)
  · rw [hprogram] at he
    refine (reference?_of_bind he).imp_right fun ⟨href, hget⟩ => ?_
    exact hg.named (hfinish.references e (.free n) t href hget)
  · rw [hprogram] at hv
    refine (baseClass?_of_bind hv).imp_right fun ⟨hbase, hget⟩ => ?_
    have hnames : p.NamesBase v t :=
      (Pass.onlyBases_start p).named v t (Pass.baseClasses_finish p ▸ hget)
    obtain ⟨base, hbase', -, hdeclared, hclass⟩ := hnames
    obtain rfl := Option.some.inj (hbase.symm.trans hbase')
    exact hg.isBase ⟨hdeclared, hp.entries n t (ScopeTree.enters_of_declared? hdeclared), hclass⟩

end Program

/-! ### Runs -/

/-- The operation brings no reference that is bound. -/
def Operation.isFree : Operation → Bool
  | addExpr x => x.isFree
  | declare _ x => x.isFree
  | _ => true

/-- Nothing is bound from outside: no operation brings a bound reference, and no bindings are
applied. -/
def Move.isFree : Move → Bool
  | build op => op.isFree
  | apply _ => false
  | resolve _ | reopen => true

namespace Program

variable {p : Program}

lemma KeepsNames.perform (hp : p.KeepsNames) {op : Operation} (hop : op.isFree = true) :
    (p.perform op).KeepsNames := by
  cases op with
  | intern text => exact hp.intern text
  | addExpr x => exact hp.addExpr hop
  | addStmt x => exact hp.of_tables (p.grows_addStmt x) rfl rfl rfl
  | addVar text line value => exact (hp.intern text).addSymbol rfl
  | declare scope x => exact hp.declare scope hop
  | declareClass text line head => exact hp.declareClass text line head
  | declareEnum text line head => exact hp.declareEnum text line head
  | declareMember owner x => exact hp.declareMember owner x
  | defineConstructor s line c => exact hp.defineConstructor s line c
  | defineDestructor s body => exact hp.defineDestructor s body

lemma KeepsNames.declareBuiltin (hp : p.KeepsNames) (b : Builtin) :
    (p.declareBuiltin b).KeepsNames :=
  ((hp.intern b.keyword).addSymbol rfl).enter ScopeTree.global (named_addSymbol _ _)

lemma keepsNames_new : new.KeepsNames := by
  have hempty : (⟨{}, #[], #[], #[], .new, [], []⟩ : Program).KeepsNames := by
    refine ⟨fun n v ⟨s, sc, hsc, hmem⟩ => ?_, fun e n t he => ?_, fun v n t line hv => ?_⟩
    · obtain ⟨-, rfl⟩ : s.index = 0 ∧ ({ kind := .global, parent := none } : Scope) = sc := by
        simpa [ScopeTree.scope?, ScopeTree.new, List.getElem?_singleton] using hsc
      exact absurd hmem List.not_mem_nil
    · simp [reference?, expr?] at he
    · simp [symbol?] at hv
  unfold new
  generalize (⟨{}, #[], #[], #[], .new, [], []⟩ : Program) = p at hempty
  induction Builtin.all generalizing p with
  | nil => exact hempty
  | cons b bs ih => exact ih _ (hempty.declareBuiltin b)

end Program

namespace Stage

variable {s t : Stage}

lemma keepsNames_after (hs : s.program.KeepsNames) (hplaced : s.program.Placed) {m : Move}
    (hm : m.isFree = true) (h : s.after m = some t) : t.program.KeepsNames := by
  obtain ht | ⟨op, rfl, ht⟩ | ⟨o, r, hr, ht⟩ | ⟨b, rfl, -⟩ := after_cases h
  · rwa [ht]
  · rw [ht]
    exact hs.perform hm
  · rw [ht]
    exact hs.resolve hplaced hr
  · simp [Move.isFree] at hm

lemma keepsNames_run? (hs : s.program.KeepsNames) (hplaced : s.program.Placed) {ms : List Move}
    (hms : ∀ m ∈ ms, m.isFree = true) (h : s.run? ms = some t) : t.program.KeepsNames := by
  induction ms generalizing s with
  | nil =>
    obtain rfl := Option.some.inj h
    exact hs
  | cons m ms ih =>
    obtain ⟨mid, hmid, hrest⟩ := Option.bind_eq_some_iff.mp h
    obtain ⟨hm, hms⟩ := List.forall_mem_cons.mp hms
    exact ih (keepsNames_after hs hplaced hm hmid) ((grows_after hplaced hmid).placed hplaced) hms
      hrest

end Stage

/-- **Bindings preserve names**. In every program reached by operations, resolutions and reopenings,
where no operation brings a bound reference, each entry of a scope leads from a name to a symbol of
that name. Each bound name has a target of that name; and so has each bound base class, where the
target is a class that the global scope declares. -/
theorem bindings_preserve_names {ms : List Move} {s : Stage}
    (hrun : (Stage.building .new).run? ms = some s) (hfree : ∀ m ∈ ms, m.isFree = true) :
    (∀ scope sc, s.program.scopes.scope? scope = some sc →
      ∀ n v, (n, v) ∈ sc.entries.entries → s.program.Named v n) ∧
    (∀ e n t, s.program.reference? e = some (.bound n t) → s.program.Named t n) ∧
    ∀ v n t line, (s.program.symbol? v).bind (·.baseClass?) = some ⟨.bound n t, line⟩ →
      s.program.Named t n ∧ (s.program.class? t).isSome ∧
        s.program.scopes.declared? ScopeTree.global n = some t := by
  have h := Stage.keepsNames_run? (s := .building .new) Program.keepsNames_new Program.placed_new
    hfree hrun
  refine ⟨fun scope sc hsc n v hmem => h.entries n v ⟨scope, sc, hsc, hmem⟩, h.references,
    fun v n t line hv => ?_⟩
  obtain ⟨hdeclared, hnamed, hclass⟩ := h.bases v n t line hv
  exact ⟨hnamed, hclass, hdeclared⟩

theorem field_bindings_preserve_names :
    (Stage.building .new).run? (derivedMoves ++ fieldMoves) = some fieldStage ∧
    (∀ m ∈ derivedMoves ++ fieldMoves, m.isFree = true) ∧
    fieldStage.program.reference? ⟨0⟩ = some (.bound ⟨2⟩ ⟨2⟩) ∧ fieldStage.program.Named ⟨2⟩ ⟨2⟩ ∧
    (fieldStage.program.symbol? ⟨8⟩).bind (·.baseClass?) = some ⟨.bound ⟨7⟩ ⟨7⟩, ⟨2⟩⟩ ∧
    fieldStage.program.Named ⟨7⟩ ⟨7⟩ ∧
    fieldStage.program.members ⟨1⟩ = [⟨9⟩] ∧ fieldStage.program.Named ⟨9⟩ ⟨9⟩ := by
  have hrun : (Stage.building .new).run? (derivedMoves ++ fieldMoves) = some fieldStage := by decide
  have hfree : ∀ m ∈ derivedMoves ++ fieldMoves, m.isFree = true := by decide
  have href : fieldStage.program.reference? ⟨0⟩ = some (.bound ⟨2⟩ ⟨2⟩) := by decide
  have hbase : (fieldStage.program.symbol? ⟨8⟩).bind (·.baseClass?) =
      some ⟨.bound ⟨7⟩ ⟨7⟩, ⟨2⟩⟩ := by decide
  have hscope : fieldStage.program.scopes.scope? ⟨1⟩ =
      some ⟨.type ⟨7⟩, some ScopeTree.global, ⟨[(⟨9⟩, ⟨9⟩)]⟩⟩ := by decide
  obtain ⟨hentries, hreferences, hbases⟩ := bindings_preserve_names hrun hfree
  exact ⟨hrun, hfree, href, hreferences _ _ _ href, hbase, (hbases _ _ _ _ hbase).1, by decide,
    hentries _ _ hscope ⟨9⟩ ⟨9⟩ (by simp)⟩

end NameBinding
