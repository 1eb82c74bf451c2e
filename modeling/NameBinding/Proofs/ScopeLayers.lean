import NameBinding.Proofs.RecordedScopes

/-!
The layers of the tree of scopes. What the pass opens stands below the scopes of the program: the
scope of a method in that of a class, and blocks in it or in each other. Variables are entered into
these only, so the scopes of the program stay as they are.
-/

namespace NameBinding

/-! ### What scripts open -/

namespace Script

variable {p : Program}

/-- No scope of a method is opened. -/
def OnlyBlocks : Script → Prop
  | skip | meet _ | bind _ | enter _ => True
  | seq a b => a.OnlyBlocks ∧ b.OnlyBlocks
  | within key body => key.isMethod = false ∧ body.OnlyBlocks

/-- Nothing is entered, and only scopes of methods are opened, with blocks in them. -/
def OnlyMethods : Script → Prop
  | skip | meet _ | bind _ => True
  | enter _ => False
  | seq a b => a.OnlyMethods ∧ b.OnlyMethods
  | within key body => key.isMethod = true ∧ body.OnlyBlocks

lemma log_within_ne_nil (key : ScopeKey) (body : Script) : (within key body).log ≠ [] :=
  List.ne_nil_of_mem (mem_log_within.mpr (.inl rfl))

lemma onlyBlocks_of_log {c : Script} (h : c.log = []) : c.OnlyBlocks := by
  induction c with
  | seq a b iha ihb =>
    obtain ⟨ha, hb⟩ := List.append_eq_nil_iff.mp h
    exact ⟨iha ha, ihb hb⟩
  | within key body => exact absurd h (log_within_ne_nil key body)
  | _ => trivial

lemma onlyMethods_of_log {c : Script} (h : c.log = []) (hentered : c.entered = []) :
    c.OnlyMethods := by
  induction c with
  | seq a b iha ihb =>
    obtain ⟨ha, hb⟩ := List.append_eq_nil_iff.mp h
    obtain ⟨hea, heb⟩ := List.append_eq_nil_iff.mp hentered
    exact ⟨iha ha hea, ihb hb heb⟩
  | enter v => simp [entered] at hentered
  | within key body => exact absurd h (log_within_ne_nil key body)
  | _ => trivial

lemma sequential_onlyBlocks (p : Program) : Sequential p OnlyBlocks where
  skip := trivial
  seq _ _ := And.intro
  enter _ _ := trivial
  root e _ := onlyBlocks_of_log (log_expr e)

lemma onlyBlocks_stmt (s : StmtId) : (stmt p s).OnlyBlocks := by
  have hwithin : ∀ depth s, (stmtWithin p depth s).OnlyBlocks := by
    intro depth
    induction depth with
    | zero => exact fun _ => trivial
    | succ depth ih =>
      intro s
      simp only [stmtWithin]
      cases hs : p.stmt? s with
      | none => trivial
      | some x =>
        refine (sequential_onlyBlocks p).stmtStep hs (fun key body hkey hbody => ⟨?_, hbody⟩)
          (fun c _ => ?_) fun c _ => ih c
        · cases key with
          | method v => simp [ScopeKey.stmt?] at hkey
          | block _ | clause _ _ => rfl
        · rw [nested_eq]
          split
          · exact ih c
          · exact ⟨rfl, ih c⟩
  exact hwithin _ s

lemma onlyBlocks_stmts (ss : List StmtId) : (each (stmt p) ss).OnlyBlocks :=
  (sequential_onlyBlocks p).each fun s _ => onlyBlocks_stmt s

lemma onlyMethods_each {α : Type} {f : α → Script} (xs : List α) (h : ∀ x, (f x).OnlyMethods) :
    (each f xs).OnlyMethods := by
  induction xs with
  | nil => trivial
  | cons x xs ih => exact ⟨h x, ih⟩

lemma onlyMethods_plainBody (v : SymbolId) (body : List StmtId) :
    (plainBody p v body).OnlyMethods :=
  ⟨rfl, onlyBlocks_stmts body⟩

lemma onlyMethods_method (v : SymbolId) : (method p v).OnlyMethods := by
  unfold method
  split
  · trivial
  · next m _ =>
    refine ⟨onlyMethods_of_log (log_exprs _) (entered_exprs _), rfl, ?_, onlyBlocks_stmts _⟩
    exact (sequential_onlyBlocks p).each fun v _ => ⟨onlyBlocks_of_log (log_value v), trivial⟩

/-- In the scope of a class only methods, its constructor and its destructor open scopes. -/
lemma onlyMethods_classType (v : SymbolId) (c : ClassInfo) : (classType p v c).OnlyMethods := by
  refine ⟨onlyMethods_each _ fun w => onlyMethods_of_log (log_value w) (entered_value w), ?_,
    onlyMethods_each _ fun b => onlyMethods_plainBody v _, onlyMethods_each _ onlyMethods_method⟩
  refine onlyMethods_each _ fun w => ?_
  unfold constructor
  split
  · trivial
  · exact onlyMethods_plainBody w _

end Script

/-! ### Layers -/

namespace Program

variable {p : Program} {t t' : ScopeTree} {s q : ScopeId}

/-- The scope of the members of a class at the top. -/
def IsClassScope (p : Program) (s : ScopeId) : Prop :=
  ∃ v ∈ p.classes, ∃ c, p.class? v = some c ∧ c.scope = s

/-- Where the pass opens scopes: those of methods in classes, and blocks in what it opened. -/
inductive OpensIn (p : Program) (q : ScopeId) : ScopeKind → Prop
  | method (v : SymbolId) : p.IsClassScope q → OpensIn p q (.method v)
  | block : p.scopes.size ≤ q.index → OpensIn p q .block

/-- All scopes that the program does not have itself stand where the pass opens them. -/
def Layered (p : Program) (t : ScopeTree) : Prop :=
  ∀ s sc, p.scopes.size ≤ s.index → t.scope? s = some sc →
    ∃ q, sc.parent = some q ∧ q.index < s.index ∧ p.OpensIn q sc.kind

lemma layered_self (p : Program) : p.Layered p.scopes := by
  intro s sc hge hs
  have hlt := ScopeTree.lt_of_scope? hs
  omega

lemma Layered.addChild (h : p.Layered t) {kind : ScopeKind} (hq : p.OpensIn q kind)
    (hlt : q.index < t.size) : p.Layered (t.addChild q kind).2 := by
  intro s sc hge hs
  rw [ScopeTree.scope?_addChild] at hs
  split at hs
  · next hs' =>
    obtain rfl := Option.some.inj hs
    exact ⟨q, rfl, by omega, hq⟩
  · exact h s sc hge hs

lemma Layered.add (h : p.Layered t) {n : Name} {v : SymbolId} (hadd : t.add s n v = .ok t') :
    p.Layered t' := by
  intro r sc hge hr
  rw [ScopeTree.scope?_add hadd] at hr
  split at hr
  · obtain ⟨sc', hr', rfl⟩ := Option.map_eq_some_iff.mp hr
    exact h r sc' hge hr'
  · exact h r sc hge hr

end Program

namespace Pass

variable {p : Program} {st : Pass} {scope : ScopeId}

@[simp] lemma scopes_bindOwn (st : Pass) (scope : ScopeId) (e : ExprId) :
    (st.bindOwn p scope e).scopes = st.scopes := by
  obtain ⟨_, _, -, h⟩ | ⟨_, _, _, -, h⟩ | ⟨-, h⟩ := bindOwn_cases p scope st e <;> simp [h]

lemma layered_declare (h : p.Layered st.scopes) (v : SymbolId) :
    p.Layered (st.declare p scope v).scopes := by
  obtain ⟨-, hrun⟩ | ⟨sym, -, ⟨t, ht, hrun⟩ | ⟨w, -, hrun⟩⟩ := declare_cases p scope st v
  · rwa [hrun]
  · rw [hrun]
    exact h.add ht
  · rw [hrun]
    exact h

lemma layered_openFor (h : p.Layered st.scopes) (hat : StandsAt p scope st) {key : ScopeKey}
    (hopens : p.OpensIn scope key.kind) : p.Layered (st.openFor scope key).scopes := by
  rw [scopes_openFor]
  exact h.addChild hopens hat.lt

/-- In a scope that the pass opened, blocks may be opened. -/
lemma layered_run_blocks (c : Script) (hc : c.OnlyBlocks) (h : p.Layered st.scopes)
    (hat : StandsAt p scope st) (hnew : p.scopes.size ≤ scope.index) :
    p.Layered (c.run p scope st).scopes := by
  induction c generalizing scope st with
  | skip | meet e => exact h
  | seq a b iha ihb =>
    exact ihb hc.2 (iha hc.1 h hat hnew) (Script.standsAt_run a hat) hnew
  | bind e => simpa [Script.run] using h
  | enter v => exact layered_declare h v
  | within key body ih =>
    have hopens : p.OpensIn scope key.kind := by
      cases key with
      | method v => simp [Script.OnlyBlocks, ScopeKey.isMethod] at hc
      | block _ | clause _ _ => exact .block hnew
    rw [Script.run, scopes_closeFor]
    exact ih hc.2 (layered_openFor h hat hopens) (Script.standsAt_openFor hat key) hat.size

/-- In the scope of a class, scopes of methods may be opened. -/
lemma layered_run_methods (c : Script) (hc : c.OnlyMethods) (h : p.Layered st.scopes)
    (hat : StandsAt p scope st) (hclass : p.IsClassScope scope) :
    p.Layered (c.run p scope st).scopes := by
  induction c generalizing st with
  | skip | meet e => exact h
  | seq a b iha ihb => exact ihb hc.2 (iha hc.1 h hat) (Script.standsAt_run a hat)
  | bind e => simpa [Script.run] using h
  | enter v => exact hc.elim
  | within key body _ =>
    have hopens : p.OpensIn scope key.kind := by
      cases key with
      | method v => exact .method v hclass
      | block _ | clause _ _ => simp [Script.OnlyMethods, ScopeKey.isMethod] at hc
    rw [Script.run, scopes_closeFor]
    exact layered_run_blocks body hc.2 (layered_openFor h hat hopens)
      (Script.standsAt_openFor hat key) hat.size

/-- A script that opens nothing and enters nothing leaves all scopes as they are. -/
lemma scopes_run_of_log (c : Script) (hlog : c.log = []) (hentered : c.entered = []) :
    (c.run p scope st).scopes = st.scopes := by
  induction c generalizing st with
  | skip | meet e => rfl
  | seq a b iha ihb =>
    obtain ⟨ha, hb⟩ := List.append_eq_nil_iff.mp hlog
    obtain ⟨hea, heb⟩ := List.append_eq_nil_iff.mp hentered
    rw [Script.run, ihb hb heb, iha ha hea]
  | bind e => exact scopes_bindOwn st scope e
  | enter v => simp [Script.entered] at hentered
  | within key body => exact absurd hlog (Script.log_within_ne_nil key body)

/-- The script of a class, in its scope, or one that leaves the scopes as they are. -/
def KeepsLayers (p : Program) (x : ScopeId × Script) : Prop :=
  p.IsClassScope x.1 ∧ x.2.OnlyMethods ∨ x.2.log = [] ∧ x.2.entered = []

lemma keepsLayers_of_mem_scripts {x : ScopeId × Script} (hx : x ∈ p.scripts) :
    KeepsLayers p x := by
  obtain ⟨v, hv, c, hc, rfl⟩ | ⟨v, -, t, -, rfl⟩ := Program.scripts_cases hx
  · exact .inl ⟨⟨v, hv, c, hc, rfl⟩, Script.onlyMethods_classType v c⟩
  · exact .inr ⟨by simp [Script.enumType], by simp [Script.enumType]⟩

lemma layered_runAll {scripts : List (ScopeId × Script)}
    (hscripts : ∀ x ∈ scripts, x.1.index < p.scopes.size ∧ KeepsLayers p x)
    (h : p.Layered st.scopes) (hat : StandsAt p ScopeTree.global st) :
    p.Layered (Script.runAll p scripts st).scopes := by
  induction scripts generalizing st with
  | nil => exact h
  | cons x xs ih =>
    obtain ⟨hlt, hkeeps⟩ := hscripts x (by simp)
    have hx : StandsAt p x.1 st := ⟨hat.rooted, hat.size, hlt.trans_le hat.size⟩
    have hafter : p.Layered (x.2.run p x.1 st).scopes := by
      rcases hkeeps with ⟨hclass, hmethods⟩ | ⟨hlog, hentered⟩
      · exact layered_run_methods x.2 hmethods h hx hclass
      · rwa [scopes_run_of_log x.2 hlog hentered]
    exact ih (fun y hy => hscripts y (by simp [hy])) hafter ((Script.grows_run x.2 hx).standsAt hat)

lemma layered_finish (hp : p.WellFormed) : p.Layered (finish p).scopes := by
  refine layered_runAll
    (fun x hx => ⟨hp.listed.lt_of_mem_scripts hx, keepsLayers_of_mem_scripts hx⟩) ?_
    (standsAt_start hp)
  rw [scopes_start]
  exact p.layered_self

/-- The scopes of the program are in the tree as they were. -/
lemma scope?_finish (hp : p.Listed) {s : ScopeId} (hs : s.index < p.scopes.size) :
    (finish p).scopes.scope? s = p.scopes.scope? s := by
  rw [(steps_finish hp).scope?_of_lt (by simp) hs, scopes_start]

lemma size_le_finish (hp : p.Listed) : p.scopes.size ≤ (finish p).scopes.size := by
  simpa using (steps_finish hp).size_le

end Pass

/-! ### Ancestors of new scopes -/

namespace ScopeTree

/-- What introduced a scope. -/
def kind? (t : ScopeTree) (s : ScopeId) : Option ScopeKind := (t.scope? s).map (·.kind)

end ScopeTree

namespace Program

variable {p : Program} {t : ScopeTree} {s : ScopeId}

/-- A tree that has the scopes of the program as they are, and its own in layers below. -/
structure Extends (p : Program) (t : ScopeTree) : Prop where
  old : ∀ s : ScopeId, s.index < p.scopes.size → t.scope? s = p.scopes.scope? s
  new : p.Layered t

/-- The scopes of blocks, of the method and of the class that stand around a new scope. -/
structure Around (p : Program) (t : ScopeTree) (blocks : List ScopeId) (method type : ScopeId) :
    Prop where
  blocks : ∀ b ∈ blocks, p.scopes.size ≤ b.index ∧ t.kind? b = some .block
  method : p.scopes.size ≤ method.index ∧ ∃ v, t.kind? method = some (.method v)
  type : p.IsClassScope type

lemma Extends.rooted (h : p.Extends t) (hp : p.Allocated) : t.Rooted := by
  intro s q hq
  obtain ⟨sc, hs, hparent⟩ := Option.bind_eq_some_iff.mp hq
  rcases Nat.lt_or_ge s.index p.scopes.size with hlt | hge
  · rw [h.old s hlt] at hs
    exact hp.rooted.lt hs hparent
  · obtain ⟨q', hq', hlt, -⟩ := h.new s sc hge hs
    obtain rfl := Option.some.inj (hparent.symm.trans hq')
    exact hlt

/-- The scope of a class stands right below the global one, which has no parent. -/
lemma Extends.ancestors_class (h : p.Extends t) (hp : p.WellFormed) (hs : p.IsClassScope s) :
    t.ancestors s = [s, ScopeTree.global] := by
  have hroot := h.rooted hp.allocated
  obtain ⟨v, hv, c, hc, rfl⟩ := hs
  obtain ⟨sc, hsc, hparent⟩ := Option.bind_eq_some_iff.mp (hp.listed.lists hv hc).parent
  obtain ⟨top, htop, hnone⟩ := hp.listed.root
  have hclass : t.scope? c.scope = some sc := by
    rw [h.old _ (ScopeTree.lt_of_scope? hsc), hsc]
  have hglobal : t.scope? ScopeTree.global = some top := by
    rw [h.old _ (ScopeTree.lt_of_scope? htop), htop]
  rw [ScopeTree.ancestors_eq hroot hclass, hparent, Option.map_some, Option.getD_some,
    ScopeTree.ancestors_eq hroot hglobal, hnone]
  rfl

/-- From a new scope one comes through blocks to that of a method, then to that of a class, and
then to the global one. -/
lemma Extends.ancestors_new (h : p.Extends t) (hp : p.WellFormed) (hge : p.scopes.size ≤ s.index)
    (hlt : s.index < t.size) : ∃ blocks method type, p.Around t blocks method type ∧
      t.ancestors s = blocks ++ [method, type, ScopeTree.global] := by
  induction hk : s.index using Nat.strong_induction_on generalizing s with
  | _ k ih =>
    subst hk
    obtain ⟨sc, hsc⟩ := ScopeTree.scope?_of_lt hlt
    obtain ⟨q, hparent, hq, hopens⟩ := h.new s sc hge hsc
    have hkind : t.kind? s = some sc.kind := by rw [ScopeTree.kind?, hsc]; rfl
    have hchain : t.ancestors s = s :: t.ancestors q := by
      rw [ScopeTree.ancestors_eq (h.rooted hp.allocated) hsc, hparent]
      rfl
    generalize sc.kind = kind at hopens hkind
    cases hopens with
    | method v hclass =>
      refine ⟨[], s, q, ⟨by simp, ⟨hge, v, hkind⟩, hclass⟩, ?_⟩
      rw [hchain, h.ancestors_class hp hclass]
      rfl
    | block hnew =>
      obtain ⟨blocks, method, type, haround, heq⟩ := ih q.index hq hnew (hq.trans hlt) rfl
      refine ⟨s :: blocks, method, type, ⟨?_, haround.method, haround.type⟩, ?_⟩
      · exact List.forall_mem_cons.mpr ⟨⟨hge, hkind⟩, haround.blocks⟩
      · rw [hchain, heq]
        rfl

end Program

lemma Pass.extends_finish {p : Program} (hp : p.WellFormed) : p.Extends (finish p).scopes :=
  ⟨fun _ hs => scope?_finish hp.listed hs, layered_finish hp⟩

/-- **The pass only extends the tree of scopes.** Those of the program come first and are as they
were. Each other one is that of a method, in a class at the top, or a block, in one of these others,
so that around it there are blocks, one method, a class and the global scope. The scopes of types
and the global one are scopes of the program, and nothing is entered into them. -/
theorem pass_only_extends_scopes {p : Program} (hp : p.Built) (o : Options) :
    ∃ t, (p.bindings o).1.scopes = some t ∧ p.scopes.size ≤ t.size ∧
    (∀ s : ScopeId, s.index < p.scopes.size → t.scope? s = p.scopes.scope? s) ∧
    (∀ s sc, p.scopes.size ≤ s.index → t.scope? s = some sc →
      ∃ q, sc.parent = some q ∧ q.index < s.index ∧
        ((∃ v, sc.kind = .method v) ∧ p.IsClassScope q ∨
          sc.kind = .block ∧ p.scopes.size ≤ q.index ∧
            (t.kind? q = some .block ∨ ∃ v, t.kind? q = some (.method v)))) ∧
    (∀ s : ScopeId, p.scopes.size ≤ s.index → s.index < t.size →
      ∃ blocks method type, p.Around t blocks method type ∧
        t.ancestors s = blocks ++ [method, type, ScopeTree.global]) ∧
    ∀ s sc, t.scope? s = some sc → (sc.kind = .global ∨ ∃ v, sc.kind = .type v) →
      p.scopes.scope? s = some sc := by
  have hwf := hp.wellFormed
  have hextends := Pass.extends_finish hwf
  have hscopes : (p.bindings o).1.scopes = some (Pass.finish p).scopes := by
    rw [Program.bindings_fst]
  refine ⟨_, hscopes, Pass.size_le_finish hwf.listed, hextends.old, fun s sc hge hs => ?_,
    fun s => hextends.ancestors_new hwf, fun s sc hs hkind => ?_⟩
  · obtain ⟨q, hparent, hlt, hopens⟩ := hextends.new s sc hge hs
    refine ⟨q, hparent, hlt, ?_⟩
    generalize sc.kind = kind at hopens
    cases hopens with
    | method v hclass => exact .inl ⟨⟨v, rfl⟩, hclass⟩
    | block hnew =>
      have hsize := hlt.trans (ScopeTree.lt_of_scope? hs)
      obtain ⟨sq, hsq⟩ := ScopeTree.scope?_of_lt hsize
      obtain ⟨_, -, -, hopens⟩ := hextends.new q sq hnew hsq
      rw [ScopeTree.kind?, hsq, Option.map_some]
      refine .inr ⟨rfl, hnew, ?_⟩
      generalize sq.kind = kind at hopens
      cases hopens with
      | method v _ => exact .inr ⟨v, rfl⟩
      | block _ => exact .inl rfl
  · rcases Nat.lt_or_ge s.index p.scopes.size with hlt | hge
    · rw [← hextends.old s hlt, hs]
    · -- a new scope is of neither kind
      obtain ⟨_, -, -, hopens⟩ := hextends.new s sc hge hs
      rcases hkind with hkind | ⟨v, hkind⟩ <;> rw [hkind] at hopens <;> cases hopens

/-- In the program with two loops, the innermost block is the fourth scope in a method. -/
theorem loops_only_extend_scopes : (loops false).Built ∧ (loops false).scopes.size = 2 ∧
    ∃ t, ((loops false).bindings {}).1.scopes = some t ∧ t.size = 6 ∧
      t.scope? ⟨1⟩ = (loops false).scopes.scope? ⟨1⟩ ∧
      t.ancestors ⟨5⟩ = [⟨5⟩, ⟨4⟩, ⟨3⟩] ++ [⟨2⟩, ⟨1⟩, ScopeTree.global] ∧
      ∃ blocks method type, (loops false).Around t blocks method type ∧
        t.ancestors ⟨5⟩ = blocks ++ [method, type, ScopeTree.global] := by
  have hsteps : Program.new.build? (loopSteps false) = some (loops false) := by decide
  have hbuilt : (loops false).Built := Program.Built.new.build? hsteps
  have hsize : (loops false).scopes.size = 2 := by decide
  obtain ⟨t, ht, -, hold, -, haround, -⟩ := pass_only_extends_scopes hbuilt {}
  have htree : some t = some (Pass.run (loops false)).scopes := ht.symm
  obtain rfl := Option.some.inj htree
  exact ⟨hbuilt, hsize, _, ht, by decide, hold ⟨1⟩ (by decide), by decide,
    haround ⟨5⟩ (by decide) (by decide)⟩

end NameBinding
