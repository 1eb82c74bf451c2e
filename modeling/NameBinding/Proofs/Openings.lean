import NameBinding.Proofs.BaseClasses
import NameBinding.Proofs.FrameRefinement

/-!
The scopes that the pass opens, in the order in which they are recorded. A record may be written
over by a later one under the same key. Which records a script writes, and what it enters into the
scope of each, depends on the script only.
-/

namespace NameBinding

/-- The last element with a key. -/
def lastAt {α : Type} (key : α → ScopeKey) (l : List α) (k : ScopeKey) : Option α :=
  l.reverse.find? fun x => key x = k

section LastAt

variable {α : Type} {key : α → ScopeKey} {l : List α} {k : ScopeKey} {x : α}

@[simp] lemma lastAt_nil (key : α → ScopeKey) (k : ScopeKey) : lastAt key [] k = none := rfl

@[simp] lemma lastAt_singleton (key : α → ScopeKey) (x : α) (k : ScopeKey) :
    lastAt key [x] k = if key x = k then some x else none := by
  by_cases h : key x = k <;> simp [lastAt, h]

lemma lastAt_append (key : α → ScopeKey) (l l' : List α) (k : ScopeKey) :
    lastAt key (l ++ l') k = (lastAt key l' k).or (lastAt key l k) := by
  simp [lastAt, List.find?_append]

lemma lastAt_map {β : Type} (key : β → ScopeKey) (f : α → β) (l : List α) (k : ScopeKey) :
    lastAt key (l.map f) k = (lastAt (fun x => key (f x)) l k).map f := by
  simp only [lastAt, ← List.map_reverse, List.find?_map]
  rfl

lemma mem_of_lastAt (h : lastAt key l k = some x) : x ∈ l ∧ key x = k :=
  ⟨List.mem_reverse.mp (List.mem_of_find?_eq_some h), by simpa using List.find?_some h⟩

lemma exists_lastAt (key : α → ScopeKey) (hx : x ∈ l) : ∃ y, lastAt key l (key x) = some y :=
  Option.isSome_iff_exists.mp (List.find?_isSome.mpr ⟨x, List.mem_reverse.mpr hx, by simp⟩)

/-- Each element is the last with its key exactly if no key occurs twice. -/
lemma lastAt_iff_nodup (hl : l.Nodup) :
    (∀ x ∈ l, lastAt key l (key x) = some x) ↔ (l.map key).Nodup := by
  constructor
  · intro h
    refine hl.map_on fun x hx y hy hkey => ?_
    have hy' := h y hy
    rw [← hkey, h x hx] at hy'
    exact Option.some.inj hy'
  · intro hnodup x hx
    obtain ⟨y, hy⟩ := exists_lastAt key hx
    obtain ⟨hmem, hkey⟩ := mem_of_lastAt hy
    rw [hy, List.inj_on_of_nodup_map hnodup hmem hx hkey]

end LastAt

/-- What a scope is recorded under, and the variables entered into it. -/
abbrev Record := ScopeKey × List SymbolId

/-- A scope that was opened, with its record. -/
structure Opening where
  scope : ScopeId
  record : Record

/-! ### Records in the state -/

/-- The scopes of methods are recorded when they are opened, all others when they are left. -/
def ScopeKey.isMethod : ScopeKey → Bool
  | method _ => true
  | block _ | clause _ _ => false

namespace Pass

def scopeAt? (st : Pass) : ScopeKey → Option ScopeId
  | .method s => st.bindings.methodScopes.get? s
  | .block s => st.bindings.blockScopes.get? s
  | .clause s c => st.bindings.clauseScopes.get? (s, c)

section

variable (st : Pass)

@[simp] lemma scopeAt?_settle (e : ExprId) (b : Binding) (k : ScopeKey) :
    (st.settle e b).scopeAt? k = st.scopeAt? k := by
  cases k <;> cases b <;> rfl

@[simp] lemma scopeAt?_bindOwn (p : Program) (scope : ScopeId) (e : ExprId) (k : ScopeKey) :
    (st.bindOwn p scope e).scopeAt? k = st.scopeAt? k := by
  obtain ⟨_, _, -, h⟩ | ⟨_, _, _, -, h⟩ | ⟨-, h⟩ := bindOwn_cases p scope st e <;> simp [h]

@[simp] lemma scopeAt?_declare (p : Program) (scope : ScopeId) (v : SymbolId) (k : ScopeKey) :
    (st.declare p scope v).scopeAt? k = st.scopeAt? k := by
  obtain ⟨-, h⟩ | ⟨_, -, ⟨t, -, h⟩ | ⟨w, -, h⟩⟩ := declare_cases p scope st v
  · rw [h]
  · rw [h]
    cases k <;> rfl
  · rw [h]
    cases k <;> rfl

lemma scopeAt?_openFor (scope : ScopeId) (key k : ScopeKey) : (st.openFor scope key).scopeAt? k =
    if k = key ∧ key.isMethod = true then some ⟨st.scopes.size⟩ else st.scopeAt? k := by
  cases key <;> cases k <;>
    simp [openFor, openMethod, openScope, scopeAt?, ScopeKey.isMethod, OrderedMap.get?_insert,
      ScopeTree.addChild, ScopeTree.size]

lemma scopeAt?_closeFor (inner : ScopeId) (key k : ScopeKey) : (st.closeFor inner key).scopeAt? k =
    if k = key ∧ key.isMethod = false then some inner else st.scopeAt? k := by
  cases key <;> cases k <;>
    simp [closeFor, recordBlock, recordClause, scopeAt?, ScopeKey.isMethod, OrderedMap.get?_insert]

end

/-- From the first state to the second, the scopes of `l` were opened, and recorded in this order.
-/
structure Opens (l : List Opening) (st st' : Pass) : Prop where
  size : st'.scopes.size = st.scopes.size + l.length
  scopes : (l.map (·.scope.index)).Perm (List.range' st.scopes.size l.length)
  recorded : ∀ key, st'.scopeAt? key =
    ((lastAt (·.record.1) l key).map (·.scope)).or (st.scopeAt? key)
  members : ∀ x ∈ l, st'.scopes.symbols x.scope = x.record.2

variable {l l' : List Opening} {st mid st' : Pass}

lemma Opens.nil (hsize : st'.scopes.size = st.scopes.size)
    (hrecorded : ∀ key, st'.scopeAt? key = st.scopeAt? key) : Opens [] st st' where
  size := hsize
  scopes := .refl _
  recorded := hrecorded
  members := by simp

lemma Opens.mem_iff (h : Opens l st st') (i : Nat) :
    (∃ x ∈ l, x.scope = ⟨i⟩) ↔ st.scopes.size ≤ i ∧ i < st'.scopes.size := by
  rw [h.size, ← List.mem_range'_1, ← h.scopes.mem_iff, List.mem_map]
  refine exists_congr fun x => and_congr_right fun _ => ⟨fun hx => by rw [hx], fun hx => ?_⟩
  rw [← hx]

lemma Opens.bounds (h : Opens l st st') {x : Opening} (hx : x ∈ l) :
    st.scopes.size ≤ x.scope.index ∧ x.scope.index < st'.scopes.size :=
  (h.mem_iff _).mp ⟨x, hx, rfl⟩

/-- No scope is opened twice. -/
lemma Opens.scopes_nodup (h : Opens l st st') : (l.map (·.scope)).Nodup := by
  have hnodup : (l.map (·.scope.index)).Nodup := h.scopes.nodup_iff.mpr List.nodup_range'
  refine List.Nodup.of_map ScopeId.index ?_
  rwa [List.map_map]

/-- Openings one after the other, if the later ones leave the earlier scopes as they are. -/
lemma Opens.append (h : Opens l st mid) (h' : Opens l' mid st')
    (hkeep : ∀ r : ScopeId, st.scopes.size ≤ r.index → r.index < mid.scopes.size →
      st'.scopes.scope? r = mid.scopes.scope? r) : Opens (l ++ l') st st' where
  size := by
    rw [h'.size, h.size, List.length_append]
    omega
  scopes := by
    have hscopes := h.scopes.append h'.scopes
    rwa [h.size, List.range'_append_1, ← List.map_append, ← List.length_append] at hscopes
  recorded key := by
    rw [h'.recorded, h.recorded, lastAt_append]
    cases lastAt (·.record.1) l' key <;> simp
  members x hx := by
    rcases List.mem_append.mp hx with hx | hx
    · obtain ⟨hge, hlt⟩ := h.bounds hx
      rw [← h.members x hx]
      unfold ScopeTree.symbols
      rw [hkeep x.scope hge hlt]
    · exact h'.members x hx

/-- The scope around openings is recorded before them or after them. -/
lemma Opens.around {scope : ScopeId} {key : ScopeKey} {members : List SymbolId}
    (h : Opens l (st.openFor scope key) mid)
    (hmembers : mid.scopes.symbols ⟨st.scopes.size⟩ = members) :
    Opens (if key.isMethod then ⟨⟨st.scopes.size⟩, key, members⟩ :: l
      else l ++ [⟨⟨st.scopes.size⟩, key, members⟩]) st (mid.closeFor ⟨st.scopes.size⟩ key) := by
  have hsize : (st.openFor scope key).scopes.size = st.scopes.size + 1 := by
    rw [scopes_openFor, ScopeTree.size_addChild]
  have hmid := h.size
  have hscopes := h.scopes.cons st.scopes.size
  rw [hsize, ← List.range'_succ] at hscopes
  rw [hsize] at hmid
  have hsymbols : ∀ x ∈ l, mid.scopes.symbols x.scope = x.record.2 := h.members
  split
  · next hkey =>
    refine ⟨?_, hscopes, fun k => ?_, ?_⟩
    · rw [scopes_closeFor, hmid, List.length_cons]
      omega
    · have happend := lastAt_append (·.record.1) [⟨⟨st.scopes.size⟩, key, members⟩] l k
      rw [List.singleton_append] at happend
      rw [scopeAt?_closeFor, if_neg (by simp [hkey]), h.recorded, scopeAt?_openFor, happend]
      by_cases hk : key = k
      · subst hk
        cases lastAt (·.record.1) l key <;> simp [hkey]
      · have hk' : ¬ k = key := fun he => hk he.symm
        cases lastAt (·.record.1) l k <;> simp [hk, hk']
    · rw [scopes_closeFor]
      exact List.forall_mem_cons.mpr ⟨hmembers, hsymbols⟩
  · next hkey =>
    refine ⟨?_, ?_, fun k => ?_, ?_⟩
    · rw [scopes_closeFor, hmid, List.length_append, List.length_singleton]
      omega
    · rw [List.map_append, List.length_append, List.length_singleton]
      exact List.perm_append_singleton _ _ |>.trans hscopes
    · rw [scopeAt?_closeFor, h.recorded, scopeAt?_openFor, lastAt_append]
      by_cases hk : key = k
      · subst hk
        simp [hkey]
      · have hk' : ¬ k = key := fun he => hk he.symm
        simp [hk, hk']
    · rw [scopes_closeFor]
      intro x hx
      rcases List.mem_append.mp hx with hx | hx
      · exact hsymbols x hx
      · obtain rfl := List.mem_singleton.mp hx
        exact hmembers

end Pass

/-! ### Running a script opens scopes -/

/-- The pass stands in a scope of the tree, which has grown from that of the program. -/
structure Pass.StandsAt (p : Program) (scope : ScopeId) (st : Pass) : Prop where
  rooted : st.scopes.Rooted
  size : p.scopes.size ≤ st.scopes.size
  lt : scope.index < st.scopes.size

lemma ScopeTree.GrowsAt.standsAt {p : Program} {s scope : ScopeId} {st st' : Pass}
    (hgrow : GrowsAt s st.scopes st'.scopes) (h : Pass.StandsAt p scope st) :
    Pass.StandsAt p scope st' :=
  ⟨hgrow.rooted, h.size.trans hgrow.size, h.lt.trans_le hgrow.size⟩

namespace Script

variable {p : Program} {scope : ScopeId} {st : Pass}

/-- What a script records: the keys in their order, each with the variables entered into its scope.
-/
def log : Script → List Record
  | skip | meet _ | bind _ | enter _ => []
  | seq a b => a.log ++ b.log
  | within key body =>
    if key.isMethod then (key, body.entered) :: body.log else body.log ++ [(key, body.entered)]

@[simp] lemma log_each {α : Type} (f : α → Script) (xs : List α) :
    (each f xs).log = xs.flatMap fun x => (f x).log := by
  induction xs with
  | nil => rfl
  | cons x xs ih => simp [each, log, ih]

@[simp] lemma log_expr (e : ExprId) : (expr p e).log = [] := by
  have h : ∀ depth e, (exprWithin p depth e).log = [] := by
    intro depth
    induction depth with
    | zero => exact fun _ => rfl
    | succ depth ih =>
      intro e
      simp [exprWithin, log, ih]
  exact h _ e

@[simp] lemma log_exprs (es : List ExprId) : (exprs p es).log = [] := by
  simp [exprs]

@[simp] lemma log_value (v : SymbolId) : (value p v).log = [] := log_exprs _

lemma mem_log_within {key : ScopeKey} {body : Script} {x : Record} :
    x ∈ (within key body).log ↔ x = (key, body.entered) ∨ x ∈ body.log := by
  rw [log]
  split
  · exact List.mem_cons
  · rw [List.mem_append, List.mem_singleton, or_comm]

lemma grows_run (c : Script) (h : Pass.StandsAt p scope st) :
    ScopeTree.GrowsAt scope st.scopes (c.run p scope st).scopes :=
  (Pass.stackAt_run c h.rooted h.lt).2

lemma standsAt_run (c : Script) (h : Pass.StandsAt p scope st) :
    Pass.StandsAt p scope (c.run p scope st) :=
  (grows_run c h).standsAt h

lemma standsAt_openFor (h : Pass.StandsAt p scope st) (key : ScopeKey) :
    Pass.StandsAt p ⟨st.scopes.size⟩ (st.openFor scope key) := by
  have hsize : (st.openFor scope key).scopes.size = st.scopes.size + 1 := by
    rw [Pass.scopes_openFor, ScopeTree.size_addChild]
  have hle := h.size
  refine ⟨?_, by omega, ?_⟩
  · rw [Pass.scopes_openFor]
    exact h.rooted.addChild h.lt _
  · rw [hsize]
    exact Nat.lt_succ_self _

/-- The scopes that were there before are left alone in a scope opened anew. -/
lemma scope?_run_openFor (body : Script) (key : ScopeKey) (h : Pass.StandsAt p scope st)
    {r : ScopeId}
    (hr : r.index < st.scopes.size) :
    (body.run p ⟨st.scopes.size⟩ (st.openFor scope key)).scopes.scope? r = st.scopes.scope? r := by
  have hgrow := grows_run body (standsAt_openFor h key)
  rw [Pass.scopes_openFor] at hgrow
  rw [hgrow.other r (by rw [ScopeTree.size_addChild]; omega) (by rintro rfl; simp at hr),
    ScopeTree.scope?_addChild_of_lt scope key.kind hr]

lemma journal_prefix_run (c : Script) (scope : ScopeId) (st : Pass) :
    st.journal.toList <+: (c.run p scope st).journal.toList := by
  induction c generalizing scope st with
  | skip => exact List.prefix_refl _
  | seq a b iha ihb => exact (iha scope st).trans (ihb scope _)
  | meet e => simp [run, Pass.note]
  | bind e =>
    obtain ⟨_, _, -, h⟩ | ⟨_, _, _, -, h⟩ | ⟨-, h⟩ := Pass.bindOwn_cases p scope st e <;>
      simp [run, h]
  | enter v =>
    obtain ⟨-, h⟩ | ⟨sym, -, ⟨t, ht, h⟩ | ⟨w, -, h⟩⟩ := Pass.declare_cases p scope st v <;>
      simp [run, h, Pass.note]
  | within key body ih => simpa [run] using ih ⟨st.scopes.size⟩ (st.openFor scope key)

/-- Without faults, a script enters its variables into the scope in which it is run. -/
lemma symbols_run (c : Script) (h : Pass.StandsAt p scope st)
    (hfault : ∀ x ∈ (c.run p scope st).journal.toList, x.fault? = none)
    (hsymbol : ∀ v ∈ c.entered, (p.symbol? v).isSome) :
    (c.run p scope st).scopes.symbols scope = st.scopes.symbols scope ++ c.entered := by
  induction c generalizing scope st with
  | skip => simp [run, entered]
  | seq a b iha ihb =>
    have ha := iha h (fun x hx => hfault x ((journal_prefix_run b scope _).subset hx))
      fun v hv => hsymbol v (List.mem_append_left _ hv)
    have hb := ihb (standsAt_run a h) hfault fun v hv => hsymbol v (List.mem_append_right _ hv)
    rw [run, hb, ha, entered, List.append_assoc]
  | meet e => simp [run, entered, Pass.note]
  | bind e =>
    obtain ⟨_, _, -, hrun⟩ | ⟨_, _, _, -, hrun⟩ | ⟨-, hrun⟩ := Pass.bindOwn_cases p scope st e <;>
      simp [run, hrun, entered]
  | enter v =>
    obtain ⟨hv, -⟩ | ⟨sym, -, ⟨t, ht, hrun⟩ | ⟨w, -, hrun⟩⟩ := Pass.declare_cases p scope st v
    · simp [entered, hv] at hsymbol
    · rw [run, hrun, ScopeTree.symbols_add ht h.lt, if_pos rfl, entered]
    · have hin : Entry.fault ⟨.build (p.duplicate sym.name sym.line w), sym.line, []⟩ ∈
          ((enter v).run p scope st).journal.toList := by
        simp [run, hrun, Pass.note]
      have hnone := hfault _ hin
      simp [Entry.fault?] at hnone
  | within key body ih =>
    rw [run, Pass.scopes_closeFor, entered, List.append_nil]
    unfold ScopeTree.symbols
    rw [scope?_run_openFor body key h h.lt]

/-- **Records of a run**. Without faults, running a script opens the scopes that it is to open. -/
theorem run_opens (c : Script) (h : Pass.StandsAt p scope st)
    (hfault : ∀ x ∈ (c.run p scope st).journal.toList, x.fault? = none)
    (hsymbol : ∀ x ∈ c.log, ∀ v ∈ x.2, (p.symbol? v).isSome) :
    ∃ l : List Opening, l.map (·.record) = c.log ∧
      Pass.Opens l st (c.run p scope st) := by
  induction c generalizing scope st with
  | skip => exact ⟨[], rfl, .nil rfl fun _ => rfl⟩
  | seq a b iha ihb =>
    obtain ⟨la, hla, ha⟩ := iha h (fun x hx => hfault x ((journal_prefix_run b scope _).subset hx))
      fun x hx => hsymbol x (List.mem_append_left _ hx)
    have hmid := standsAt_run a h
    obtain ⟨lb, hlb, hb⟩ := ihb hmid hfault fun x hx => hsymbol x (List.mem_append_right _ hx)
    refine ⟨la ++ lb, by rw [List.map_append, hla, hlb, log], ha.append hb fun r hge hlt => ?_⟩
    refine (grows_run b hmid).other r hlt ?_
    rintro rfl
    have hlt := h.lt
    omega
  | meet e => exact ⟨[], rfl, .nil rfl fun key => by cases key <;> rfl⟩
  | bind e =>
    refine ⟨[], rfl, .nil ?_ (Pass.scopeAt?_bindOwn st p scope e)⟩
    obtain ⟨_, _, -, hrun⟩ | ⟨_, _, _, -, hrun⟩ | ⟨-, hrun⟩ := Pass.bindOwn_cases p scope st e <;>
      simp [run, hrun]
  | enter v =>
    refine ⟨[], rfl, .nil ?_ (Pass.scopeAt?_declare st p scope v)⟩
    obtain ⟨-, hrun⟩ | ⟨sym, -, ⟨t, ht, hrun⟩ | ⟨w, -, hrun⟩⟩ := Pass.declare_cases p scope st v
    · rw [run, hrun]
    · rw [run, hrun, ScopeTree.size_add ht]
    · rw [run, hrun]
      rfl
  | within key body ih =>
    have hopened := standsAt_openFor h key
    have hfault' : ∀ x ∈ (body.run p ⟨st.scopes.size⟩ (st.openFor scope key)).journal.toList,
        x.fault? = none := by
      simpa [run] using hfault
    obtain ⟨l, hl, hopens⟩ :=
      ih hopened hfault' fun x hx => hsymbol x (mem_log_within.mpr (.inr hx))
    have hmembers := symbols_run body hopened hfault'
      (hsymbol _ (mem_log_within.mpr (.inl rfl)))
    have hempty : (st.openFor scope key).scopes.symbols ⟨st.scopes.size⟩ = [] := by
      rw [Pass.scopes_openFor]
      unfold ScopeTree.symbols
      rw [ScopeTree.scope?_addChild, if_pos rfl]
      rfl
    rw [hempty, List.nil_append] at hmembers
    refine ⟨_, ?_, hopens.around hmembers⟩
    rw [log, ← hl]
    split <;> simp

lemma journal_prefix_runAll (scripts : List (ScopeId × Script)) (st : Pass) :
    st.journal.toList <+: (runAll p scripts st).journal.toList := by
  induction scripts generalizing st with
  | nil => exact List.prefix_refl _
  | cons x xs ih => exact (journal_prefix_run x.2 x.1 st).trans (ih _)

/-- Scripts that are run in scopes of the program leave alone what was opened before. -/
lemma scope?_runAll {scripts : List (ScopeId × Script)}
    (hscripts : ∀ x ∈ scripts, x.1.index < p.scopes.size) (h : Pass.StandsAt p ScopeTree.global st)
    {r : ScopeId} (hge : p.scopes.size ≤ r.index) (hlt : r.index < st.scopes.size) :
    (runAll p scripts st).scopes.scope? r = st.scopes.scope? r := by
  induction scripts generalizing st with
  | nil => rfl
  | cons x xs ih =>
    have hx := hscripts x (by simp)
    have hstands : Pass.StandsAt p x.1 st := ⟨h.rooted, h.size, hx.trans_le h.size⟩
    have hgrow := grows_run x.2 hstands
    rw [runAll_cons, ih (fun y hy => hscripts y (by simp [hy])) (hgrow.standsAt h)
      (hlt.trans_le hgrow.size), hgrow.other r hlt (by rintro rfl; omega)]

lemma runAll_opens {scripts : List (ScopeId × Script)}
    (hscripts : ∀ x ∈ scripts, x.1.index < p.scopes.size) (h : Pass.StandsAt p ScopeTree.global st)
    (hfault : ∀ x ∈ (runAll p scripts st).journal.toList, x.fault? = none)
    (hsymbol : ∀ x ∈ scripts, ∀ y ∈ x.2.log, ∀ v ∈ y.2, (p.symbol? v).isSome) :
    ∃ l : List Opening, l.map (·.record) = scripts.flatMap (·.2.log) ∧
      Pass.Opens l st (runAll p scripts st) := by
  induction scripts generalizing st with
  | nil => exact ⟨[], rfl, .nil rfl fun _ => rfl⟩
  | cons x xs ih =>
    have hx : Pass.StandsAt p x.1 st :=
      ⟨h.rooted, h.size, (hscripts x (by simp)).trans_le h.size⟩
    have hgrow := grows_run x.2 hx
    have hxs : ∀ y ∈ xs, y.1.index < p.scopes.size := fun y hy => hscripts y (by simp [hy])
    obtain ⟨l, hl, hopens⟩ := run_opens x.2 hx
      (fun y hy => hfault y ((journal_prefix_runAll xs _).subset hy)) (hsymbol x (by simp))
    obtain ⟨l', hl', hopens'⟩ :=
      ih hxs (hgrow.standsAt h) hfault fun y hy => hsymbol y (by simp [hy])
    refine ⟨l ++ l', by rw [List.map_append, hl, hl', List.flatMap_cons],
      hopens.append hopens' fun r hge hlt => ?_⟩
    exact scope?_runAll hxs (hgrow.standsAt h) (h.size.trans hge) hlt

/-- All that is entered anywhere is a symbol. -/
lemma symbol?_of_mem_log (hp : p.Allocated) {x : ScopeId × Script} (hx : x ∈ p.scripts) {y : Record}
    (hy : y ∈ x.2.log) : ∀ v ∈ y.2, (p.symbol? v).isSome := by
  have hsome : ∀ v : SymbolId, v.index < p.symbols.size → (p.symbol? v).isSome :=
    fun v hv => Option.isSome_iff_exists.mpr ⟨_, Array.getElem?_eq_getElem hv⟩
  have hlisted : ∀ v, p.IsListed v → (p.symbol? v).isSome := by
    rintro v (⟨s, x, hs, hv⟩ | ⟨m, sym, hm, hv⟩)
    · exact hsome v ((hp.stmts s x hs).2.2 v (by simp [hv]))
    · exact hsome v ((hp.symbols m sym hm).2.2.2.1 v hv)
  have hcomp : Compositional p fun c =>
      (∀ v ∈ c.entered, (p.symbol? v).isSome) ∧ ∀ y ∈ c.log, ∀ v ∈ y.2, (p.symbol? v).isSome :=
    { skip := by simp [entered, log]
      seq := fun a b ha hb => ⟨List.forall_mem_append.mpr ⟨ha.1, hb.1⟩,
        List.forall_mem_append.mpr ⟨ha.2, hb.2⟩⟩
      enter := fun v hv => by simpa [entered, log] using hlisted v hv
      root := fun e _ => by simp
      within := fun key body hbody => ⟨by simp [entered], fun y hy => by
        rcases mem_log_within.mp hy with rfl | hy
        · exact hbody.1
        · exact hbody.2 y hy⟩ }
  exact (hcomp.of_mem_scripts hx).2 y hy

end Script

/-- What the pass records for a program. -/
def Program.log (p : Program) : List Record := p.scripts.flatMap (·.2.log)

/-- The pass stands at the top when it looks at the bodies first. -/
lemma Pass.standsAt_start {p : Program} (hp : p.WellFormed) :
    StandsAt p ScopeTree.global (start p) := by
  obtain ⟨sc, hsc, -⟩ := hp.listed.root
  refine ⟨?_, ?_, ?_⟩
  · simpa using hp.allocated.rooted
  · simp
  · simpa using ScopeTree.lt_of_scope? hsc

/-- **The scopes of the pass**. Without faults, exactly the scopes that the program asks for are
opened, each with the variables that belong into it. -/
theorem Pass.opens_finish {p : Program} (hp : p.WellFormed)
    (hfault : ∀ x ∈ (finish p).journal.toList, x.fault? = none) :
    ∃ l : List Opening, l.map (·.record) = p.log ∧ Opens l (start p) (finish p) :=
  Script.runAll_opens (fun _ hx => hp.listed.lt_of_mem_scripts hx) (standsAt_start hp) hfault
    fun _ hx _ hy => Script.symbol?_of_mem_log hp.allocated hx hy

end NameBinding
