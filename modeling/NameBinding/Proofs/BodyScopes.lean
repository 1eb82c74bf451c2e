import NameBinding.Proofs.ProperTrees
import NameBinding.Proofs.ScopeLayers

/-!
The scopes of bodies and of clauses. Every body of a class at the top has a scope of its own in that
of the class, and every clause of a visited switch has one. Each holds what is declared directly in
it; what stands in deeper scopes neither adds to it nor is recorded in its place.
-/

namespace NameBinding

/-- The class `s` has a body under the name of `v`: that of its constructor, of one of its methods,
or of its destructor, which goes by the class itself. -/
def ClassInfo.HasBody (c : ClassInfo) (s v : SymbolId) : Prop :=
  c.constructor = some v ∨ v ∈ c.methods ∨ v = s ∧ c.destructor.isSome

lemma ClassInfo.HasBody.mem {c : ClassInfo} {s v : SymbolId} (h : c.HasBody s v) :
    v ∈ c.constructor.toList ++ s :: c.methods := by
  rcases h with h | h | ⟨rfl, -⟩ <;> simp [*]

/-! ### Bodies -/

namespace Program

variable {p : Program} {s v : SymbolId} {c : ClassInfo}

/-- Ahead of its statements a body has the parameters, of which only methods have some. -/
lemma parametersOf_of_opener {vs : List SymbolId} (h : p.opener? v = some vs) :
    p.parametersOf v = vs := by
  unfold opener? kind? at h
  unfold parametersOf
  cases hv : p.symbol? v with
  | none => simp [hv] at h
  | some x =>
    obtain ⟨n, line, kind⟩ := x
    cases kind <;> simp_all [Symbol.method?]

lemma hasBody_iff (hp : p.Listed) (hs : s ∈ p.classes) (hc : p.class? s = some c) :
    c.HasBody s v ↔ v ∈ c.constructor.toList ++ s :: c.methods ∧ (p.opener? v).isSome := by
  have hlists := hp.lists hs hc
  have hkind := class?_eq_some.mp hc
  constructor
  · intro h
    refine ⟨h.mem, ?_⟩
    rcases h with h | h | ⟨rfl, h⟩
    · obtain ⟨m, hm⟩ := hlists.constructor v (by simp [h])
      simp [opener?, hm]
    · obtain ⟨m, hm⟩ := hlists.methods v h
      simp [opener?, hm]
    · simpa [opener?, hkind] using h
  · rintro ⟨hmem, hopener⟩
    rcases List.mem_append.mp hmem with h | h
    · exact .inl (by simpa using h)
    · rcases List.mem_cons.mp h with rfl | h
      · exact .inr (.inr ⟨rfl, by simpa [opener?, hkind] using hopener⟩)
      · exact .inr (.inl h)

lemma mem_bodyOwners {v : SymbolId} : v ∈ p.bodyOwners ↔
    ∃ s ∈ p.classes, ∃ c, p.class? s = some c ∧ v ∈ c.constructor.toList ++ s :: c.methods := by
  unfold bodyOwners
  rw [List.mem_flatMap]
  refine exists_congr fun s => and_congr_right fun _ => ?_
  cases p.class? s <;> simp

/-- The scope holds the members of the class that has a body for `v`. -/
def OwnsBody (p : Program) (q : ScopeId) (v : SymbolId) : Prop :=
  ∃ s ∈ p.classes, ∃ c, p.class? s = some c ∧ v ∈ c.constructor.toList ++ s :: c.methods ∧
    c.scope = q

/-- No two classes have a body for the same symbol. -/
lemma OwnsBody.scope_eq (hp : p.Listed) {q : ScopeId} (h : p.OwnsBody q v) (hs : s ∈ p.classes)
    (hc : p.class? s = some c) (hv : v ∈ c.constructor.toList ++ s :: c.methods) :
    c.scope = q := by
  obtain ⟨s', hs', c', hc', hv', rfl⟩ := h
  obtain rfl : s = s' := eq_of_mem_flatMap hp.bodyOwners_nodup hs hs' (by simpa [hc] using hv)
    (by simpa [hc'] using hv')
  obtain rfl := Option.some.inj (hc.symm.trans hc')
  rfl

/-! ### Records of bodies and of clauses -/

lemma record_of_method (hp : p.WellFormed) {x : Record} (hx : x ∈ p.log) (hkey : x.1 = .method v) :
    v ∈ p.bodyOwners ∧ (p.opener? v).isSome ∧
      x.2 = p.parametersOf v ++ p.declared (p.stmtsOf v) := by
  rcases (mem_log hp).mp hx with ⟨w, hw, vs, hvs, rfl⟩ | ⟨t, -, hx⟩
  · obtain rfl : w = v := by simpa using hkey
    exact ⟨hw, by simp [hvs], by rw [parametersOf_of_opener hvs]⟩
  · rcases mem_records.mp hx with ⟨y, -, hown⟩ | ⟨c, -, -, rfl⟩
    · have hstmt := (key_of_mem_ownRecords hown).1
      simp [hkey, ScopeKey.stmt?] at hstmt
    · simp at hkey

lemma method_mem_log (hp : p.WellFormed) (hs : s ∈ p.classes) (hc : p.class? s = some c)
    (hv : c.HasBody s v) :
    (ScopeKey.method v, p.parametersOf v ++ p.declared (p.stmtsOf v)) ∈ p.log := by
  obtain ⟨hmem, hopener⟩ := (hasBody_iff hp.listed hs hc).mp hv
  obtain ⟨vs, hvs⟩ := Option.isSome_iff_exists.mp hopener
  refine (mem_log hp).mpr (.inl ⟨v, mem_bodyOwners.mpr ⟨s, hs, c, hc, hmem⟩, vs, hvs, ?_⟩)
  rw [parametersOf_of_opener hvs]

lemma exists_record_method_iff (hp : p.WellFormed) : (∃ x ∈ p.log, x.1 = .method v) ↔
    ∃ s ∈ p.classes, ∃ c, p.class? s = some c ∧ c.HasBody s v := by
  constructor
  · rintro ⟨x, hx, hkey⟩
    obtain ⟨howner, hopener, -⟩ := record_of_method hp hx hkey
    obtain ⟨s, hs, c, hc, hmem⟩ := mem_bodyOwners.mp howner
    exact ⟨s, hs, c, hc, (hasBody_iff hp.listed hs hc).mpr ⟨hmem, hopener⟩⟩
  · rintro ⟨s, hs, c, hc, hv⟩
    exact ⟨_, method_mem_log hp hs hc hv, rfl⟩

/-- Only a switch has clauses. -/
lemma switch_of_mem_ownRecords {t : StmtId} {y : Stmt} {x : Record} {k : SwitchClause}
    (h : x ∈ p.ownRecords t y) (hkey : x.1 = .clause t k) :
    ∃ value cases d line body, y = .switch value cases d line ∧
      (k, body) ∈ switchClauses cases d ∧ x.2 = p.declared body := by
  cases y with
  | switch value cases d line =>
    obtain ⟨⟨k', body⟩, hmem, rfl⟩ := List.mem_map.mp h
    obtain rfl : k' = k := by simpa using hkey
    exact ⟨value, cases, d, line, body, rfl, hmem, rfl⟩
  | block b | forLoop init cond advance body line =>
    rw [List.mem_singleton.mp h] at hkey
    simp at hkey
  | _ => simp [ownRecords] at h

lemma record_of_clause (hp : p.WellFormed) {t : StmtId} {k : SwitchClause} {x : Record}
    (hx : x ∈ p.log) (hkey : x.1 = .clause t k) :
    p.Visited t ∧ ∃ value cases d line body, p.stmt? t = some (.switch value cases d line) ∧
      (k, body) ∈ switchClauses cases d ∧ x.2 = p.declared body := by
  rcases (mem_log hp).mp hx with ⟨w, -, vs, -, rfl⟩ | ⟨u, hu, hx⟩
  · simp at hkey
  · rcases mem_records.mp hx with ⟨y, hy, hown⟩ | ⟨c, -, -, rfl⟩
    · have hstmt := (key_of_mem_ownRecords hown).1
      obtain rfl : t = u := by simpa [hkey, ScopeKey.stmt?] using hstmt
      obtain ⟨value, cases, d, line, body, rfl, hmem, hdeclared⟩ :=
        switch_of_mem_ownRecords hown hkey
      exact ⟨hu, value, cases, d, line, body, hy, hmem, hdeclared⟩
    · simp at hkey

lemma case_mem_switchClauses {cases : List Case} {d : Option (List StmtId)} {i : Nat}
    {body : List StmtId} :
    (.case i, body) ∈ switchClauses cases d ↔ ∃ c, cases[i]? = some c ∧ c.body = body := by
  simp [switchClauses, List.mem_zipIdx_iff_getElem?]

lemma default_mem_switchClauses {cases : List Case} {d : Option (List StmtId)}
    {body : List StmtId} : (.default, body) ∈ switchClauses cases d ↔ d = some body := by
  simp [switchClauses]

lemma exists_case_iff {cases : List Case} {d : Option (List StmtId)} {i : Nat} :
    (∃ body, (.case i, body) ∈ switchClauses cases d) ↔ i < cases.length := by
  simp [case_mem_switchClauses, ← Option.isSome_iff_exists]

lemma exists_default_iff {cases : List Case} {d : Option (List StmtId)} :
    (∃ body, (.default, body) ∈ switchClauses cases d) ↔ d.isSome := by
  simp [default_mem_switchClauses, Option.isSome_iff_exists]

/-- A clause has one body. -/
lemma eq_of_mem_switchClauses {cases : List Case} {d : Option (List StmtId)} {k : SwitchClause}
    {body body' : List StmtId} (h : (k, body) ∈ switchClauses cases d)
    (h' : (k, body') ∈ switchClauses cases d) : body = body' := by
  cases k with
  | case i =>
    obtain ⟨c, hc, rfl⟩ := case_mem_switchClauses.mp h
    obtain ⟨c', hc', rfl⟩ := case_mem_switchClauses.mp h'
    rw [Option.some.inj (hc.symm.trans hc')]
  | default =>
    exact Option.some.inj ((default_mem_switchClauses.mp h).symm.trans
      (default_mem_switchClauses.mp h'))

section Clauses

variable {t : StmtId} {value : ExprId} {cases : List Case} {d : Option (List StmtId)} {line : Line}
  {k : SwitchClause} {body : List StmtId}

lemma clause_mem_log (hp : p.WellFormed) (ht : p.Visited t)
    (hswitch : p.stmt? t = some (.switch value cases d line))
    (hbody : (k, body) ∈ switchClauses cases d) :
    (ScopeKey.clause t k, p.declared body) ∈ p.log :=
  ownRecords_subset hp ht hswitch (List.mem_map.mpr ⟨(k, body), hbody, rfl⟩)

lemma exists_record_clause_iff (hp : p.WellFormed) : (∃ x ∈ p.log, x.1 = .clause t k) ↔
    p.Visited t ∧ ∃ value cases d line, p.stmt? t = some (.switch value cases d line) ∧
      ∃ body, (k, body) ∈ switchClauses cases d := by
  constructor
  · rintro ⟨x, hx, hkey⟩
    obtain ⟨ht, value, cases, d, line, body, hswitch, hbody, -⟩ := record_of_clause hp hx hkey
    exact ⟨ht, value, cases, d, line, hswitch, body, hbody⟩
  · rintro ⟨ht, value, cases, d, line, hswitch, body, hbody⟩
    exact ⟨_, clause_mem_log hp ht hswitch hbody, rfl⟩

end Clauses

end Program

/-! ### Where the scopes of bodies stand -/

namespace Script

variable {p : Program} {st : Pass}

/-- No script changes what introduced a scope or where it stands. -/
lemma becomes_run (c : Script) (scope : ScopeId) {s : ScopeId} {sc : Scope}
    (h : st.scopes.scope? s = some sc) :
    ∃ sc', (c.run p scope st).scopes.scope? s = some sc' ∧ sc.Becomes sc' := by
  induction c generalizing scope st sc with
  | skip | meet e => exact ⟨sc, h, .refl sc⟩
  | seq a b iha ihb =>
    obtain ⟨mid, hmid, hbecomes⟩ := iha scope h
    obtain ⟨sc', hsc', hbecomes'⟩ := ihb scope hmid
    exact ⟨sc', hsc', hbecomes.trans hbecomes'⟩
  | bind e => exact ⟨sc, by simpa [run] using h, .refl sc⟩
  | enter v =>
    rw [run]
    obtain ⟨-, hrun⟩ | ⟨sym, -, ⟨t, ht, hrun⟩ | ⟨w, -, hrun⟩⟩ := Pass.declare_cases p scope st v
    · exact ⟨sc, by rw [hrun, h], .refl sc⟩
    · rw [hrun]
      exact ScopeTree.becomes_add ht h
    · exact ⟨sc, by rw [hrun]; exact h, .refl sc⟩
  | within key body ih =>
    rw [run, Pass.scopes_closeFor]
    refine ih ⟨st.scopes.size⟩ ?_
    rw [Pass.scopes_openFor, ScopeTree.scope?_addChild_of_lt scope key.kind
      (ScopeTree.lt_of_scope? h), h]

/-- Blocks and clauses are not recorded as methods. -/
lemma scopeAt?_run_blocks (c : Script) (hc : c.OnlyBlocks) (scope : ScopeId) (v : SymbolId) :
    (c.run p scope st).scopeAt? (.method v) = st.scopeAt? (.method v) := by
  induction c generalizing scope st with
  | skip => rfl
  | meet e => rfl
  | seq a b iha ihb => rw [run, ihb hc.2, iha hc.1]
  | bind e => exact Pass.scopeAt?_bindOwn st p scope e _
  | enter w => exact Pass.scopeAt?_declare st p scope w _
  | within key body ih =>
    obtain ⟨hkey, hbody⟩ := hc
    have hne : ScopeKey.method v ≠ key := by
      rintro rfl
      simp [ScopeKey.isMethod] at hkey
    rw [run, Pass.scopeAt?_closeFor, if_neg fun h => hne h.1, ih hbody, Pass.scopeAt?_openFor,
      if_neg fun h => hne h.1]

end Script

namespace Pass

variable {p : Program} {st st' : Pass} {scope : ScopeId}

/-- What is recorded as the scope of a body was opened for that body, in the scope of its class. -/
def BodiesOwned (p : Program) (st : Pass) : Prop :=
  ∀ v s, st.scopeAt? (.method v) = some s → ∃ sc q, st.scopes.scope? s = some sc ∧
    sc.kind = .method v ∧ sc.parent = some q ∧ p.OwnsBody q v

/-- Scopes that only get more entries stay what they are. -/
lemma BodiesOwned.of_becomes (h : BodiesOwned p st)
    (hscopes : ∀ s sc, st.scopes.scope? s = some sc →
      ∃ sc', st'.scopes.scope? s = some sc' ∧ sc.Becomes sc')
    (hrecorded : ∀ v, st'.scopeAt? (.method v) = st.scopeAt? (.method v)) : BodiesOwned p st' := by
  intro v s hs
  rw [hrecorded] at hs
  obtain ⟨sc, q, hsc, hkind, hparent, hq⟩ := h v s hs
  obtain ⟨sc', hsc', hbecomes⟩ := hscopes s sc hsc
  exact ⟨sc', q, hsc', hbecomes.kind.trans hkind, hbecomes.parent.trans hparent, hq⟩

lemma BodiesOwned.openFor (h : BodiesOwned p st) {v : SymbolId} (hv : p.OwnsBody scope v) :
    BodiesOwned p (st.openFor scope (.method v)) := by
  intro w s hs
  rw [scopeAt?_openFor] at hs
  rw [scopes_openFor, ScopeTree.scope?_addChild]
  split at hs
  · next heq =>
    obtain rfl : w = v := by simpa using heq.1
    obtain rfl := Option.some.inj hs
    exact ⟨_, scope, if_pos rfl, rfl, rfl, hv⟩
  · obtain ⟨sc, q, hsc, hrest⟩ := h w s hs
    refine ⟨sc, q, ?_, hrest⟩
    rw [if_neg (ScopeTree.lt_of_scope? hsc).ne, hsc]

/-- A script that opens scopes of methods where they belong. -/
lemma BodiesOwned.run (h : BodiesOwned p st) (c : Script) (hc : c.OnlyMethods)
    (hown : ∀ x ∈ c.log, ∀ v, x.1 = .method v → p.OwnsBody scope v) :
    BodiesOwned p (c.run p scope st) := by
  induction c generalizing st with
  | skip => exact h
  | meet e => exact h.of_becomes (fun _ sc hs => ⟨sc, hs, .refl sc⟩) fun _ => rfl
  | seq a b iha ihb =>
    exact ihb (iha h hc.1 fun x hx => hown x (List.mem_append_left _ hx)) hc.2
      fun x hx => hown x (List.mem_append_right _ hx)
  | bind e =>
    exact h.of_becomes (fun _ _ => Script.becomes_run (.bind e) scope) fun _ =>
      scopeAt?_bindOwn st p scope e _
  | enter v => exact hc.elim
  | within key body _ =>
    cases key with
    | method v =>
      have hv := hown _ (Script.mem_log_within.mpr (.inl rfl)) v rfl
      exact (h.openFor hv).of_becomes (fun _ _ => Script.becomes_run body _)
        (Script.scopeAt?_run_blocks body hc.2 _)
    | block _ | clause _ _ => simp [Script.OnlyMethods, ScopeKey.isMethod] at hc

/-- Every script opens scopes for the bodies of the class that it belongs to. -/
lemma ownsBody_of_mem_scripts (hp : p.WellFormed) {x : ScopeId × Script} (hx : x ∈ p.scripts) :
    x.2.OnlyMethods ∧ ∀ y ∈ x.2.log, ∀ v, y.1 = .method v → p.OwnsBody x.1 v := by
  obtain ⟨s, hs, c, hc, rfl⟩ | ⟨s, -, t, -, rfl⟩ := Program.scripts_cases hx
  · refine ⟨Script.onlyMethods_classType s c, fun y hy v hkey => ⟨s, hs, c, hc, ?_, rfl⟩⟩
    rw [Program.log_classType hp hs hc] at hy
    obtain ⟨w, hw, hy⟩ := List.mem_flatMap.mp hy
    rcases Program.key_of_mem_bodyLog hp.allocated (List.mem_map.mpr ⟨y, hy, hkey⟩) with
      heq | ⟨_, -, _, hstmt, -⟩
    · obtain rfl : v = w := by simpa using heq
      exact hw
    · simp [ScopeKey.stmt?] at hstmt
  · exact ⟨Script.onlyMethods_of_log (Program.log_enumType t) (by simp [Script.enumType]),
      by simp [Program.log_enumType t]⟩

lemma bodiesOwned_runAll {scripts : List (ScopeId × Script)} (h : BodiesOwned p st)
    (hscripts : ∀ x ∈ scripts,
      x.2.OnlyMethods ∧ ∀ y ∈ x.2.log, ∀ v, y.1 = .method v → p.OwnsBody x.1 v) :
    BodiesOwned p (Script.runAll p scripts st) := by
  induction scripts generalizing st with
  | nil => exact h
  | cons x xs ih =>
    obtain ⟨hx, hxs⟩ := List.forall_mem_cons.mp hscripts
    exact ih (h.run x.2 hx.1 hx.2) hxs

lemma bodiesOwned_finish (hp : p.WellFormed) : BodiesOwned p (finish p) := by
  refine bodiesOwned_runAll (fun v s hs => ?_) fun x hx => ownsBody_of_mem_scripts hp hx
  rw [scopeAt?, (onlyBases_start p).bindings] at hs
  simp at hs

end Pass

/-! ### Scopes of the result -/

variable {p : Program} {o : Options} {r : BoundProgram}

/-- The scope of a body stands in that of its class. -/
lemma methodScope_of_resolve (hp : p.WellFormed) (hr : p.resolve o = .ok r) {s v : SymbolId}
    {c : ClassInfo} (hs : s ∈ p.classes) (hc : p.class? s = some c) (hv : c.HasBody s v)
    {sc : ScopeId} (hsc : r.methodScope? v = some sc) :
    ∃ x, r.program.scopes.scope? sc = some x ∧ x.kind = .method v ∧ x.parent = some c.scope := by
  have hfinish : (Pass.finish p).scopeAt? (.method v) = some sc :=
    (scopeAt?_of_resolve hr (.method v)).symm.trans hsc
  obtain ⟨x, q, hx, hkind, hparent, hq⟩ := Pass.bodiesOwned_finish hp v sc hfinish
  refine ⟨x, by rw [scopes_of_resolve hr, hx], hkind, ?_⟩
  rw [hparent, hq.scope_eq hp.listed hs hc hv.mem]

namespace BoundProgram.Opened

variable {l : List Opening} (h : r.Opened p l)
include h

lemma exists_methodScope (hp : p.WellFormed) {s v : SymbolId} {c : ClassInfo} (hs : s ∈ p.classes)
    (hc : p.class? s = some c) (hv : c.HasBody s v) :
    ∃ sc, r.methodScope? v = some sc ∧
      r.program.members sc = p.parametersOf v ++ p.declared (p.stmtsOf v) :=
  h.exists_scope_of_forall (Program.method_mem_log hp hs hc hv) fun _ hy hkey =>
    (Program.record_of_method hp hy hkey).2.2

lemma exists_clauseScope (hp : p.WellFormed) {t : StmtId} {value : ExprId} {cases : List Case}
    {d : Option (List StmtId)} {line : Line} {k : SwitchClause} {body : List StmtId}
    (ht : p.Visited t) (hswitch : p.stmt? t = some (.switch value cases d line))
    (hbody : (k, body) ∈ switchClauses cases d) :
    ∃ sc, r.clauseScope? t k = some sc ∧ r.program.members sc = p.declared body := by
  refine h.exists_scope_of_forall (Program.clause_mem_log hp ht hswitch hbody) fun y hy hkey => ?_
  obtain ⟨-, _, _, _, _, body', hswitch', hbody', hy⟩ := Program.record_of_clause hp hy hkey
  obtain ⟨-, rfl, rfl, -⟩ : _ ∧ _ ∧ _ ∧ _ := by simpa using hswitch.symm.trans hswitch'
  rw [hy, Program.eq_of_mem_switchClauses hbody' hbody]

end BoundProgram.Opened

/-- **Scopes mirror the syntax**. A symbol has a scope for its body exactly if it is a constructor
or a method of a class at the top, or such a class with a destructor. That scope stands in the one
of the class, and holds the parameters and then the variables that the body declares directly.
Exactly the clauses of visited switches have scopes, also an empty `default`, and each holds the
variables that are declared directly in its body. -/
theorem body_scopes_mirror_syntax (hp : p.Built) (hr : p.resolve o = .ok r) :
    (∀ v, (r.methodScope? v).isSome ↔
      ∃ s ∈ p.classes, ∃ c, p.class? s = some c ∧ c.HasBody s v) ∧
    (∀ s ∈ p.classes, ∀ c v, p.class? s = some c → c.HasBody s v →
      ∃ sc x, r.methodScope? v = some sc ∧ r.program.scopes.scope? sc = some x ∧
        x.kind = .method v ∧ x.parent = some c.scope ∧
        r.program.members sc = p.parametersOf v ++ (p.stmtsOf v).filterMap p.declares?) ∧
    (∀ t i, (r.clauseScope? t (.case i)).isSome ↔ p.Visited t ∧
      ∃ value cases d line, p.stmt? t = some (.switch value cases d line) ∧ i < cases.length) ∧
    (∀ t, (r.clauseScope? t .default).isSome ↔ p.Visited t ∧
      ∃ value cases d line, p.stmt? t = some (.switch value cases d line) ∧ d.isSome) ∧
    ∀ t value cases d line, p.Visited t → p.stmt? t = some (.switch value cases d line) →
      (∀ i c, cases[i]? = some c → ∃ sc, r.clauseScope? t (.case i) = some sc ∧
        r.program.members sc = c.body.filterMap p.declares?) ∧
      ∀ body, d = some body → ∃ sc, r.clauseScope? t .default = some sc ∧
        r.program.members sc = body.filterMap p.declares? := by
  have hwf := hp.wellFormed
  obtain ⟨l, hl⟩ := exists_opened hwf hr
  refine ⟨fun v => ?_, fun s hs c v hc hv => ?_, fun t i => ?_, fun t => ?_,
    fun t value cases d line ht hswitch => ⟨fun i c hi => ?_, fun body hd => ?_⟩⟩
  · exact (hl.isSome_iff (.method v)).trans (Program.exists_record_method_iff hwf)
  · obtain ⟨sc, hsc, hmembers⟩ := hl.exists_methodScope hwf hs hc hv
    obtain ⟨x, hx, hkind, hparent⟩ := methodScope_of_resolve hwf hr hs hc hv hsc
    exact ⟨sc, x, hsc, hx, hkind, hparent, hmembers⟩
  · refine (hl.isSome_iff (.clause t (.case i))).trans ?_
    simp only [Program.exists_record_clause_iff hwf, Program.exists_case_iff]
  · refine (hl.isSome_iff (.clause t .default)).trans ?_
    simp only [Program.exists_record_clause_iff hwf, Program.exists_default_iff]
  · exact hl.exists_clauseScope hwf ht hswitch (Program.case_mem_switchClauses.mpr ⟨c, hi, rfl⟩)
  · exact hl.exists_clauseScope hwf ht hswitch (Program.default_mem_switchClauses.mpr hd)

open Operation in
/-- A method with the parameter `a` that is a switch: `x` is declared in its case, `y` in a block
there, and the `default` is empty. The destructor declares `z`. -/
def switchingSteps : List Operation :=
  [declareClass "C" ⟨1⟩ {}, intern "m", addExpr (.literal (.bool true) ⟨3⟩),
    addExpr (.ident (.free ⟨2⟩) ⟨2⟩), addVar "a" ⟨2⟩ ⟨⟨1⟩, none⟩,
    addExpr (.ident (.free ⟨2⟩) ⟨4⟩), addVar "x" ⟨4⟩ ⟨⟨2⟩, none⟩, addStmt (.var ⟨9⟩ ⟨4⟩),
    addExpr (.ident (.free ⟨2⟩) ⟨5⟩), addVar "y" ⟨5⟩ ⟨⟨3⟩, none⟩, addStmt (.var ⟨10⟩ ⟨5⟩),
    addStmt (.block ⟨[⟨1⟩], ⟨5⟩⟩), addExpr (.literal (.bool true) ⟨4⟩),
    addStmt (.switch ⟨0⟩ [⟨[⟨4⟩], [⟨0⟩, ⟨2⟩], none, ⟨4⟩⟩] (some []) ⟨3⟩),
    declareMember ⟨7⟩ ⟨⟨8⟩, ⟨2⟩, .method ⟨⟨.pub, some ⟨3⟩⟩, none, .normal, false, [⟨8⟩]⟩⟩,
    addExpr (.ident (.free ⟨2⟩) ⟨7⟩), addVar "z" ⟨7⟩ ⟨⟨5⟩, none⟩, addStmt (.var ⟨12⟩ ⟨7⟩),
    defineDestructor ⟨7⟩ ⟨[⟨4⟩], ⟨7⟩⟩]

def switching : Program := (Program.new.build? switchingSteps).getD .new

def switchingResult : BoundProgram :=
  match switching.resolve {} with
  | .ok r => r
  | .error _ => ⟨switching, .empty, .empty, .empty⟩

theorem switching_scopes_mirror_syntax :
    switching.Built ∧ switching.resolve {} = .ok switchingResult ∧
    (∃ sc x, switchingResult.methodScope? ⟨11⟩ = some sc ∧
      switchingResult.program.scopes.scope? sc = some x ∧ x.kind = .method ⟨11⟩ ∧
      x.parent = some ⟨1⟩ ∧ switchingResult.program.members sc = [⟨8⟩]) ∧
    (∃ sc x, switchingResult.methodScope? ⟨7⟩ = some sc ∧
      switchingResult.program.scopes.scope? sc = some x ∧ x.kind = .method ⟨7⟩ ∧
      x.parent = some ⟨1⟩ ∧ switchingResult.program.members sc = [⟨12⟩]) ∧
    (∃ sc, switchingResult.clauseScope? ⟨3⟩ (.case 0) = some sc ∧
      switchingResult.program.members sc = [⟨9⟩]) ∧
    ∃ sc, switchingResult.clauseScope? ⟨3⟩ .default = some sc ∧
      switchingResult.program.members sc = [] := by
  have hsteps : Program.new.build? switchingSteps = some switching := by decide
  have hbuilt : switching.Built := Program.Built.new.build? hsteps
  have hr : switching.resolve {} = .ok switchingResult := by decide
  have hvisited : switching.Visited ⟨3⟩ :=
    .root (by decide : ⟨11⟩ ∈ switching.bodyOwners) (by decide)
  obtain ⟨c, hc, hscope, hmethod, hdestructor⟩ : ∃ c, switching.class? ⟨7⟩ = some c ∧
      c.scope = ⟨1⟩ ∧ ⟨11⟩ ∈ c.methods ∧ c.destructor.isSome := ⟨_, rfl, by decide⟩
  obtain ⟨-, hbodies, -, -, hclauses⟩ := body_scopes_mirror_syntax hbuilt hr
  obtain ⟨hcases, hdefault⟩ := hclauses ⟨3⟩ _ _ _ _ hvisited rfl
  rw [← hscope]
  exact ⟨hbuilt, hr, hbodies ⟨7⟩ (by decide) c ⟨11⟩ hc (.inr (.inl hmethod)),
    hbodies ⟨7⟩ (by decide) c ⟨7⟩ hc (.inr (.inr ⟨rfl, hdestructor⟩)), hcases 0 _ rfl,
    hdefault _ rfl⟩

end NameBinding
