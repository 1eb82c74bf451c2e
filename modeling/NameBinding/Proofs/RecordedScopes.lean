import NameBinding.Proofs.RecordKeys
import NameBinding.Proofs.Success
import NameBinding.Proofs.WellFormed.Operations

/-!
The scopes of a result. All of those that resolution opened can be found by a key, but for the
scopes of `for` statements that are branches or bodies of loops; and what is found by the key of a
statement holds the variables of that statement, but for those.
-/

namespace NameBinding

/-- The scope that a result has for a key. -/
def BoundProgram.scopeAt? (r : BoundProgram) : ScopeKey → Option ScopeId
  | .method s => r.methodScope? s
  | .block s => r.blockScope? s
  | .clause s c => r.clauseScope? s c

variable {p : Program} {o : Options} {r : BoundProgram}

/-! ### Records of a program -/

namespace Program

/-- A record under a statement as a block: its own, or that of a branch or a loop body. -/
lemma record_of_block (hp : p.WellFormed) {s : StmtId} {x : Record} (hx : x ∈ p.log)
    (hkey : x.1 = .block s) :
    (∃ y, p.stmt? s = some y ∧ x ∈ p.ownRecords s y) ∨
      p.IsBody s ∧ p.isBlock s = false ∧ x.2 = (p.declares? s).toList := by
  rcases (mem_log hp).mp hx with ⟨v, -, vs, -, rfl⟩ | ⟨t, ht, hx⟩
  · simp at hkey
  · rcases mem_records.mp hx with ⟨y, hy, hown⟩ | ⟨c, hc, hblock, rfl⟩
    · have hstmt := (key_of_mem_ownRecords hown).1
      obtain rfl : s = t := by simpa [hkey, ScopeKey.stmt?] using hstmt
      exact .inl ⟨y, hy, hown⟩
    · obtain rfl : c = s := by simpa using hkey
      exact .inr ⟨⟨t, ht, hc⟩, hblock, rfl⟩

lemma ownRecords_subset (hp : p.WellFormed) {s : StmtId} {y : Stmt} (hs : p.Visited s)
    (hy : p.stmt? s = some y) {x : Record} (hx : x ∈ p.ownRecords s y) : x ∈ p.log :=
  (mem_log hp).mpr (.inr ⟨s, hs, mem_records.mpr (.inl ⟨y, hy, hx⟩)⟩)

lemma exists_var {s : StmtId} {v : SymbolId} (h : p.declares? s = some v) :
    ∃ line, p.stmt? s = some (.var v line) := by
  obtain ⟨x, hx, hv⟩ := Option.bind_eq_some_iff.mp h
  cases x with
  | var w line =>
    obtain rfl : w = v := by simpa [Stmt.declared?] using hv
    exact ⟨line, hx⟩
  | _ => simp [Stmt.declared?] at hv

end Program

/-! ### Scopes of the result -/

/-- The scopes opened on the way to a result, in the order in which they were recorded. -/
structure BoundProgram.Opened (p : Program) (r : BoundProgram) (l : List Opening) : Prop where
  log : l.map (·.record) = p.log
  nodup : (l.map (·.scope)).Nodup
  new : ∀ sc : ScopeId, (∃ x ∈ l, x.scope = sc) ↔
    p.scopes.size ≤ sc.index ∧ sc.index < r.program.scopes.size
  found : ∀ key, r.scopeAt? key = (lastAt (·.record.1) l key).map (·.scope)
  members : ∀ x ∈ l, r.program.members x.scope = x.record.2

lemma scopeAt?_of_resolve (hr : p.resolve o = .ok r) (key : ScopeKey) :
    r.scopeAt? key = (Pass.finish p).scopeAt? key := by
  obtain ⟨-, -, rfl⟩ := Program.resolve_eq_ok_iff.mp hr
  rw [Program.bindings_fst]
  cases key <;> rfl

lemma exists_opened (hp : p.WellFormed) (hr : p.resolve o = .ok r) : ∃ l, r.Opened p l := by
  obtain ⟨l, hl, hopens⟩ := Pass.opens_finish hp (no_fault_of_resolve hr)
  have hscopes := scopes_of_resolve hr
  refine ⟨l, hl, hopens.scopes_nodup, fun sc => ?_, fun key => ?_, fun x hx => ?_⟩
  · rw [hscopes, ← Pass.scopes_start p]
    exact hopens.mem_iff sc.index
  · have hnone : (Pass.start p).scopeAt? key = none := by
      unfold Pass.scopeAt?
      rw [(Pass.onlyBases_start p).bindings]
      cases key <;> rfl
    rw [scopeAt?_of_resolve hr, hopens.recorded, hnone, Option.or_none]
  · rw [Program.members, hscopes]
    exact hopens.members x hx

namespace BoundProgram.Opened

variable {l : List Opening} (h : r.Opened p l)
include h

/-- Every new scope is found by exactly one key if and only if no key was recorded twice. -/
lemma existsUnique_key_iff : (∀ sc : ScopeId, p.scopes.size ≤ sc.index →
      sc.index < r.program.scopes.size → ∃! key, r.scopeAt? key = some sc) ↔
    (p.log.map (·.1)).Nodup := by
  have hinj : ∀ x ∈ l, ∀ y ∈ l, x.scope = y.scope → x = y :=
    fun x hx y hy => List.inj_on_of_nodup_map h.nodup hx hy
  rw [← h.log, List.map_map]
  refine Iff.trans ?_ (lastAt_iff_nodup (.of_map _ h.nodup))
  constructor
  · intro hunique x hx
    obtain ⟨hge, hlt⟩ := (h.new x.scope).mp ⟨x, hx, rfl⟩
    obtain ⟨key, hkey, -⟩ := hunique x.scope hge hlt
    rw [h.found] at hkey
    obtain ⟨y, hy, hscope⟩ := Option.map_eq_some_iff.mp hkey
    obtain ⟨hmem, hrecord⟩ := mem_of_lastAt hy
    obtain rfl := hinj y hmem x hx hscope
    rw [← hrecord] at hy
    exact hy
  · intro hlast sc hge hlt
    obtain ⟨x, hx, rfl⟩ := (h.new sc).mpr ⟨hge, hlt⟩
    have hfound : r.scopeAt? x.record.1 = some x.scope := by
      rw [h.found]
      exact congrArg (Option.map _) (hlast x hx)
    refine ⟨x.record.1, hfound, fun key (hkey : r.scopeAt? key = some x.scope) => ?_⟩
    rw [h.found] at hkey
    obtain ⟨y, hy, hscope⟩ := Option.map_eq_some_iff.mp hkey
    obtain ⟨hmem, hrecord⟩ := mem_of_lastAt hy
    obtain rfl := hinj y hmem x hx hscope
    exact hrecord.symm

/-- There is a scope for a key if one was ever recorded under it. -/
lemma isSome_iff (key : ScopeKey) : (r.scopeAt? key).isSome ↔ ∃ x ∈ p.log, x.1 = key := by
  rw [h.found, Option.isSome_map, Option.isSome_iff_exists, ← h.log]
  constructor
  · rintro ⟨y, hy⟩
    obtain ⟨hmem, hkey⟩ := mem_of_lastAt hy
    exact ⟨y.record, List.mem_map_of_mem hmem, hkey⟩
  · rintro ⟨x, hx, rfl⟩
    obtain ⟨y, hy, rfl⟩ := List.mem_map.mp hx
    exact exists_lastAt (·.record.1) hy

/-- What is found by a key holds the variables of the last record under it. -/
lemma exists_scope {key : ScopeKey} {x : Record} (hx : lastAt (·.1) p.log key = some x) :
    ∃ sc, r.scopeAt? key = some sc ∧ r.program.members sc = x.2 := by
  rw [← h.log, lastAt_map] at hx
  obtain ⟨y, hy, rfl⟩ := Option.map_eq_some_iff.mp hx
  exact ⟨y.scope, by rw [h.found, hy]; rfl, h.members y (mem_of_lastAt hy).1⟩

/-- If a key was recorded, and always with the same variables, its scope holds those. -/
lemma exists_scope_of_forall {x : Record} (hx : x ∈ p.log)
    (hsame : ∀ y ∈ p.log, y.1 = x.1 → y.2 = x.2) :
    ∃ sc, r.scopeAt? x.1 = some sc ∧ r.program.members sc = x.2 := by
  obtain ⟨y, hy⟩ := exists_lastAt (·.1) hx
  obtain ⟨hmem, hkey⟩ := mem_of_lastAt hy
  rw [← hsame y hmem hkey]
  exact h.exists_scope hy

end BoundProgram.Opened

/-- **New scopes are recorded once**. In a result without shared statements, every scope that
resolution opened is found by exactly one key if and only if no `for` is a branch or the body of a
loop. The scope of a block holds the variables declared in it, in their order, and the scope of a
variable that is a branch or a loop body holds just that. The scope of a `for` holds the variable
that it declares first, exactly if the `for` is no branch and no loop body. -/
theorem new_scopes_recorded_once (hp : p.Built) (honce : p.StmtsOnce) (hr : p.resolve o = .ok r) :
    ((∀ sc : ScopeId, p.scopes.size ≤ sc.index → sc.index < r.program.scopes.size →
        ∃! key, r.scopeAt? key = some sc) ↔ ∀ c, p.IsBody c → p.isFor c = false) ∧
    (∀ s b, p.Visited s → p.stmt? s = some (.block b) → ∃ sc, r.blockScope? s = some sc ∧
      r.program.members sc = b.statements.filterMap p.declares?) ∧
    (∀ c v, p.IsBody c → p.declares? c = some v → ∃ sc, r.blockScope? c = some sc ∧
      r.program.members sc = [v]) ∧
    ∀ f init cond advance body line v, p.Visited f →
      p.stmt? f = some (.forLoop (some init) cond advance body line) → p.declares? init = some v →
      ((∃ sc, r.blockScope? f = some sc ∧ v ∈ r.program.members sc) ↔ ¬ p.IsBody f) := by
  have hwf := hp.wellFormed
  obtain ⟨l, hl⟩ := exists_opened hwf hr
  refine ⟨hl.existsUnique_key_iff.trans (honce.keys_nodup_iff hwf), ?_, ?_, ?_⟩
  · intro s b hs hb
    have hown : (ScopeKey.block s, p.declared b.statements) ∈ p.ownRecords s (.block b) :=
      List.mem_singleton.mpr rfl
    refine hl.exists_scope_of_forall (Program.ownRecords_subset hwf hs hb hown) fun y hy hkey => ?_
    rcases Program.record_of_block hwf hy hkey with ⟨x, hx, hmem⟩ | ⟨-, hblock, -⟩
    · obtain rfl := Option.some.inj (hb.symm.trans hx)
      rw [List.mem_singleton.mp hmem]
    · simp [Program.isBlock, hb, Stmt.isBlock] at hblock
  · intro c v hbody hv
    obtain ⟨line, hc⟩ := Program.exists_var hv
    obtain ⟨t, ht, hmem⟩ := hbody
    have hgiven : (ScopeKey.block c, [v]) ∈ p.records t :=
      Program.mem_records.mpr (.inr ⟨c, hmem, by simp [Program.isBlock, hc, Stmt.isBlock],
        by simp [hv]⟩)
    refine hl.exists_scope_of_forall ((Program.mem_log hwf).mpr (.inr ⟨t, ht, hgiven⟩))
      fun y hy hkey => ?_
    rcases Program.record_of_block hwf hy hkey with ⟨x, hx, hown⟩ | ⟨-, -, hmembers⟩
    · obtain rfl := Option.some.inj (hc.symm.trans hx)
      simp [Program.ownRecords] at hown
    · simpa [hv] using hmembers
  · intro f init cond advance body line v hvisited hf hv
    have hown : (ScopeKey.block f, [v]) ∈ p.log := by
      refine Program.ownRecords_subset hwf hvisited hf (List.mem_singleton.mpr ?_)
      simp [Program.declared, hv]
    have hfor : p.isFor f = true := by simp [Program.isFor, hf, Stmt.isFor]
    constructor
    · rintro ⟨sc, hsc, hmem⟩ hbody
      obtain ⟨x, hx⟩ := exists_lastAt (·.1) hown
      obtain ⟨sc', hsc', hmembers⟩ := hl.exists_scope hx
      obtain rfl := Option.some.inj (hsc.symm.trans hsc')
      rw [hmembers, honce.endsEmpty_log hwf hbody hfor x hx] at hmem
      simp at hmem
    · intro hbody
      obtain ⟨sc, hsc, hmembers⟩ := hl.exists_scope_of_forall hown fun y hy hkey => by
        rcases Program.record_of_block hwf hy hkey with ⟨x, hx, hmem⟩ | ⟨hbody', -⟩
        · obtain rfl := Option.some.inj (hf.symm.trans hx)
          rw [List.mem_singleton.mp hmem]
          simp [Program.declared, hv]
        · exact absurd hbody' hbody
      exact ⟨sc, hsc, by simp [hmembers]⟩

/-! ### A `for` as the body of a loop -/

open Operation in
/-- A method that is a `while` around a `for`, which declares `i` and has `j` in its body. The `for`
stands in a block, or it is itself the body of the `while`. -/
def loopSteps (bare : Bool) : List Operation :=
  [declareClass "C" ⟨1⟩ {}, intern "m", addExpr (.literal (.bool true) ⟨3⟩),
    addExpr (.ident (.free ⟨2⟩) ⟨3⟩), addVar "i" ⟨3⟩ ⟨⟨1⟩, none⟩, addStmt (.var ⟨8⟩ ⟨3⟩),
    addExpr (.ident (.free ⟨2⟩) ⟨4⟩), addVar "j" ⟨4⟩ ⟨⟨2⟩, none⟩, addStmt (.var ⟨9⟩ ⟨4⟩),
    addStmt (.block ⟨[⟨1⟩], ⟨4⟩⟩), addStmt (.forLoop (some ⟨0⟩) none none ⟨2⟩ ⟨3⟩),
    addStmt (.block ⟨if bare then [] else [⟨3⟩], ⟨3⟩⟩),
    addStmt (.whileLoop ⟨0⟩ (if bare then ⟨3⟩ else ⟨4⟩) ⟨3⟩),
    declareMember ⟨7⟩ ⟨⟨8⟩, ⟨2⟩, .method ⟨⟨.pub, some ⟨5⟩⟩, none, .normal, false, []⟩⟩]

def loops (bare : Bool) : Program := (Program.new.build? (loopSteps bare)).getD .new

def loopsResult (bare : Bool) : BoundProgram :=
  match (loops bare).resolve {} with
  | .ok r => r
  | .error _ => ⟨loops bare, .empty, .empty, .empty⟩

theorem loops_recorded_once :
    (loops false).Built ∧ (loops false).StmtsOnce ∧
    (loops false).resolve {} = .ok (loopsResult false) ∧
    ((∀ sc : ScopeId, (loops false).scopes.size ≤ sc.index →
        sc.index < (loopsResult false).program.scopes.size →
        ∃! key, (loopsResult false).scopeAt? key = some sc) ↔
      ∀ c, (loops false).IsBody c → (loops false).isFor c = false) ∧
    (∃ sc, (loopsResult false).blockScope? ⟨2⟩ = some sc ∧
      (loopsResult false).program.members sc = [⟨1⟩].filterMap (loops false).declares?) ∧
    ((∃ sc, (loopsResult false).blockScope? ⟨3⟩ = some sc ∧
      ⟨8⟩ ∈ (loopsResult false).program.members sc) ↔ ¬ (loops false).IsBody ⟨3⟩) := by
  have hsteps : Program.new.build? (loopSteps false) = some (loops false) := by decide
  have hbuilt : (loops false).Built := Program.Built.new.build? hsteps
  have honce : (loops false).StmtsOnce := by decide
  have hr : (loops false).resolve {} = .ok (loopsResult false) := by decide
  have hwhile : (loops false).Visited ⟨5⟩ :=
    .root (by decide : ⟨10⟩ ∈ (loops false).bodyOwners) (by decide)
  have hfor : (loops false).Visited ⟨3⟩ :=
    (hwhile.child (by decide : ⟨4⟩ ∈ (loops false).below ⟨5⟩)).child (by decide)
  obtain ⟨hunique, hblocks, -, hfors⟩ := new_scopes_recorded_once hbuilt honce hr
  exact ⟨hbuilt, honce, hr, hunique, hblocks ⟨2⟩ ⟨[⟨1⟩], ⟨4⟩⟩ (hfor.child (by decide)) (by decide),
    hfors ⟨3⟩ ⟨0⟩ none none ⟨2⟩ ⟨3⟩ ⟨8⟩ hfor (by decide) (by decide)⟩

lemma OrderedMap.mem_values_of_get? {κ ν : Type} [DecidableEq κ] {m : OrderedMap κ ν} {k : κ}
    {v : ν} (h : m.get? k = some v) : v ∈ m.values := by
  obtain ⟨l₁, l₂, heq, -⟩ := List.lookup_eq_some_iff.mp h
  rw [values, heq]
  simp

/-- Where the `for` is itself the body, the scope that holds `i` is found by no key; and the one
that is found for the `for` holds nothing. -/
theorem bare_loop_not_recorded :
    (loops true).Built ∧ (loops true).StmtsOnce ∧
    (loops true).resolve {} = .ok (loopsResult true) ∧ (loops true).Visited ⟨3⟩ ∧
    (loopsResult true).program.members ⟨4⟩ = [⟨8⟩] ∧
    (∀ key, (loopsResult true).scopeAt? key ≠ some ⟨4⟩) ∧
    ∃ sc, (loopsResult true).blockScope? ⟨3⟩ = some sc ∧
      (loopsResult true).program.members sc = [] := by
  have hsteps : Program.new.build? (loopSteps true) = some (loops true) := by decide
  have hwhile : (loops true).Visited ⟨5⟩ :=
    .root (by decide : ⟨10⟩ ∈ (loops true).bodyOwners) (by decide)
  refine ⟨Program.Built.new.build? hsteps, by decide, by decide, hwhile.child (by decide),
    by decide, fun key hkey => ?_, ⟨3⟩, by decide, by decide⟩
  cases key with
  | method s => exact absurd (OrderedMap.mem_values_of_get? hkey) (by decide)
  | block s => exact absurd (OrderedMap.mem_values_of_get? hkey) (by decide)
  | clause s c => exact absurd (OrderedMap.mem_values_of_get? hkey) (by decide)

end NameBinding
