import NameBinding.Proofs.Records

/-!
How often a key is recorded. If no statement is shared, every key is recorded once, but for one
case: a `for` that is a branch or the body of a loop is given a scope like any other statement
there, and opens another one itself. Both are recorded under the same key, and the outer one, which
holds no variable, is recorded last.
-/

namespace NameBinding

namespace Stmt

def isFor : Stmt → Bool
  | forLoop _ _ _ _ _ => true
  | _ => false

lemma children_perm (x : Stmt) : x.children.Perm (x.directs ++ x.bodies) := by
  cases x <;> simp [children, directs, bodies]

end Stmt

namespace Program

variable {p : Program} {s t c : StmtId}

def isFor (p : Program) (s : StmtId) : Bool := ((p.stmt? s).map Stmt.isFor).getD false

/-- A statement is a branch or a loop body of a visited one. -/
def IsBody (p : Program) (c : StmtId) : Prop := ∃ t, p.Visited t ∧ c ∈ p.bodies t

lemma exists_forLoop (h : p.isFor s = true) : ∃ init cond advance body line,
    p.stmt? s = some (.forLoop init cond advance body line) := by
  unfold isFor at h
  cases hx : p.stmt? s with
  | none => simp [hx] at h
  | some x =>
    cases x with
    | forLoop init cond advance body line => exact ⟨init, cond, advance, body, line, rfl⟩
    | _ => simp [hx, Stmt.isFor] at h

lemma mem_bodies (h : c ∈ p.bodies s) : ∃ x, p.stmt? s = some x ∧ c ∈ x.bodies := by
  unfold bodies at h
  cases hx : p.stmt? s with
  | none => simp [hx] at h
  | some x => exact ⟨x, rfl, by simpa [hx] using h⟩

lemma below_of_bodies (h : c ∈ p.bodies s) : c ∈ p.below s := by
  obtain ⟨x, hx, hc⟩ := mem_bodies h
  have hchild : c ∈ x.children := x.children_perm.mem_iff.mpr (List.mem_append_right _ hc)
  simpa [below, hx] using hchild

lemma StmtsOnce.bodies_nodup (h : p.StmtsOnce) (s : StmtId) : (p.bodies s).Nodup := by
  have hbelow := h.below_nodup s
  unfold bodies
  unfold below at hbelow
  cases hx : p.stmt? s with
  | none => simp
  | some x =>
    simp only [hx, Option.map_some, Option.getD_some] at hbelow ⊢
    exact (List.nodup_append.mp (x.children_perm.nodup_iff.mp hbelow)).2.1

/-! ### The keys of a statement -/

lemma mem_records {x : Record} : x ∈ p.records t ↔
    (∃ y, p.stmt? t = some y ∧ x ∈ p.ownRecords t y) ∨
      ∃ c ∈ p.bodies t, p.isBlock c = false ∧ x = (.block c, (p.declares? c).toList) := by
  unfold records bodyRecords
  rw [List.mem_append, List.mem_map]
  refine or_congr ?_ (exists_congr fun c => ?_)
  · cases p.stmt? t <;> simp
  · rw [List.mem_filter, Bool.not_eq_true', and_assoc, eq_comm (a := x)]

/-- A scope that a statement opens for itself is recorded under that statement. -/
lemma key_of_mem_ownRecords {y : Stmt} {x : Record} (h : x ∈ p.ownRecords s y) :
    x.1.stmt? = some s ∧ (x.1 = .block s → y.isBlock = true ∨ y.isFor = true) := by
  cases y with
  | block b =>
    obtain rfl := List.mem_singleton.mp h
    exact ⟨rfl, fun _ => .inl rfl⟩
  | forLoop init cond advance body line =>
    obtain rfl := List.mem_singleton.mp h
    exact ⟨rfl, fun _ => .inr rfl⟩
  | switch value cases defaultBody line =>
    obtain ⟨c, -, rfl⟩ := List.mem_map.mp h
    exact ⟨rfl, by simp⟩
  | _ => simp [ownRecords] at h

lemma ownRecords_keys_nodup (s : StmtId) (y : Stmt) : ((p.ownRecords s y).map (·.1)).Nodup := by
  cases y with
  | switch value cases defaultBody line =>
    have hcases : (cases.zipIdx.map fun c => SwitchClause.case c.2).Nodup := by
      have hindex : (cases.zipIdx.map (·.2)).Nodup := by
        rw [List.zipIdx_map_snd]
        exact List.nodup_range'
      have hmap := hindex.map (f := SwitchClause.case) fun a b hab => by simpa using hab
      rwa [List.map_map] at hmap
    have hclauses : ((switchClauses cases defaultBody).map (·.1)).Nodup := by
      rw [switchClauses, List.map_append, List.map_map, List.map_map]
      refine List.nodup_append.mpr ⟨hcases, by cases defaultBody <;> simp, ?_⟩
      rintro a ha b hb rfl
      obtain ⟨c, -, rfl⟩ := List.mem_map.mp ha
      obtain ⟨body, -, hbody⟩ := List.mem_map.mp hb
      simp at hbody
    have hmap := hclauses.map (f := ScopeKey.clause s) fun a b hab => by simpa using hab
    rw [List.map_map] at hmap
    rw [ownRecords, List.map_map]
    exact hmap
  | _ => simp [ownRecords]

/-- What is recorded for a statement is recorded under a statement that stands under it. -/
lemma under_of_mem_keys (hp : p.Allocated) {k : ScopeKey}
    (h : k ∈ (Script.stmt p s).log.map (·.1)) : ∃ u, k.stmt? = some u ∧ p.Under s u := by
  obtain ⟨x, hmem, rfl⟩ := List.mem_map.mp h
  obtain ⟨t, hunder, hx⟩ := (Script.mem_log_stmt hp).mp hmem
  rcases mem_records.mp hx with ⟨y, -, hy⟩ | ⟨c, hc, -, rfl⟩
  · exact ⟨t, (key_of_mem_ownRecords hy).1, hunder⟩
  · exact ⟨c, rfl, hunder.tail (below_of_bodies hc)⟩

/-- Among its own records a statement has one for a block only if it is a block or a `for`. -/
lemma isBlock_or_isFor_of_mem_keys (hp : p.Allocated)
    (h : .block s ∈ (Script.stmt p s).log.map (·.1)) : p.isBlock s = true ∨ p.isFor s = true := by
  obtain ⟨x, hmem, hkey⟩ := List.mem_map.mp h
  obtain ⟨t, hunder, hx⟩ := (Script.mem_log_stmt hp).mp hmem
  rcases mem_records.mp hx with ⟨y, hy, hown⟩ | ⟨c, hc, -, rfl⟩
  · obtain ⟨hstmt, hkind⟩ := key_of_mem_ownRecords hown
    obtain rfl : s = t := by simpa [hkey, ScopeKey.stmt?] using hstmt
    simpa [isBlock, isFor, hy] using hkind hkey
  · obtain rfl : c = s := by simpa using hkey
    have hlt := below_lt hp (below_of_bodies hc)
    have hle := hp.index_le hunder
    omega

lemma StmtsOnce.records_keys_nodup (h : p.StmtsOnce) (hp : p.Allocated) (s : StmtId) :
    ((p.records s).map (·.1)).Nodup := by
  have hblock : Function.Injective ScopeKey.block := fun a b hab => by simpa using hab
  have hown : ((((p.stmt? s).map (p.ownRecords s)).getD []).map (·.1)).Nodup := by
    cases p.stmt? s with
    | none => exact List.nodup_nil
    | some y => exact ownRecords_keys_nodup s y
  have hbodies : ((p.bodyRecords (p.bodies s)).map (·.1)).Nodup := by
    rw [bodyRecords, List.map_map]
    exact ((h.bodies_nodup s).filter _).map hblock
  rw [records, List.map_append]
  refine List.nodup_append.mpr ⟨hown, hbodies, ?_⟩
  rintro k hk k' hk' rfl
  obtain ⟨x, hx, rfl⟩ := List.mem_map.mp hk
  obtain ⟨x', hx', heq⟩ := List.mem_map.mp hk'
  obtain ⟨c, hc, rfl⟩ := List.mem_map.mp hx'
  cases hy : p.stmt? s with
  | none => simp [hy] at hx
  | some y =>
    rw [hy, Option.map_some, Option.getD_some] at hx
    have hkey := (key_of_mem_ownRecords hx).1
    obtain rfl : c = s := by simpa [← heq, ScopeKey.stmt?] using hkey
    have hlt := below_lt hp (below_of_bodies (List.mem_filter.mp hc).1)
    omega

/-- A statement records no key twice, if no `for` under it is a branch or a loop body. -/
lemma StmtsOnce.log_keys_nodup (h : p.StmtsOnce) (hp : p.Allocated)
    (hfor : ∀ t, p.Under s t → ∀ c ∈ p.bodies t, p.isFor c = false) :
    ((Script.stmt p s).log.map (·.1)).Nodup := by
  induction hk : s.index using Nat.strong_induction_on generalizing s with
  | _ k ih =>
    subst hk
    rw [((Script.log_stmt_perm hp s).map _).nodup_iff, List.map_append, List.map_flatMap]
    refine List.nodup_append.mpr ⟨h.records_keys_nodup hp s, ?_, ?_⟩
    · refine nodup_flatMap_of_eq (h.below_nodup s) (fun c hc => ?_) fun c hc c' hc' k hk hk' => ?_
      · exact ih c.index (below_lt hp hc) (fun t ht => hfor t (ht.head hc)) rfl
      · obtain ⟨u, hu, hunder⟩ := under_of_mem_keys hp hk
        obtain ⟨u', hu', hunder'⟩ := under_of_mem_keys hp hk'
        obtain rfl := Option.some.inj (hu.symm.trans hu')
        exact h.sibling_eq hp hc hc' hunder hunder'
    · -- a record of the statement itself against one of a statement below
      rintro k hk k' hk' rfl
      obtain ⟨x, hx, rfl⟩ := List.mem_map.mp hk
      obtain ⟨c, hc, hk'⟩ := List.mem_flatMap.mp hk'
      obtain ⟨u, hu, hunder⟩ := under_of_mem_keys hp hk'
      rcases mem_records.mp hx with ⟨y, -, hy⟩ | ⟨c', hc', hblock, rfl⟩
      · have hkey := (key_of_mem_ownRecords hy).1
        obtain rfl : s = u := Option.some.inj (hkey.symm.trans hu)
        have hlt := below_lt hp hc
        have hle := hp.index_le hunder
        omega
      · obtain rfl : c' = u := Option.some.inj hu
        obtain rfl := h.sibling_eq hp hc (below_of_bodies hc') hunder .refl
        have hkind := isBlock_or_isFor_of_mem_keys hp hk'
        simp [hblock, hfor s .refl c hc'] at hkind

/-! ### The keys of a program -/

/-- What is recorded in the body of a symbol is recorded under that, or under a statement in it. -/
lemma key_of_mem_bodyLog (hp : p.Allocated) {v : SymbolId} {k : ScopeKey}
    (h : k ∈ (p.bodyLog v).map (·.1)) :
    k = .method v ∨ ∃ r ∈ p.stmtsOf v, ∃ u, k.stmt? = some u ∧ p.Under r u := by
  cases hopener : p.opener? v with
  | none => simp [bodyLog, hopener] at h
  | some vs =>
    rw [bodyLog_eq hopener, List.map_cons, List.mem_cons, List.map_flatMap, List.mem_flatMap] at h
    rcases h with rfl | ⟨r, hr, hk⟩
    · exact .inl rfl
    · exact .inr ⟨r, hr, under_of_mem_keys hp hk⟩

lemma StmtsOnce.bodyLog_keys_nodup (h : p.StmtsOnce) (hp : p.Allocated) {v : SymbolId}
    (hv : v ∈ p.bodyOwners) (hfor : ∀ c, p.IsBody c → p.isFor c = false) :
    ((p.bodyLog v).map (·.1)).Nodup := by
  cases hopener : p.opener? v with
  | none => simp [bodyLog, hopener]
  | some vs =>
    rw [bodyLog_eq hopener, List.map_cons, List.nodup_cons, List.map_flatMap]
    refine ⟨fun hmem => ?_, nodup_flatMap_of_eq (h.stmtsOf_nodup v) (fun r hr => ?_)
      fun r hr r' hr' k hk hk' => ?_⟩
    · obtain ⟨r, -, hk⟩ := List.mem_flatMap.mp hmem
      obtain ⟨u, hu, -⟩ := under_of_mem_keys hp hk
      simp [ScopeKey.stmt?] at hu
    · exact h.log_keys_nodup hp fun t ht c hc => hfor c ⟨t, (Visited.root hv hr).under ht, hc⟩
    · obtain ⟨u, hu, hunder⟩ := under_of_mem_keys hp hk
      obtain ⟨u', hu', hunder'⟩ := under_of_mem_keys hp hk'
      obtain rfl := Option.some.inj (hu.symm.trans hu')
      exact h.root_eq hr hr' hunder hunder'

/-- Where the program records no key twice, neither does a visited statement. -/
lemma Visited.log_keys_nodup (ht : p.Visited t) (hp : p.WellFormed)
    (hnodup : (p.log.map (·.1)).Nodup) : ((Script.stmt p t).log.map (·.1)).Nodup := by
  rw [log_eq hp, List.map_flatMap] at hnodup
  induction ht with
  | @root v t hv ht =>
    have hbody := (List.nodup_flatMap.mp hnodup).1 v hv
    obtain ⟨vs, hopener⟩ := exists_opener ht
    rw [bodyLog_eq hopener, List.map_cons, List.nodup_cons, List.map_flatMap] at hbody
    exact (List.nodup_flatMap.mp hbody.2).1 t ht
  | @child s t hs ht ih =>
    rw [((Script.log_stmt_perm hp.allocated s).map _).nodup_iff, List.map_append,
      List.map_flatMap] at ih
    exact (List.nodup_flatMap.mp (List.nodup_append.mp ih).2.1).1 t ht

/-- **Keys are recorded once**, exactly if no `for` is a branch or the body of a loop. -/
theorem StmtsOnce.keys_nodup_iff (h : p.StmtsOnce) (hp : p.WellFormed) :
    (p.log.map (·.1)).Nodup ↔ ∀ c, p.IsBody c → p.isFor c = false := by
  constructor
  · rintro hnodup c ⟨t, ht, hc⟩
    cases hfor : p.isFor c with
    | false => rfl
    | true =>
      -- its own scope and the one it is given as a body
      obtain ⟨init, cond, advance, body, line, hstmt⟩ := exists_forLoop hfor
      have hgiven : (ScopeKey.block c, (p.declares? c).toList) ∈ p.records t :=
        mem_records.mpr (.inr ⟨c, hc, by simp [isBlock, hstmt, Stmt.isBlock], rfl⟩)
      have hown : (ScopeKey.block c, p.declared init.toList) ∈ (Script.stmt p c).log :=
        (Script.mem_log_stmt hp.allocated).mpr
          ⟨c, .refl, mem_records.mpr (.inl ⟨_, hstmt, List.mem_singleton.mpr rfl⟩)⟩
      have hkeys := ht.log_keys_nodup hp hnodup
      rw [((Script.log_stmt_perm hp.allocated t).map _).nodup_iff, List.map_append,
        List.map_flatMap] at hkeys
      exact absurd rfl ((List.nodup_append.mp hkeys).2.2 _ (List.mem_map.mpr ⟨_, hgiven, rfl⟩) _
        (List.mem_flatMap.mpr ⟨c, below_of_bodies hc, List.mem_map.mpr ⟨_, hown, rfl⟩⟩))
  · intro hfor
    rw [log_eq hp, List.map_flatMap]
    refine nodup_flatMap_of_eq hp.listed.bodyOwners_nodup
      (fun v hv => h.bodyLog_keys_nodup hp.allocated hv hfor) fun v hv v' hv' k hk hk' => ?_
    -- a key tells the symbol in whose body it is recorded
    rcases key_of_mem_bodyLog hp.allocated hk with rfl | ⟨r, hr, u, hu, hunder⟩
    · rcases key_of_mem_bodyLog hp.allocated hk' with heq | ⟨_, _, u, hu, -⟩
      · simpa using heq
      · simp [ScopeKey.stmt?] at hu
    · rcases key_of_mem_bodyLog hp.allocated hk' with rfl | ⟨r', hr', u', hu', hunder'⟩
      · simp [ScopeKey.stmt?] at hu
      · obtain rfl := Option.some.inj (hu.symm.trans hu')
        obtain rfl := h.root_eq hr hr' hunder hunder'
        exact h.owner_eq hr hr'

end Program

/-! ### A `for` that is a body -/

/-- The last record of a statement as a block, if there is one, has no variables. -/
def EndsEmpty (f : StmtId) (l : List Record) : Prop :=
  ∀ x, lastAt (·.1) l (.block f) = some x → x.2 = []

namespace EndsEmpty

variable {f : StmtId} {l l' : List Record}

lemma nil : EndsEmpty f [] := by simp [EndsEmpty]

lemma singleton {x : Record} (hx : x.1 ≠ .block f) : EndsEmpty f [x] := by simp [EndsEmpty, hx]

lemma append (h : EndsEmpty f l) (h' : EndsEmpty f l') : EndsEmpty f (l ++ l') := by
  intro x hx
  rw [lastAt_append, Option.or_eq_some_iff] at hx
  rcases hx with hx | ⟨-, hx⟩
  · exact h' x hx
  · exact h x hx

lemma flatMap {α : Type} {g : α → List Record} {xs : List α} (h : ∀ x ∈ xs, EndsEmpty f (g x)) :
    EndsEmpty f (xs.flatMap g) := by
  induction xs with
  | nil => exact nil
  | cons x xs ih => exact (h x (by simp)).append (ih fun y hy => h y (by simp [hy]))

lemma within {key : ScopeKey} {body : Script} (hkey : key ≠ .block f) (h : EndsEmpty f body.log) :
    EndsEmpty f (Script.within key body).log := by
  have hrecord : EndsEmpty f [(key, body.entered)] := singleton hkey
  rw [Script.log]
  split
  · exact hrecord.append h
  · exact h.append hrecord

end EndsEmpty

namespace Program

variable {p : Program} {s t f : StmtId}

/-- Where a `for` is a branch or a loop body, the scope it is given there is recorded last. -/
lemma StmtsOnce.endsEmpty_stmt (h : p.StmtsOnce) (hp : p.Allocated) (hbody : f ∈ p.bodies t)
    (hfor : p.isFor f = true) (hs : s ≠ f) : EndsEmpty f (Script.stmt p s).log := by
  have hseq : Script.Sequential p fun c => EndsEmpty f c.log :=
    { skip := .nil
      seq := fun _ _ ha hb => ha.append hb
      enter := fun _ _ => .nil
      root := fun e _ => by simpa using EndsEmpty.nil }
  obtain ⟨init, cond, advance, body, line, hstmt⟩ := exists_forLoop hfor
  induction hk : s.index using Nat.strong_induction_on generalizing s with
  | _ k ih =>
    subst hk
    cases hx : p.stmt? s with
    | none =>
      rw [Script.stmt_of_none hx]
      exact .nil
    | some x =>
      have hchild : ∀ c ∈ x.children, c ≠ f → EndsEmpty f (Script.stmt p c).log :=
        fun c hc hne => ih c.index (Script.child_lt hp hx hc) hne rfl
      rw [Script.stmt_eq hp hx]
      refine hseq.stmtStep hx (fun key body hkey => EndsEmpty.within ?_) (fun c hc => ?_)
        fun c hc => ?_
      · rintro rfl
        exact hs (by simpa [ScopeKey.stmt?] using hkey.symm)
      · have hmem := x.children_perm.mem_iff.mpr (List.mem_append_right _ hc)
        by_cases hcf : c = f
        · subst hcf
          have hgiven : p.bodyRecords [c] = [(.block c, [])] := by
            simp [bodyRecords, isBlock, declares?, hstmt, Stmt.isBlock, Stmt.declared?]
          rw [Script.log_nested hp, hgiven]
          intro y hy
          obtain rfl : (ScopeKey.block c, []) = y := by simpa [lastAt_append] using hy
          rfl
        · rw [Script.nested_eq]
          split
          · exact hchild c hmem hcf
          · exact EndsEmpty.within (by simpa using hcf) (hchild c hmem hcf)
      · have hmem := x.children_perm.mem_iff.mpr (List.mem_append_left _ hc)
        refine hchild c hmem ?_
        -- a `for` that is a body stands nowhere else
        rintro rfl
        have hbelow : p.below s = x.children := by rw [below, hx, Option.map_some, Option.getD_some]
        obtain rfl := h.parent_eq (below_of_bodies hbody) (hbelow ▸ hmem)
        obtain ⟨y, hy, hc'⟩ := mem_bodies hbody
        obtain rfl := Option.some.inj (hx.symm.trans hy)
        have hnodup := h.below_nodup t
        rw [hbelow, x.children_perm.nodup_iff] at hnodup
        exact (List.nodup_append.mp hnodup).2.2 c hc c hc' rfl

/-- The scope that a `for` is given as a body is what is recorded for it in the end. -/
lemma StmtsOnce.endsEmpty_log (h : p.StmtsOnce) (hp : p.WellFormed) (hbody : p.IsBody f)
    (hfor : p.isFor f = true) : EndsEmpty f p.log := by
  obtain ⟨t, -, hf⟩ := hbody
  rw [log_eq hp]
  refine .flatMap fun v _ => ?_
  cases hopener : p.opener? v with
  | none => simpa [bodyLog, hopener] using EndsEmpty.nil
  | some vs =>
    rw [bodyLog_eq hopener]
    refine (EndsEmpty.singleton (by simp)).append (.flatMap fun r hr => ?_)
    refine h.endsEmpty_stmt hp.allocated hf hfor ?_
    rintro rfl
    exact h.not_mem_below hr t (below_of_bodies hf)

end Program

end NameBinding
