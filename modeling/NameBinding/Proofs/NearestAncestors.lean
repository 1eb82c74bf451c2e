import NameBinding.Proofs.InheritanceCycles

/-!
The ancestors in which a member is looked up. The list of a type and its ancestors is a walk from
base to base that stops before the first type that it would repeat, so it holds each type that can
be reached once, at its distance. The first declaration along it is the nearest, on a cycle too.
-/

namespace NameBinding

/-! ### Lists of ancestors -/

section Lineage

variable {base : SymbolId → Option SymbolId} {n : Nat} {seen : List SymbolId} {s u v : SymbolId}

lemma head?_lineageFrom : (lineageFrom base n seen s).head? = some s := by
  fun_cases lineageFrom base n seen s <;> rfl

/-- No type is repeated, and none that has been seen occurs again. -/
lemma nodup_lineageFrom (h : (s :: seen).Nodup) :
    (lineageFrom base n seen s).Nodup ∧ ∀ u ∈ lineageFrom base n seen s, u ∉ seen := by
  fun_induction lineageFrom base n seen s with
  | case1 | case2 | case3 => simpa using (List.nodup_cons.mp h).1
  | case4 n seen s t _ ht ih =>
    obtain ⟨hnodup, hnew⟩ := ih (List.nodup_cons.mpr ⟨ht, h⟩)
    refine ⟨List.nodup_cons.mpr ⟨fun hs => hnew s hs List.mem_cons_self, hnodup⟩, fun u hu => ?_⟩
    rcases List.mem_cons.mp hu with rfl | hu
    · exact (List.nodup_cons.mp h).1
    · exact fun hseen => hnew u hu (List.mem_cons_of_mem s hseen)

/-- Each type is the base of the one before. -/
lemma isChain_lineageFrom :
    (lineageFrom base n seen s).IsChain fun a b => base a = some b := by
  fun_induction lineageFrom base n seen s with
  | case1 | case2 | case3 => exact List.isChain_singleton _
  | case4 n seen s t hbase _ ih =>
    refine List.isChain_cons.mpr ⟨fun u hu => ?_, ih⟩
    obtain rfl : t = u := by simpa [head?_lineageFrom] using hu
    exact hbase

lemma reaches_of_mem_lineageFrom (h : u ∈ lineageFrom base n seen s) :
    Relation.ReflTransGen (fun a b => base a = some b) s u := by
  fun_induction lineageFrom base n seen s with
  | case1 | case2 | case3 => rw [List.mem_singleton.mp h]
  | case4 n seen s t hbase _ ih =>
    rcases List.mem_cons.mp h with rfl | h
    · exact .refl
    · exact .head hbase (ih h)

/-- With a step left for every type that has a base and has not been seen, the walk only ends at a
type without a base or before one that has been seen. -/
lemma closed_lineageFrom {sources : List SymbolId} (hsource : ∀ s t, base s = some t → s ∈ sources)
    (hnodup : (s :: seen).Nodup) (hseen : seen ⊆ sources) (hlen : sources.length ≤ seen.length + n)
    (hu : u ∈ lineageFrom base n seen s) (hv : base u = some v) :
    v ∈ seen ∨ v ∈ lineageFrom base n seen s := by
  fun_induction lineageFrom base n seen s with
  | case1 seen s =>
    obtain rfl : u = s := List.mem_singleton.mp hu
    -- all types with a base have been seen, and `u` has not
    have hsub : u :: seen ⊆ sources := List.cons_subset.mpr ⟨hsource u v hv, hseen⟩
    have hle := (List.subperm_of_subset hnodup hsub).length_le
    rw [List.length_cons] at hle
    omega
  | case2 n seen s hbase =>
    obtain rfl : u = s := List.mem_singleton.mp hu
    simp [hbase] at hv
  | case3 n seen s t hbase ht =>
    obtain rfl : u = s := List.mem_singleton.mp hu
    obtain rfl : t = v := Option.some.inj (hbase.symm.trans hv)
    simpa [or_comm] using ht
  | case4 n seen s t hbase ht ih =>
    rcases List.mem_cons.mp hu with rfl | hu
    · obtain rfl : t = v := Option.some.inj (hbase.symm.trans hv)
      have hnext : t ∈ lineageFrom base n (u :: seen) t :=
        List.mem_of_mem_head? (by simp [head?_lineageFrom])
      exact .inr (List.mem_cons_of_mem u hnext)
    · have hrest := ih (List.nodup_cons.mpr ⟨ht, hnodup⟩)
        (List.cons_subset.mpr ⟨hsource s t hbase, hseen⟩)
        (by rw [List.length_cons]; omega) hu
      simpa [or_assoc, or_left_comm] using hrest

end Lineage

/-- Along a chain of bases the type at position `k` stands `k` steps above the first. -/
lemma above_of_isChain {base : SymbolId → Option SymbolId} {l : List SymbolId} {k : Nat}
    {t u : SymbolId} (hchain : l.IsChain fun a b => base a = some b) (hhead : l.head? = some t)
    (hu : l[k]? = some u) : above base k t = some u := by
  induction k generalizing l t with
  | zero => rwa [← List.head?_eq_getElem?, hhead] at hu
  | succ k ih =>
    cases l with
    | nil => simp at hu
    | cons a l =>
      obtain rfl : a = t := by simpa using hhead
      obtain ⟨hstep, hrest⟩ := List.isChain_cons.mp hchain
      cases hl : l.head? with
      | none => simp [List.head?_eq_none_iff.mp hl] at hu
      | some b =>
        rw [above, hstep b hl, Option.bind_some]
        exact ih hrest hl (by simpa using hu)

namespace Program

/-- The type `u` is `t` or an ancestor of `t`. -/
def Above (p : Program) (b : Bindings) (t u : SymbolId) : Prop :=
  Relation.ReflTransGen (fun a c => p.base? b a = some c) t u

/-- The list of a type and its ancestors is long enough to hold all types that can be reached. -/
lemma mem_lineage_iff (p : Program) (b : Bindings) (t u : SymbolId) :
    u ∈ p.lineage b t ↔ p.Above b t u := by
  constructor
  · exact reaches_of_mem_lineageFrom
  · intro h
    have hsource : ∀ s c, p.base? b s = some c → s ∈ p.symbolIds ++ b.baseClasses.keys := by
      intro s c hbase
      rcases Option.or_eq_some_iff.mp hbase with hbase | ⟨-, hbase⟩
      · have hentry := OrderedMap.mem_entries_of_get? hbase
        exact List.mem_append_right _ (List.mem_map.mpr ⟨_, hentry, rfl⟩)
      · obtain ⟨_, hclass, -⟩ := Option.bind_eq_some_iff.mp hbase
        obtain ⟨_, hsymbol, -⟩ := Option.bind_eq_some_iff.mp hclass
        have hlt : s.index < p.symbols.size := (Array.getElem?_eq_some_iff.mp hsymbol).1
        exact List.mem_append_left _ (List.mem_map.mpr ⟨s.index, List.mem_range.mpr hlt, rfl⟩)
    induction h with
    | refl => exact List.mem_of_mem_head? (by simp [lineage, head?_lineageFrom])
    | tail _ hstep ih =>
      have hlen : (p.symbolIds ++ b.baseClasses.keys).length ≤
          ([] : List SymbolId).length + (p.symbols.size + b.baseClasses.size) := by
        simp [symbolIds, OrderedMap.keys, OrderedMap.size]
      exact (closed_lineageFrom hsource (by simp) (List.nil_subset _) hlen ih hstep).resolve_left
        List.not_mem_nil

end Program

/-! ### Looking a member up -/

namespace Pass

variable {p : Program} {st : Pass} {t : SymbolId} {n : Name}

/-- The faults recorded so far. -/
def faults (st : Pass) : List Fault := st.journal.toList.filterMap Entry.fault?

@[simp] lemma faults_settle (st : Pass) (e : ExprId) (b : Binding) :
    (st.settle e b).faults = st.faults ++ ((Entry.name e b).fault?).toList := by
  cases h : (Entry.name e b).fault? <;> simp [faults, h]

/-- What the scope of a type itself declares under a name. -/
def own? (p : Program) (st : Pass) (t : SymbolId) (n : Name) : Option SymbolId :=
  ((p.symbol? t).bind (·.scope?)).bind fun s => st.scopes.declared? s n

/-- The first type among `t`, its base, the base of that, … that declares `n` declares `x`. -/
def Nearest (p : Program) (st : Pass) (t : SymbolId) (n : Name) (x : SymbolId) : Prop :=
  ∃ k u, above (p.base? st.bindings) k t = some u ∧ st.own? p u n = some x ∧
    ∀ j < k, ∀ w, above (p.base? st.bindings) j t = some w → st.own? p w n = none

lemma findSome?_lineageScopes (p : Program) (st : Pass) (t : SymbolId) (n : Name) :
    ((st.lineageScopes p t).findSome? fun s => st.scopes.declared? s n) =
      (p.lineage st.bindings t).findSome? (st.own? p · n) := by
  rw [lineageScopes, ← List.head?_filterMap, ← List.head?_filterMap, List.filterMap_filterMap]
  rfl

/-- The first declaration along the list of ancestors is the nearest one. -/
lemma nearest_of_lineage {x : SymbolId}
    (h : (p.lineage st.bindings t).findSome? (st.own? p · n) = some x) : st.Nearest p t n x := by
  obtain ⟨before, u, after, hsplit, hx, hnone⟩ := List.findSome?_eq_some_iff.mp h
  have hpos : ∀ {k w}, (p.lineage st.bindings t)[k]? = some w →
      above (p.base? st.bindings) k t = some w :=
    fun hw => above_of_isChain isChain_lineageFrom head?_lineageFrom hw
  refine ⟨before.length, u, hpos (by simp [hsplit]), hx, fun j hj w hw => ?_⟩
  have hmem : (p.lineage st.bindings t)[j]? = some before[j] := by
    rw [hsplit, List.getElem?_append_left hj, List.getElem?_eq_getElem hj]
  obtain rfl : before[j] = w := Option.some.inj ((hpos hmem).symm.trans hw)
  exact hnone _ (List.getElem_mem hj)

lemma selected_of_findSome? {object : ExprId} {line : Line} {x : SymbolId}
    (howner : st.owner p object = .type t)
    (h : (p.lineage st.bindings t).findSome? (st.own? p · n) = some x) :
    st.selected p object (.free n) line = .member t x := by
  rw [← findSome?_lineageScopes] at h
  simp [selected, Reference.isBound, Reference.target?, Reference.name, howner, h]

lemma selected_of_none {object : ExprId} {line : Line} (howner : st.owner p object = .type t)
    (h : (p.lineage st.bindings t).findSome? (st.own? p · n) = none) :
    st.selected p object (.free n) line =
      .failed ⟨.unknownMember (p.symbolText t) (p.text n), line,
        ((st.lineageScopes p t).flatMap st.scopes.names).map p.text⟩ := by
  rw [← findSome?_lineageScopes] at h
  simp [selected, Reference.isBound, Reference.target?, Reference.name, howner, h]

end Pass

/-- **Members are found nearest first**. Whatever bases are bound, the list of a type and its
ancestors starts with the type, goes from base to base, and holds exactly the types that can be
reached, each once. So a member selected from a type is bound if one of these declares it, to the
declaration the fewest steps away, and is reported as unknown if none does. -/
theorem members_found_nearest_first (p : Program) (st : Pass) (t : SymbolId) :
    (p.lineage st.bindings t).head? = some t ∧ (p.lineage st.bindings t).Nodup ∧
    ((p.lineage st.bindings t).IsChain fun a b => p.base? st.bindings a = some b) ∧
    (∀ u, u ∈ p.lineage st.bindings t ↔ p.Above st.bindings t u) ∧
    ∀ (scope : ScopeId) (m object : ExprId) (n : Name) (line : Line),
      p.expr? m = some (.select object (.free n) line) → st.owner p object = .type t →
      ((∃ u, p.Above st.bindings t u ∧ (st.own? p u n).isSome) →
        ∃ x, st.Nearest p t n x ∧ (st.bindOwn p scope m).faults = st.faults ∧
          (st.bindOwn p scope m).bindings =
            { st.bindings with references := st.bindings.references.insert m x }) ∧
      ((∀ u, p.Above st.bindings t u → st.own? p u n = none) →
        (st.bindOwn p scope m).bindings = st.bindings ∧
        (st.bindOwn p scope m).faults = st.faults ++
          [⟨.unknownMember (p.symbolText t) (p.text n), line,
            ((st.lineageScopes p t).flatMap st.scopes.names).map p.text⟩]) := by
  refine ⟨head?_lineageFrom, (nodup_lineageFrom (List.nodup_singleton t)).1, isChain_lineageFrom,
    p.mem_lineage_iff st.bindings t, ?_⟩
  intro scope m object n line hm howner
  rw [Pass.bindOwn_select hm]
  refine ⟨fun ⟨u, hu, hdeclares⟩ => ?_, fun hnone => ?_⟩
  · have hmem := (p.mem_lineage_iff st.bindings t u).mpr hu
    have hfound : ((p.lineage st.bindings t).findSome? (st.own? p · n)).isSome :=
      List.findSome?_isSome_iff.mpr ⟨u, hmem, hdeclares⟩
    obtain ⟨x, hx⟩ := Option.isSome_iff_exists.mp hfound
    refine ⟨x, Pass.nearest_of_lineage hx, ?_, ?_⟩
    · simp [Pass.selected_of_findSome? howner hx, Entry.fault?]
    · rw [Pass.selected_of_findSome? howner hx]
      rfl
  · have hfind : (p.lineage st.bindings t).findSome? (st.own? p · n) = none :=
      List.findSome?_eq_none_iff.mpr fun u hu => hnone u ((p.mem_lineage_iff _ t u).mp hu)
    refine ⟨?_, ?_⟩
    · rw [Pass.selected_of_none howner hfind]
      rfl
    · simp [Pass.selected_of_none howner hfind, Entry.fault?]

/-- Classes on cycles of which one, `B`, has a field `x`; and the selections `C.x` and `C.y`. -/
def knottedSelections : Program :=
  (knotted.build?
    [.intern "x", .intern "y", .addExpr (.ident (.free ⟨2⟩) ⟨5⟩),
      .declareMember ⟨8⟩ ⟨⟨11⟩, ⟨5⟩, .field ⟨.pub, ⟨⟨0⟩, none⟩⟩⟩,
      .addExpr (.ident (.free ⟨9⟩) ⟨6⟩), .addExpr (.select ⟨1⟩ (.free ⟨11⟩) ⟨6⟩),
      .addExpr (.select ⟨1⟩ (.free ⟨12⟩) ⟨7⟩)]).getD .new

/-- The pass with the name `C` bound. -/
def knottedPass : Pass :=
  (Pass.start knottedSelections).bindOwn knottedSelections ScopeTree.global ⟨1⟩

theorem knotted_members_found_nearest_first :
    knottedSelections.lineage knottedPass.bindings ⟨9⟩ = [⟨9⟩, ⟨7⟩, ⟨8⟩] ∧
    knottedSelections.base? knottedPass.bindings ⟨8⟩ = some ⟨7⟩ ∧
    knottedPass.owner knottedSelections ⟨1⟩ = .type ⟨9⟩ ∧
    (∃ x, knottedPass.Nearest knottedSelections ⟨9⟩ ⟨11⟩ x ∧
      (knottedPass.bindOwn knottedSelections ScopeTree.global ⟨2⟩).bindings =
        { knottedPass.bindings with
          references := knottedPass.bindings.references.insert ⟨2⟩ x }) ∧
    (knottedPass.bindOwn knottedSelections ScopeTree.global ⟨3⟩).faults = knottedPass.faults ++
      [⟨.unknownMember "C" "y", ⟨7⟩, ["x"]⟩] := by
  obtain ⟨-, -, -, hmem, hlook⟩ := members_found_nearest_first knottedSelections knottedPass ⟨9⟩
  have hlineage : knottedSelections.lineage knottedPass.bindings ⟨9⟩ = [⟨9⟩, ⟨7⟩, ⟨8⟩] := by decide
  have howner : knottedPass.owner knottedSelections ⟨1⟩ = .type ⟨9⟩ := by decide
  have hdeclares : ∃ u, knottedSelections.Above knottedPass.bindings ⟨9⟩ u ∧
      (knottedPass.own? knottedSelections u ⟨11⟩).isSome :=
    ⟨⟨8⟩, (hmem ⟨8⟩).mp (by simp [hlineage]), by decide⟩
  obtain ⟨x, hx, -, hbound⟩ :=
    (hlook ScopeTree.global ⟨2⟩ ⟨1⟩ ⟨11⟩ ⟨6⟩ (by decide) howner).1 hdeclares
  refine ⟨hlineage, by decide, howner, ⟨x, hx, hbound⟩, ?_⟩
  have hnone : ∀ u, knottedSelections.Above knottedPass.bindings ⟨9⟩ u →
      knottedPass.own? knottedSelections u ⟨12⟩ = none := by
    intro u hu
    have hall : ∀ u ∈ [(⟨9⟩ : SymbolId), ⟨7⟩, ⟨8⟩],
      knottedPass.own? knottedSelections u ⟨12⟩ = none := by decide
    exact hall u (hlineage ▸ (hmem u).mpr hu)
  exact ((hlook ScopeTree.global ⟨3⟩ ⟨1⟩ ⟨12⟩ ⟨7⟩ (by decide) howner).2 hnone).2.trans (by decide)

end NameBinding
