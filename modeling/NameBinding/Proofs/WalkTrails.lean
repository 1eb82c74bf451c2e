import NameBinding.Proofs.WalkVisits

/-!
The walk and the trails. A walk meets every occurrence of a node once, in the order in which the
program is written. At each it knows the clause that the trail tells; and in a tree without cycles
it comes to an end.
-/

namespace NameBinding

namespace Program

variable {p : Program} {around : Option Clause} {depth : Nat}

/-! ### Places and trails -/

lemma Covers.exists_visit {xs : List (Slot × Site)} {places : List Place}
    (h : p.Covers around depth xs places) {x : Slot × Site} (hx : x ∈ xs) :
    ∃ d < depth, ∃ visit, p.visit d (p.place around x) = some visit := by
  obtain ⟨visits, hvisits, -⟩ := h
  induction hvisits with
  | nil => simp at hx
  | @cons y visit ys _ hy _ ih =>
    rcases List.mem_cons.mp hx with rfl | hx
    · obtain ⟨d, hd, hvisit⟩ := hy
      exact ⟨d, hd, visit, hvisit⟩
    · exact ih hx

lemma mem_slots_of_mem_links {a : Site} {x : Link} (hx : x ∈ p.links a) :
    (x.slot, x.site) ∈ p.slots a :=
  List.mem_of_getElem? (mem_numbered.mp hx)

/-- A visit that comes to an end goes along every trail. -/
lemma length_lt_of_visit {slot : Slot} {a : Site} {places : List Place} {t : List Link}
    (h : p.visit depth (p.place around (slot, a)) = some places) (ht : p.Follows (p.links a) t) :
    t.length < depth := by
  induction t generalizing around depth slot a places with
  | nil =>
    cases depth with
    | zero => simp [visit] at h
    | succ d => exact d.succ_pos
  | cons x t ih =>
    obtain ⟨below, -, hcovers⟩ := visit_cases h
    obtain ⟨d, hd, visit, hvisit⟩ := hcovers.exists_visit (mem_slots_of_mem_links ht.1)
    exact (Nat.succ_le_of_lt (ih hvisit ht.2)).trans_lt hd

/-- The clause around the end of a trail. -/
def clauseAt (p : Program) (t : List Link) : Option Clause := (clauseAround t).bind p.clause?

lemma clauseAt_concat (t : List Link) (x : Link) :
    p.clauseAt (t ++ [x]) = p.inside (p.clauseAt t) x.slot := by
  obtain ⟨i, slot, a⟩ := x
  simp only [clauseAt, clauseAround, List.map_append, List.map_cons, List.map_nil,
    List.reverse_append, List.reverse_cons, List.reverse_nil, List.nil_append,
    List.singleton_append]
  cases slot <;> simp [List.find?, Slot.isClause, inside, clause?]

/-- `f` tells of the places that a walk meets what `g` tells of the trails to them. -/
structure Tells {β : Type} (p : Program) (f : Place → Option β) (g : List Link → Option β) :
    Prop where
  cases : ∀ x : Place, x.node.isCase = true → f x = none
  own : ∀ (t : List Link) (x : Link), (p.place (p.clauseAt t) (x.slot, x.site) ::
    p.leaves (p.clauseAt (t ++ [x])) x.site).filterMap f = (g (t ++ [x])).toList
  /-- A node of which its name or jump is told has no nodes in it, so that nothing comes between. -/
  alone : ∀ a clause, p.slots a = [] ∨ (p.leaves clause a).filterMap f = []

section Tells

variable {β : Type} {f : Place → Option β} {g : List Link → Option β} (h : p.Tells f g)
include h

/-- What is told of a node and of the places below it is told of the trails that lead there. -/
lemma Tells.filterMap_node {t : List Link} {x : Link} {below : List Place} {n : Nat}
    (hbelow : below.filterMap f =
      ((p.links x.site).flatMap (p.trailsFrom n)).filterMap fun u => g ((t ++ [x]) ++ u)) :
    (p.place (p.clauseAt t) (x.slot, x.site) :: below ++
        p.leaves (p.clauseAt (t ++ [x])) x.site).filterMap f =
      (p.trailsFrom (n + 1) x).filterMap fun u => g (t ++ u) := by
  set here := p.place (p.clauseAt t) (x.slot, x.site) with hhere
  set own := p.leaves (p.clauseAt (t ++ [x])) x.site with hown
  -- of a node without nodes in it nothing is told below, and of any other nothing at its end
  have hswap : (below ++ own).filterMap f = (own ++ below).filterMap f := by
    rw [List.filterMap_append, List.filterMap_append]
    rcases h.alone x.site (p.clauseAt (t ++ [x])) with hslots | hleaves
    · have hnone : below.filterMap f = [] := by
        rw [hbelow, links, hslots]
        rfl
      simp [hnone]
    · simp [hown, hleaves]
  have htrails : (p.trailsFrom (n + 1) x).filterMap (fun u => g (t ++ u)) =
      (g (t ++ [x])).toList ++
        ((p.links x.site).flatMap (p.trailsFrom n)).filterMap fun u => g (t ++ x :: u) := by
    rw [trailsFrom, List.filterMap_cons, List.filterMap_map]
    cases g (t ++ [x]) <;> rfl
  calc (here :: below ++ own).filterMap f
      = ([here] ++ (below ++ own)).filterMap f := by simp
    _ = (here :: own).filterMap f ++ below.filterMap f := by
        rw [List.filterMap_append, hswap, ← List.filterMap_append, ← List.filterMap_append]
        simp
    _ = (p.trailsFrom (n + 1) x).filterMap fun u => g (t ++ u) := by
        rw [hhere, hown, h.own, hbelow, htrails]
        simp

/-- What is told of the places below a node is told of the trails that lead there. -/
theorem Tells.filterMap_covers {t ls : List Link} {places : List Place} {n : Nat}
    (hcovers : p.Covers (p.clauseAt t) depth (ls.map fun x => (x.slot, x.site)) places)
    (hn : depth ≤ n + 1) :
    places.filterMap f = (ls.flatMap (p.trailsFrom n)).filterMap fun u => g (t ++ u) := by
  induction depth using Nat.strong_induction_on generalizing t ls places n with
  | _ depth ih =>
    obtain ⟨visits, hvisits, heq⟩ := hcovers
    rw [List.forall₂_map_left_iff] at hvisits
    rw [← filterMap_apartFromCases h.cases, heq, filterMap_apartFromCases h.cases]
    clear heq
    induction hvisits with
    | nil => rfl
    | @cons x visit xs visits hx _ ihxs =>
      rw [List.flatten_cons, List.filterMap_append, List.flatMap_cons, List.filterMap_append, ihxs]
      congr 1
      obtain ⟨d, hd, hvisit⟩ := hx
      obtain ⟨below, rfl, hbelow⟩ := visit_cases hvisit
      obtain ⟨n, rfl⟩ : ∃ m, n = m + 1 := by
        cases n with
        | zero =>
          obtain rfl : d = 0 := by omega
          simp [Program.visit] at hvisit
        | succ m => exact ⟨m, rfl⟩
      rw [← map_numbered (p.slots x.site)] at hbelow
      rw [← clauseAt_concat] at hbelow ⊢
      exact h.filterMap_node (ih d hd hbelow (by omega))

end Tells

end Program

/-! ### The end of the walk -/

/-- The levels of a walk that a node takes. The cases of a switch are on a level of their own. -/
def Site.levels : Site → Nat
  | .stmt _ => 2
  | _ => 1

namespace Program

variable {p : Program} {around : Option Clause}

lemma visit_succ_isSome_iff {d : Nat} {x : Place} :
    (p.visit (d + 1) x).isSome ↔ ∀ y ∈ p.parts x, (p.visit d y).isSome := by
  rw [visit, Option.isSome_map, gather_isSome_iff]

lemma visit_succ_of_visit {d : Nat} {x : Place} (h : (p.visit d x).isSome) :
    (p.visit (d + 1) x).isSome := by
  induction d generalizing x with
  | zero => simp [visit] at h
  | succ d ih =>
    rw [visit_succ_isSome_iff] at h ⊢
    exact fun y hy => ih (h y hy)

lemma visit_isSome_of_slots {d : Nat} (hd : 0 < d) {slot : Slot} {a : Site}
    (h : ∀ y ∈ p.slots a, (p.visit d (p.place (p.inside around slot) y)).isSome) :
    (p.visit (d + a.levels) (p.place around (slot, a))).isSome := by
  have hslots : ∀ x ∈ (p.slots a).map (p.place (p.inside around slot)), (p.visit d x).isSome := by
    intro x hx
    obtain ⟨y, hy, rfl⟩ := List.mem_map.mp hx
    exact h y hy
  cases a with
  | expr e =>
    refine visit_succ_isSome_iff.mpr fun x hx => ?_
    rw [parts_expr] at hx
    rcases List.mem_append.mp hx with hx | hx
    · exact hslots x hx
    · obtain ⟨d, rfl⟩ := Nat.exists_eq_succ_of_ne_zero hd.ne'
      simp [visit_succ_isSome_iff, parts_of_mem_leaves hx]
  | symbol v =>
    refine visit_succ_isSome_iff.mpr fun x hx => ?_
    rw [parts_symbol] at hx
    exact hslots x hx
  | stmt s =>
    refine visit_succ_isSome_iff.mpr fun x hx => ?_
    cases hs : p.stmt? s with
    | none => simp [parts, place, Site.node, hs] at hx
    | some y =>
      by_cases hy : y.isSwitch = false
      · rw [parts_stmt hs hy] at hx
        exact visit_succ_of_visit (hslots x hx)
      · cases y with
        | switch value cases defaultBody line =>
          rw [slots_switch hs] at h
          rw [parts_switch hs] at hx
          simp only [List.cons_append, List.forall_mem_cons, List.forall_mem_append] at h
          simp only [List.cons_append, List.mem_cons, List.mem_append, List.mem_map] at hx
          obtain ⟨hvalue, hcases, hdefault⟩ := h
          rcases hx with rfl | ⟨c, hc, rfl⟩ | ⟨y, hy, rfl⟩
          · exact visit_succ_of_visit hvalue
          · -- one level for the case, and one for what stands in it
            refine visit_succ_isSome_iff.mpr fun x hx => ?_
            rw [parts_case] at hx
            obtain ⟨y, hy, rfl⟩ := List.mem_map.mp hx
            exact hcases y (List.mem_flatMap.mpr ⟨c, hc, hy⟩)
          · exact visit_succ_of_visit (hdefault y (List.mem_map.mpr hy))
        | _ => simp [Stmt.isSwitch] at hy

/-- Nodes of the tables, each at most once, take less than the depth of the program. -/
lemma levels_lt_depth {above : List Site} (hnodup : above.Nodup) (hsites : above ⊆ p.sites) :
    (above.map Site.levels).sum < p.depth := by
  have hall : (p.sites.map Site.levels).sum + 1 = p.depth := by
    simp [sites, exprIds, stmtIds, symbolIds, depth, Site.levels, Function.comp_def]
    omega
  obtain ⟨l, hperm, hsub⟩ := hnodup.subperm hsites
  have hle := (hsub.map Site.levels).sum_le_sum (by simp)
  rw [(hperm.map Site.levels).sum_eq] at hle
  omega

lemma expr_mem_sites {e : ExprId} : .expr e ∈ p.sites ↔ (p.expr? e).isSome := by
  obtain ⟨i⟩ := e
  simp [sites, exprIds, expr?]

lemma stmt_mem_sites {s : StmtId} : .stmt s ∈ p.sites ↔ (p.stmt? s).isSome := by
  obtain ⟨i⟩ := s
  simp [sites, stmtIds, stmt?]

lemma symbol_mem_sites {v : SymbolId} : .symbol v ∈ p.sites ↔ (p.symbol? v).isSome := by
  obtain ⟨i⟩ := v
  simp [sites, symbolIds, symbol?]

lemma parts_of_not_mem_sites {a : Site} (ha : a ∉ p.sites) (slot : Slot) :
    p.parts (p.place around (slot, a)) = [] := by
  cases a with
  | expr e => simp_all [parts, place, Site.node, expr_mem_sites]
  | stmt s => simp_all [parts, place, Site.node, stmt_mem_sites]
  | symbol v => simp_all [parts, place, Site.node, symbol_mem_sites]

/-- Nothing at or below a node stands below itself. -/
def AcyclicFrom (p : Program) (a : Site) : Prop :=
  ∀ b, Relation.ReflTransGen (fun a b => b ∈ p.partsOf a) a b →
    ¬ Relation.TransGen (fun a b => b ∈ p.partsOf a) b b

lemma AcyclicFrom.part {a b : Site} (h : p.AcyclicFrom a) (hb : b ∈ p.partsOf a) :
    p.AcyclicFrom b :=
  fun c hc => h c (.head hb hc)

lemma Acyclic.acyclicFrom (hp : p.Acyclic) {a : Site} (ha : p.Reachable a) : p.AcyclicFrom a := by
  intro b hb
  refine hp b ?_
  induction hb with
  | refl => exact ha
  | tail _ hpart ih => exact ih.part hpart

lemma AcyclicFrom.visit_isSome {n : Nat} {slot : Slot} {a : Site} {above : List Site}
    (ha : p.AcyclicFrom a) (hnodup : above.Nodup) (hsites : above ⊆ p.sites)
    (habove : ∀ b ∈ above, Relation.TransGen (fun a b => b ∈ p.partsOf a) b a)
    (hn : p.depth ≤ (above.map Site.levels).sum + n) :
    (p.visit n (p.place around (slot, a))).isSome := by
  induction n using Nat.strong_induction_on generalizing around slot a above with
  | _ n ih =>
    by_cases hmem : a ∈ p.sites
    · -- a node that stands below itself would be on a cycle
      have hnot : a ∉ above := fun h => ha a .refl (habove a h)
      have hcons : (a :: above).Nodup := List.nodup_cons.mpr ⟨hnot, hnodup⟩
      have hsub : a :: above ⊆ p.sites := List.cons_subset.mpr ⟨hmem, hsites⟩
      have hlt := levels_lt_depth hcons hsub
      rw [List.map_cons, List.sum_cons] at hlt
      have hpos : 0 < a.levels := by cases a <;> simp [Site.levels]
      obtain ⟨d, rfl⟩ := Nat.exists_eq_add_of_le' (by omega : a.levels ≤ n)
      refine visit_isSome_of_slots (by omega) fun y hy => ?_
      have hpart : y.2 ∈ p.partsOf a := mem_partsOf_of_mem_slots hy
      refine ih d (by omega) (ha.part hpart) hcons hsub ?_ ?_
      · intro b hb
        rcases List.mem_cons.mp hb with rfl | hb
        · exact .single hpart
        · exact (habove b hb).tail hpart
      · rw [List.map_cons, List.sum_cons]
        omega
    · have hlt := levels_lt_depth hnodup hsites
      obtain ⟨d, rfl⟩ := Nat.exists_eq_succ_of_ne_zero (by omega : n ≠ 0)
      simp [visit_succ_isSome_iff, parts_of_not_mem_sites hmem]

/-- Below a node without cycles the walk comes to an end. -/
lemma AcyclicFrom.visit_depth_isSome {a : Site} (ha : p.AcyclicFrom a) :
    (p.visit p.depth (p.place none (.plain, a))).isSome :=
  ha.visit_isSome List.nodup_nil (List.nil_subset _) (by simp) (by simp)

/-- In a tree without cycles the walk comes to an end. -/
theorem Acyclic.walk_isSome (hp : p.Acyclic) : p.walk.isSome := by
  refine gather_isSome_iff.mpr fun n hn => ?_
  obtain ⟨v, hv, rfl⟩ := List.mem_map.mp hn
  exact (hp.acyclicFrom (.top hv)).visit_depth_isSome

/-! ### All occurrences -/

/-- All trails from the top, up to the depth of the program. -/
def occurrences (p : Program) : List (List Link) := p.top.flatMap (p.trailsFrom p.depth)

lemma covers_walk {places : List Place} (h : p.walk = some places) :
    p.Covers (p.clauseAt []) (p.depth + 1) (p.top.map fun x => (x.slot, x.site)) places := by
  refine .of_gather p.depth.lt_succ_self ?_
  have hroots : (p.top.map fun x => (x.slot, x.site)).map (p.place (p.clauseAt [])) =
      p.roots.map fun n => { node := n } := by
    rw [top, map_numbered, roots, List.map_map, List.map_map]
    rfl
  rw [hroots, gather_map]
  exact h

/-- What is told of the places of a walk is told of the occurrences. -/
lemma Tells.filterMap_walk {β : Type} {f : Place → Option β} {g : List Link → Option β}
    (h : p.Tells f g) {places : List Place} (hwalk : p.walk = some places) :
    places.filterMap f = p.occurrences.filterMap g :=
  h.filterMap_covers (covers_walk hwalk) le_rfl

lemma mem_occurrences (h : p.walk.isSome) {t : List Link} : t ∈ p.occurrences ↔ p.Occurs t := by
  obtain ⟨places, hwalk⟩ := Option.isSome_iff_exists.mp h
  unfold occurrences Occurs
  rw [List.mem_flatMap]
  constructor
  · rintro ⟨x, hx, ht⟩
    obtain ⟨rest, rfl, -, hrest⟩ := mem_trailsFrom.mp ht
    exact ⟨by simp, hx, hrest⟩
  · rintro ⟨hne, ht⟩
    cases t with
    | nil => exact absurd rfl hne
    | cons x rest =>
      have hx : (x.slot, x.site) ∈ p.top.map fun x => (x.slot, x.site) := List.mem_map_of_mem ht.1
      obtain ⟨d, hd, visit, hvisit⟩ := (covers_walk hwalk).exists_visit hx
      have hlen := length_lt_of_visit hvisit ht.2
      exact ⟨x, ht.1, mem_trailsFrom.mpr ⟨rest, rfl, by omega, ht.2⟩⟩

lemma pairwise_occurrences (p : Program) : p.occurrences.Pairwise WrittenBefore :=
  pairwise_flatMap_trailsFrom (pairwise_numbered _) (pairwise_trailsFrom p.depth)

lemma headsBlock_occurrences {t : List Link} (ht : t ∈ p.occurrences) :
    HeadsBlock p.occurrences t :=
  headsBlock_flatMap (headsBlock_trailsFrom p.depth) ht

end Program

end NameBinding
