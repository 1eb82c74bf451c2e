import NameBinding.Proofs.Reachability

/-!
Occurrences of nodes. A shared node stands in several places, so an occurrence is not a node but the
trail that leads to it from the classes and enums: a row of links, each of which stands in the node
of the link before. Trails are in the order in which the program is written; a trail stands right
before those that lead on from it.
-/

namespace NameBinding

/-- The part of a node in which another one stands. The value of a switch and the values of its
cases are in none of its clauses. -/
inductive Slot
  | plain
  | caseBody (switch : StmtId) (index : Nat)
  | fallthrough (switch : StmtId) (index : Nat)
  | defaultBody (switch : StmtId)
deriving DecidableEq

/-- One link of a trail: a node, and where it stands in the one before. -/
structure Link where
  /-- The position among all that stands in the node before. -/
  position : Nat
  slot : Slot
  site : Site
deriving DecidableEq

/-! ### What stands in a node -/

namespace Stmt

/-- What stands in a statement other than a switch, as it is written. -/
def written : Stmt → List Site
  | doWhile body cond _ => [.stmt body, .expr cond]
  | forLoop init cond advance body _ =>
    init.toList.map .stmt ++ (cond.toList ++ advance.toList).map .expr ++ [.stmt body]
  | x => x.exprs.map .expr ++ x.children.map .stmt ++ x.declared?.toList.map .symbol

/-- What stands in the case at some index of the switch `s`. -/
def caseSlots (s : StmtId) (c : Case × Nat) : List (Slot × Site) :=
  c.1.values.map (fun e => (Slot.plain, Site.expr e)) ++
    c.1.body.map (fun t => (Slot.caseBody s c.2, Site.stmt t)) ++
    c.1.fallthrough.toList.map fun e => (Slot.fallthrough s c.2, Site.expr e)

/-- What stands in the statement `s`, as it is written. -/
def slots (s : StmtId) : Stmt → List (Slot × Site)
  | switch value cases defaultBody _ =>
    (.plain, .expr value) :: cases.zipIdx.flatMap (caseSlots s) ++
      (defaultBody.getD []).map fun t => (.defaultBody s, .stmt t)
  | x => x.written.map fun a => (.plain, a)

end Stmt

namespace Program

/-- What stands in a symbol, as it is written. -/
def written (p : Program) : SymbolKind → List Site
  | .enumType t => (p.members t.scope).map .symbol
  | .classType c =>
    (c.consts ++ c.fields ++ c.constructor.toList).map .symbol ++
      ((c.destructor.map Block.statements).getD []).map .stmt ++ c.methods.map .symbol
  | k => k.symbols.map .symbol ++ k.exprs.map .expr ++ k.stmts.map .stmt

/-- What stands in a node, as it is written. -/
def slots (p : Program) : Site → List (Slot × Site)
  | .expr e => (p.operands e).map fun c => (.plain, .expr c)
  | .stmt s => ((p.stmt? s).map (Stmt.slots s)).getD []
  | .symbol v => (((p.kind? v).map p.written).getD []).map fun a => (.plain, a)

end Program

/-- Links to the nodes of a list, numbered in order. -/
def numbered (xs : List (Slot × Site)) : List Link :=
  xs.zipIdx.map fun x => ⟨x.2, x.1.1, x.1.2⟩

namespace Program

variable {p : Program}

/-- The links that lead on from a node. -/
def links (p : Program) (a : Site) : List Link := numbered (p.slots a)

/-- The links to the classes, then to the enums. -/
def top (p : Program) : List Link :=
  numbered ((p.classes ++ p.enums).map fun v => (.plain, .symbol v))

/-- A row of links: the first is among `ls`, and each other one stands in the node before. -/
def Follows (p : Program) : List Link → List Link → Prop
  | _, [] => True
  | ls, x :: t => x ∈ ls ∧ p.Follows (p.links x.site) t

/-- A trail from the top to a node. -/
def Occurs (p : Program) (t : List Link) : Prop := t ≠ [] ∧ p.Follows p.top t

/-- A tree without cycles: no node that can be reached stands below itself. -/
def Acyclic (p : Program) : Prop :=
  ∀ a, p.Reachable a → ¬ Relation.TransGen (fun a b => b ∈ p.partsOf a) a a

end Program

lemma mem_numbered {xs : List (Slot × Site)} {x : Link} :
    x ∈ numbered xs ↔ xs[x.position]? = some (x.slot, x.site) := by
  obtain ⟨i, slot, a⟩ := x
  simp [numbered, List.mk_mem_zipIdx_iff_getElem?]

lemma pairwise_numbered (xs : List (Slot × Site)) :
    (numbered xs).Pairwise fun x y => x.position < y.position := by
  have hpositions : (numbered xs).map Link.position = List.range' 0 xs.length := by
    rw [numbered, List.map_map]
    exact List.zipIdx_map_snd 0 xs
  rw [← List.pairwise_map (R := (· < ·)), hpositions]
  exact List.pairwise_lt_range'

lemma map_numbered (xs : List (Slot × Site)) :
    (numbered xs).map (fun x => (x.slot, x.site)) = xs := by
  rw [numbered, List.map_map]
  exact List.zipIdx_map_fst 0 xs

/-! ### Nodes that stand in others -/

namespace Program

variable {p : Program} {a b : Site} {slot : Slot}

lemma mem_written {x : Stmt} (h : b ∈ x.written) : (∃ e ∈ x.exprs, .expr e = b) ∨
    (∃ t ∈ x.children, .stmt t = b) ∨ ∃ v, x.declared? = some v ∧ .symbol v = b := by
  cases x with
  | doWhile body cond line =>
    simp only [Stmt.written, List.mem_cons, List.not_mem_nil, or_false] at h
    rcases h with rfl | rfl
    · exact .inr (.inl ⟨body, by simp [Stmt.children], rfl⟩)
    · exact .inl ⟨cond, by simp [Stmt.exprs], rfl⟩
  | forLoop init cond advance body line =>
    simp only [Stmt.written, List.mem_append, List.mem_map, List.mem_singleton] at h
    rcases h with (⟨t, ht, rfl⟩ | ⟨e, he, rfl⟩) | rfl
    · exact .inr (.inl ⟨t, List.mem_append_left _ ht, rfl⟩)
    · exact .inl ⟨e, List.mem_append.mpr he, rfl⟩
    · exact .inr (.inl ⟨body, by simp [Stmt.children], rfl⟩)
  | _ => simpa [Stmt.written, or_assoc] using h

lemma mem_slots_stmt {s : StmtId} {x : Stmt} (h : (slot, b) ∈ x.slots s) :
    (∃ e ∈ x.exprs, .expr e = b) ∨ (∃ t ∈ x.children, .stmt t = b) ∨
      ∃ v, x.declared? = some v ∧ .symbol v = b := by
  have hplain : ∀ {y : Stmt}, (slot, b) ∈ y.written.map (fun a => (Slot.plain, a)) →
      b ∈ y.written := fun h => by
    obtain ⟨a, ha, heq⟩ := List.mem_map.mp h
    exact (Prod.mk.inj heq).2 ▸ ha
  cases x with
  | switch value cases defaultBody line =>
    simp only [Stmt.slots, Stmt.caseSlots, List.cons_append, List.mem_cons, List.mem_append,
      List.mem_flatMap, List.mem_map, Prod.mk.injEq] at h
    have hcase : ∀ c : Case × Nat, c ∈ cases.zipIdx → c.1 ∈ cases := fun c hc =>
      List.mem_of_getElem? (List.mem_zipIdx_iff_getElem?.mp hc)
    rcases h with ⟨-, rfl⟩ | ⟨c, hc, (⟨e, he, -, rfl⟩ | ⟨t, ht, -, rfl⟩) | ⟨e, he, -, rfl⟩⟩ |
      ⟨t, ht, -, rfl⟩
    · exact .inl ⟨value, by simp [Stmt.exprs], rfl⟩
    · refine .inl ⟨e, List.mem_cons_of_mem _ (List.mem_flatMap.mpr ⟨c.1, hcase c hc, ?_⟩), rfl⟩
      exact List.mem_append_left _ he
    · have hbody := List.mem_flatMap.mpr ⟨c.1, hcase c hc, ht⟩
      exact .inr (.inl ⟨t, List.mem_append_left _ hbody, rfl⟩)
    · refine .inl ⟨e, List.mem_cons_of_mem _ (List.mem_flatMap.mpr ⟨c.1, hcase c hc, ?_⟩), rfl⟩
      exact List.mem_append_right _ he
    · exact .inr (.inl ⟨t, List.mem_append_right _ ht, rfl⟩)
  | _ => exact mem_written (hplain h)

lemma mem_written_symbol {k : SymbolKind} (h : b ∈ p.written k) :
    (∃ e ∈ k.exprs, .expr e = b) ∨ (∃ t ∈ k.stmts, .stmt t = b) ∨ (∃ v ∈ k.symbols, .symbol v = b) ∨
      ∃ t, k = .enumType t ∧ ∃ v ∈ p.members t.scope, .symbol v = b := by
  cases k with
  | enumType t => exact .inr (.inr (.inr ⟨t, rfl, List.mem_map.mp h⟩))
  | classType c =>
    simp only [written, List.mem_append, List.mem_map] at h
    rcases h with (⟨v, hv, rfl⟩ | ⟨t, ht, rfl⟩) | ⟨v, hv, rfl⟩
    · refine .inr (.inr (.inl ⟨v, ?_, rfl⟩))
      simp only [SymbolKind.symbols, List.mem_append]
      tauto
    · exact .inr (.inl ⟨t, ht, rfl⟩)
    · exact .inr (.inr (.inl ⟨v, List.mem_append_right _ hv, rfl⟩))
  | _ =>
    simp only [written, List.mem_append, List.mem_map] at h
    rcases h with (hv | he) | ht
    · exact .inr (.inr (.inl hv))
    · exact .inl he
    · exact .inr (.inl ht)

/-- What stands in a node is a part of it. -/
lemma mem_partsOf_of_mem_slots (h : (slot, b) ∈ p.slots a) : b ∈ p.partsOf a := by
  cases a with
  | expr e =>
    obtain ⟨c, hc, heq⟩ := List.mem_map.mp h
    exact List.mem_map.mpr ⟨c, hc, (Prod.mk.inj heq).2⟩
  | stmt s =>
    cases hs : p.stmt? s with
    | none => simp [slots, hs] at h
    | some x =>
      rw [slots, hs] at h
      simpa [partsOf, exprsAt, below, declares?, hs, or_assoc] using mem_slots_stmt h
  | symbol v =>
    obtain ⟨c, hc, heq⟩ := List.mem_map.mp h
    obtain ⟨-, rfl⟩ := Prod.mk.inj heq
    cases hv : p.symbol? v with
    | none => simp [kind?, hv] at hc
    | some sym =>
      rw [kind?, hv] at hc
      rcases mem_written_symbol hc with he | ht | hw | ⟨t, ht, hw⟩
      · simpa [partsOf, exprsAt, hv] using .inl he
      · simpa [partsOf, stmtsOf, hv] using .inr (.inl ht)
      · simpa [partsOf, symbolsOf, hv] using .inr (.inr (.inl hw))
      · have henum : p.enum? v = some t := by simp [enum?, hv, Symbol.enum?, ht]
        simpa [partsOf, symbolsOf, henum] using .inr (.inr (.inr hw))

/-! ### All trails up to a length -/

/-- The trails of at most `n` links that begin with `x`, in the order in which they are written. -/
def trailsFrom (p : Program) : Nat → Link → List (List Link)
  | 0, _ => []
  | n + 1, x => [x] :: ((p.links x.site).flatMap (p.trailsFrom n)).map (x :: ·)

lemma mem_trailsFrom {n : Nat} {x : Link} {t : List Link} : t ∈ p.trailsFrom n x ↔
    ∃ rest, t = x :: rest ∧ rest.length < n ∧ p.Follows (p.links x.site) rest := by
  induction n generalizing x t with
  | zero => simp [trailsFrom]
  | succ n ih =>
    simp only [trailsFrom, List.mem_cons, List.mem_map, List.mem_flatMap, ih]
    constructor
    · rintro (rfl | ⟨u, ⟨y, hy, rest, rfl, hlen, hrest⟩, rfl⟩)
      · exact ⟨[], rfl, Nat.succ_pos n, trivial⟩
      · exact ⟨y :: rest, rfl, Nat.succ_lt_succ hlen, hy, hrest⟩
    · rintro ⟨rest, rfl, hlen, hrest⟩
      cases rest with
      | nil => exact .inl rfl
      | cons y rest =>
        exact .inr ⟨y :: rest, ⟨y, hrest.1, rest, rfl, Nat.lt_of_succ_lt_succ hlen, hrest.2⟩, rfl⟩

end Program

/-- The positions of the links of a trail, from the top down. -/
def positions (t : List Link) : List Nat := t.map Link.position

/-- One trail is written before another: it leads to it, or it goes astray to an earlier node. -/
def WrittenBefore (t u : List Link) : Prop := positions t < positions u

lemma writtenBefore_cons {x y : Link} {t u : List Link} : WrittenBefore (x :: t) (y :: u) ↔
    x.position < y.position ∨ x.position = y.position ∧ WrittenBefore t u := by
  simp only [WrittenBefore, positions, List.map_cons]
  exact List.cons_lt_cons_iff

namespace Program

variable {p : Program}

lemma pairwise_flatMap_trailsFrom {n : Nat} {ls : List Link}
    (hls : ls.Pairwise fun x y => x.position < y.position)
    (htrails : ∀ x, (p.trailsFrom n x).Pairwise WrittenBefore) :
    (ls.flatMap (p.trailsFrom n)).Pairwise WrittenBefore := by
  refine List.pairwise_flatMap.mpr ⟨fun x _ => htrails x, hls.imp fun hxy t ht u hu => ?_⟩
  obtain ⟨t, rfl, -⟩ := mem_trailsFrom.mp ht
  obtain ⟨u, rfl, -⟩ := mem_trailsFrom.mp hu
  exact writtenBefore_cons.mpr (.inl hxy)

/-- The trails are in order, and none is there twice. -/
lemma pairwise_trailsFrom (n : Nat) (x : Link) : (p.trailsFrom n x).Pairwise WrittenBefore := by
  induction n generalizing x with
  | zero => exact .nil
  | succ n ih =>
    refine List.pairwise_cons.mpr ⟨fun t ht => ?_, List.pairwise_map.mpr ?_⟩
    · obtain ⟨u, hu, rfl⟩ := List.mem_map.mp ht
      obtain ⟨y, -, hu⟩ := List.mem_flatMap.mp hu
      obtain ⟨rest, rfl, -⟩ := mem_trailsFrom.mp hu
      exact writtenBefore_cons.mpr (.inr ⟨rfl, List.nil_lt_cons _ _⟩)
    · refine (pairwise_flatMap_trailsFrom (pairwise_numbered _) ih).imp fun h => ?_
      exact writtenBefore_cons.mpr (.inr ⟨rfl, h⟩)

end Program

/-- In a list of trails, `t` stands right before all that lead on from it. -/
def HeadsBlock (l : List (List Link)) (t : List Link) : Prop :=
  ∃ before inside after, l = before ++ t :: inside ++ after ∧
    ∀ u, u ∈ inside ↔ u ∈ l ∧ ∃ rest, rest ≠ [] ∧ u = t ++ rest

lemma headsBlock_singleton {l : List (List Link)} (h : [] ∉ l) (x : Link) :
    HeadsBlock ([x] :: l.map (x :: ·)) [x] := by
  refine ⟨[], l.map (x :: ·), [], by simp, fun u => ⟨fun hu => ?_, ?_⟩⟩
  · obtain ⟨rest, hrest, rfl⟩ := List.mem_map.mp hu
    exact ⟨List.mem_cons_of_mem _ hu, rest, fun hnil => h (hnil ▸ hrest), rfl⟩
  · rintro ⟨hu, rest, hrest, rfl⟩
    exact (List.mem_cons.mp hu).resolve_left fun heq => hrest (List.cons.inj heq).2

lemma HeadsBlock.cons {l : List (List Link)} {t : List Link} (h : HeadsBlock l t) (x : Link) :
    HeadsBlock ([x] :: l.map (x :: ·)) (x :: t) := by
  obtain ⟨before, inside, after, rfl, hinside⟩ := h
  refine ⟨[x] :: before.map (x :: ·), inside.map (x :: ·), after.map (x :: ·), by simp,
    fun u => ⟨fun hu => ?_, ?_⟩⟩
  · obtain ⟨w, hw, rfl⟩ := List.mem_map.mp hu
    obtain ⟨hmem, rest, hrest, rfl⟩ := (hinside w).mp hw
    exact ⟨List.mem_cons_of_mem _ (List.mem_map_of_mem hmem), rest, hrest, rfl⟩
  · rintro ⟨hu, rest, hrest, rfl⟩
    have hmap := (List.mem_cons.mp hu).resolve_left fun heq => by simp [hrest] at heq
    obtain ⟨w, hw, heq⟩ := List.mem_map.mp hmap
    obtain ⟨-, rfl⟩ := List.cons.inj heq
    exact List.mem_map_of_mem ((hinside _).mpr ⟨hw, rest, hrest, rfl⟩)

namespace Program

variable {p : Program}

lemma headsBlock_flatMap {n : Nat} {ls : List Link} {t : List Link}
    (hblock : ∀ x, ∀ t ∈ p.trailsFrom n x, HeadsBlock (p.trailsFrom n x) t)
    (h : t ∈ ls.flatMap (p.trailsFrom n)) : HeadsBlock (ls.flatMap (p.trailsFrom n)) t := by
  obtain ⟨y, hy, ht⟩ := List.mem_flatMap.mp h
  obtain ⟨before, inside, after, heq, hinside⟩ := hblock y t ht
  obtain ⟨l₁, l₂, hls⟩ := List.append_of_mem hy
  refine ⟨l₁.flatMap (p.trailsFrom n) ++ before, inside, after ++ l₂.flatMap (p.trailsFrom n),
    by simp [hls, heq], fun u => (hinside u).trans (and_congr_left ?_)⟩
  -- what leads on from `t` begins with the same link
  rintro ⟨rest, -, rfl⟩
  obtain ⟨t', rfl, -⟩ := mem_trailsFrom.mp ht
  refine ⟨fun hu => List.mem_flatMap.mpr ⟨y, hy, hu⟩, fun hu => ?_⟩
  obtain ⟨z, -, hz⟩ := List.mem_flatMap.mp hu
  obtain ⟨rest', hcons, -⟩ := mem_trailsFrom.mp hz
  obtain ⟨rfl, -⟩ := List.cons.inj hcons
  exact hz

lemma headsBlock_trailsFrom (n : Nat) (x : Link) :
    ∀ t ∈ p.trailsFrom n x, HeadsBlock (p.trailsFrom n x) t := by
  induction n generalizing x with
  | zero => simp [trailsFrom]
  | succ n ih =>
    intro t ht
    rcases List.mem_cons.mp ht with rfl | ht
    · refine headsBlock_singleton (fun h => ?_) x
      obtain ⟨y, -, hy⟩ := List.mem_flatMap.mp h
      obtain ⟨rest, hrest, -⟩ := mem_trailsFrom.mp hy
      simp at hrest
    · obtain ⟨u, hu, rfl⟩ := List.mem_map.mp ht
      exact (headsBlock_flatMap ih hu).cons x

end Program

end NameBinding
