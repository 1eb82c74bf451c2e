import NameBinding.Proofs.Occurrences
import NameBinding.Walk

/-!
What a walk meets when it visits a node: the node with the clause around it, then all that stands in
it, then the name that it uses or the jump that it makes.
-/

namespace NameBinding

/-! ### Lists of results -/

section Gather

variable {α β : Type} {f : α → Option (List β)}

lemma gather_append (xs ys : List α) : gather f (xs ++ ys) =
    (gather f xs).bind fun as => (gather f ys).map (as ++ ·) := by
  induction xs with
  | nil => simp
  | cons x xs ih =>
    simp only [List.cons_append, gather_cons, ih]
    cases f x <;> cases gather f xs <;> cases gather f ys <;> simp

lemma gather_map {γ : Type} (g : γ → α) (xs : List γ) :
    gather f (xs.map g) = gather (fun x => f (g x)) xs := by
  induction xs with
  | nil => rfl
  | cons x xs ih => rw [List.map_cons, gather_cons, gather_cons, ih]

lemma gather_isSome_iff {xs : List α} : (gather f xs).isSome ↔ ∀ x ∈ xs, (f x).isSome := by
  induction xs with
  | nil => simp
  | cons x xs ih =>
    rw [gather_cons, List.forall_mem_cons, ← ih]
    cases f x <;> cases gather f xs <;> simp

end Gather

/-! ### Clauses of trails -/

def Site.node : Site → Node
  | .expr e => .expr e
  | .stmt s => .stmt s
  | .symbol v => .symbol v

/-- The expression, statement or symbol that a node is. -/
def Node.site? : Node → Option Site
  | .expr e => some (.expr e)
  | .stmt s => some (.stmt s)
  | .symbol v => some (.symbol v)
  | _ => none

def Slot.isClause : Slot → Bool
  | .plain => false
  | _ => true

/-- The innermost clause around the end of a trail. -/
def clauseAround (t : List Link) : Option Slot := (t.map Link.slot).reverse.find? Slot.isClause

namespace Program

/-- Whether a statement is a switch with a default clause, be it empty. -/
def hasDefault (p : Program) (s : StmtId) : Bool :=
  match p.stmt? s with
  | some (.switch _ _ defaultBody _) => defaultBody.isSome
  | _ => false

/-- Whether the case at an index of a switch is its last one. -/
def isLastCase (p : Program) (s : StmtId) (index : Nat) : Bool :=
  match p.stmt? s with
  | some (.switch _ cases _ _) => index + 1 = cases.length
  | _ => false

/-- The clause of a switch that a slot belongs to. -/
def clause? (p : Program) : Slot → Option Clause
  | .plain => none
  | .caseBody s _ | .fallthrough s _ => some (.case (p.hasDefault s))
  | .defaultBody _ => some .default

/-- Whether the last case of a switch falls through to what stands in a slot. -/
def endsLastCase (p : Program) : Slot → Bool
  | .fallthrough s index => p.isLastCase s index
  | _ => false

/-- The clause around what stands in a slot, in a node that has `around` around it. -/
def inside (p : Program) (around : Option Clause) (slot : Slot) : Option Clause :=
  (p.clause? slot).or around

/-- The place at which the walk meets a node. -/
def place (p : Program) (around : Option Clause) (x : Slot × Site) : Place where
  node := x.2.node
  clause := p.inside around x.1
  afterLastCase := p.endsLastCase x.1

/-- The place at which the walk meets a case of the switch `s`. -/
def casePlace (p : Program) (around : Option Clause) (s : StmtId) (c : Case × Nat) : Place where
  node := .case c.1 (p.isLastCase s c.2) (p.hasDefault s)
  clause := around

/-- The places of the name that a node uses and of the jump that it makes. -/
def leaves (p : Program) (around : Option Clause) : Site → List Place
  | .expr e =>
    ((p.expr? e).map fun x =>
      (x.reference?.map fun r => Node.reference e r.name).toList ++
        if x.isGotoDefault then [.gotoDefault e] else []).getD [] |>.map fun n =>
          { node := n, clause := around }
  | _ => []

variable {p : Program} {around : Option Clause}

/-! ### The parts of a place -/

lemma parts_expr (slot : Slot) (e : ExprId) : p.parts (p.place around (slot, .expr e)) =
    (p.slots (.expr e)).map (p.place (p.inside around slot)) ++
      p.leaves (p.inside around slot) (.expr e) := by
  cases he : p.expr? e with
  | none => simp [parts, place, Site.node, slots, operands, leaves, he]
  | some x =>
    simp [parts, place, Site.node, slots, operands, leaves, he, exprParts, inside, clause?,
      endsLastCase]

lemma symbolParts_eq (sym : Symbol) : p.symbolParts sym = (p.written sym.kind).map Site.node := by
  obtain ⟨n, line, kind⟩ := sym
  cases kind <;> simp [symbolParts, written, SymbolKind.symbols, SymbolKind.exprs, SymbolKind.stmts,
    Function.comp_def, Site.node]

lemma parts_symbol (slot : Slot) (v : SymbolId) : p.parts (p.place around (slot, .symbol v)) =
    (p.slots (.symbol v)).map (p.place (p.inside around slot)) := by
  cases hv : p.symbol? v with
  | none => simp [parts, place, Site.node, slots, kind?, hv]
  | some sym =>
    have hparts : p.parts (p.place around (slot, .symbol v)) =
        (p.symbolParts sym).map fun n => { node := n, clause := p.inside around slot } := by
      simp [parts, place, Site.node, hv]
    rw [hparts, symbolParts_eq, List.map_map, slots, kind?, hv, Option.map_some, Option.map_some,
      Option.getD_some, List.map_map]
    rfl

lemma stmtParts_eq {x : Stmt} (hx : x.isSwitch = false) :
    stmtParts x = x.written.map Site.node := by
  cases x with
  | switch value cases defaultBody line => simp [Stmt.isSwitch] at hx
  | _ => simp [stmtParts, Stmt.written, Stmt.exprs, Stmt.children, Stmt.declared?,
      Function.comp_def, Site.node]

lemma parts_stmt {slot : Slot} {s : StmtId} {x : Stmt} (hs : p.stmt? s = some x)
    (hx : x.isSwitch = false) : p.parts (p.place around (slot, .stmt s)) =
      (p.slots (.stmt s)).map (p.place (p.inside around slot)) := by
  have hslots : p.slots (.stmt s) = x.written.map fun a => (.plain, a) := by
    cases x with
    | switch value cases defaultBody line => simp [Stmt.isSwitch] at hx
    | _ => simp [slots, hs, Stmt.slots]
  have hparts : p.parts (p.place around (slot, .stmt s)) =
      (stmtParts x).map fun n => { node := n, clause := p.inside around slot } := by
    cases x with
    | switch value cases defaultBody line => simp [Stmt.isSwitch] at hx
    | _ => simp [parts, place, Site.node, hs]
  rw [hparts, hslots, stmtParts_eq hx, List.map_map, List.map_map]
  rfl

lemma parts_case (s : StmtId) (c : Case × Nat) : p.parts (p.casePlace around s c) =
    (Stmt.caseSlots s c).map (p.place around) := by
  simp [parts, casePlace, Stmt.caseSlots, Function.comp_def, place, inside, clause?, endsLastCase,
    Site.node]

section Switch

variable {s : StmtId} {value : ExprId} {cases : List Case} {defaultBody : Option (List StmtId)}
  {line : Line} (hs : p.stmt? s = some (.switch value cases defaultBody line))
include hs

lemma caseNodes_eq (cs : List Case) (n : Nat) (hn : n + cs.length = cases.length) :
    caseNodes defaultBody.isSome cs =
      (cs.zipIdx n).map fun c => .case c.1 (p.isLastCase s c.2) (p.hasDefault s) := by
  induction cs generalizing n with
  | nil => rfl
  | cons c cs ih =>
    cases cs with
    | nil => simp_all [caseNodes, isLastCase, hasDefault]
    | cons c' cs =>
      have hlast : ¬ n + 1 = cases.length := by
        simp only [List.length_cons] at hn
        omega
      have hrest := ih (n + 1) (by simp only [List.length_cons] at hn ⊢; omega)
      rw [caseNodes, hrest, List.zipIdx_cons, List.map_cons]
      · simp [isLastCase, hasDefault, hs, hlast]
      · simp

lemma parts_switch (slot : Slot) : p.parts (p.place around (slot, .stmt s)) =
    p.place (p.inside around slot) (.plain, .expr value) ::
      cases.zipIdx.map (p.casePlace (p.inside around slot) s) ++
      ((defaultBody.getD []).map fun t => (.defaultBody s, .stmt t)).map
        (p.place (p.inside around slot)) := by
  simp only [parts, place, Site.node, hs]
  rw [caseNodes_eq hs cases 0 (Nat.zero_add _)]
  simp [casePlace, Function.comp_def, place, inside, clause?, endsLastCase, Site.node]

lemma slots_switch : p.slots (.stmt s) = (.plain, .expr value) ::
    cases.zipIdx.flatMap (Stmt.caseSlots s) ++
      (defaultBody.getD []).map fun t => (.defaultBody s, .stmt t) := by
  simp [slots, hs, Stmt.slots]

end Switch

end Program

/-! ### What a visit meets -/

def Node.isCase : Node → Bool
  | .case _ _ _ => true
  | _ => false

/-- The places other than those of cases. -/
def apartFromCases (places : List Place) : List Place := places.filter fun x => !x.node.isCase

@[simp] lemma apartFromCases_append (xs ys : List Place) :
    apartFromCases (xs ++ ys) = apartFromCases xs ++ apartFromCases ys :=
  List.filter_append ..

/-- Cases do not matter to what is told of no case. -/
lemma filterMap_apartFromCases {β : Type} {f : Place → Option β}
    (hf : ∀ x : Place, x.node.isCase = true → f x = none) (places : List Place) :
    (apartFromCases places).filterMap f = places.filterMap f := by
  rw [apartFromCases, List.filterMap_filter]
  refine List.filterMap_congr fun x _ => ?_
  cases hx : x.node.isCase with
  | true => simp [hf x hx]
  | false => simp

namespace Program

variable {p : Program} {around : Option Clause} {depth : Nat}

/-- Apart from cases, what is met is one visit after the other to the nodes of a list, each to less
than `depth` levels. -/
def Covers (p : Program) (around : Option Clause) (depth : Nat) (xs : List (Slot × Site))
    (places : List Place) : Prop :=
  ∃ visits : List (List Place),
    List.Forall₂ (fun x visit => ∃ d < depth, p.visit d (p.place around x) = some visit) xs visits ∧
      apartFromCases places = apartFromCases visits.flatten

lemma Covers.nil : p.Covers around depth [] [] := ⟨[], .nil, rfl⟩

lemma Covers.append {xs ys : List (Slot × Site)} {as bs : List Place}
    (hx : p.Covers around depth xs as) (hy : p.Covers around depth ys bs) :
    p.Covers around depth (xs ++ ys) (as ++ bs) := by
  obtain ⟨us, hus, has⟩ := hx
  obtain ⟨vs, hvs, hbs⟩ := hy
  exact ⟨us ++ vs, List.rel_append hus hvs, by simp [has, hbs]⟩

lemma Covers.of_visit {d : Nat} (hd : d < depth) {x : Slot × Site} {places : List Place}
    (h : p.visit d (p.place around x) = some places) : p.Covers around depth [x] places :=
  ⟨[places], .cons ⟨d, hd, h⟩ .nil, by simp⟩

lemma Covers.of_gather {d : Nat} (hd : d < depth) {xs : List (Slot × Site)} {places : List Place}
    (h : gather (p.visit d) (xs.map (p.place around)) = some places) :
    p.Covers around depth xs places := by
  induction xs generalizing places with
  | nil =>
    obtain rfl := Option.some.inj h
    exact .nil
  | cons x xs ih =>
    rw [List.map_cons, gather_cons] at h
    obtain ⟨as, has, h⟩ := Option.bind_eq_some_iff.mp h
    obtain ⟨bs, hbs, rfl⟩ := Option.map_eq_some_iff.mp h
    exact (Covers.of_visit hd has).append (ih hbs)

/-- A visit to a case covers what stands in it. -/
lemma Covers.of_case {d : Nat} (hd : d < depth) {s : StmtId} {c : Case × Nat} {places : List Place}
    (h : p.visit d (p.casePlace around s c) = some places) :
    p.Covers around depth (Stmt.caseSlots s c) places := by
  cases d with
  | zero => simp [visit] at h
  | succ d =>
    rw [visit, parts_case] at h
    obtain ⟨below, hbelow, rfl⟩ := Option.map_eq_some_iff.mp h
    obtain ⟨visits, hvisits, heq⟩ := Covers.of_gather (Nat.lt_of_succ_lt hd) hbelow
    exact ⟨visits, hvisits, heq ▸ rfl⟩

lemma Covers.of_cases {d : Nat} (hd : d < depth) {s : StmtId} {cs : List (Case × Nat)}
    {places : List Place} (h : gather (p.visit d) (cs.map (p.casePlace around s)) = some places) :
    p.Covers around depth (cs.flatMap (Stmt.caseSlots s)) places := by
  induction cs generalizing places with
  | nil =>
    obtain rfl := Option.some.inj h
    exact .nil
  | cons c cs ih =>
    rw [List.map_cons, gather_cons] at h
    obtain ⟨as, has, h⟩ := Option.bind_eq_some_iff.mp h
    obtain ⟨bs, hbs, rfl⟩ := Option.map_eq_some_iff.mp h
    exact (Covers.of_case hd has).append (ih hbs)

lemma parts_of_mem_leaves {a : Site} {x : Place} (hx : x ∈ p.leaves around a) : p.parts x = [] := by
  cases a with
  | expr e =>
    obtain ⟨n, hn, rfl⟩ := List.mem_map.mp hx
    cases he : p.expr? e with
    | none => simp [he] at hn
    | some y =>
      simp only [he, Option.map_some, Option.getD_some, List.mem_append, Option.mem_toList,
        Option.map_eq_some_iff] at hn
      rcases hn with ⟨r, -, rfl⟩ | hn
      · rfl
      · split at hn
        · obtain rfl := List.mem_singleton.mp hn
          rfl
        · simp at hn
  | _ => simp [leaves] at hx

/-- Nodes without parts are met alone. -/
lemma eq_of_gather_of_parts {d : Nat} {xs places : List Place} (hxs : ∀ x ∈ xs, p.parts x = [])
    (h : gather (p.visit d) xs = some places) : places = xs := by
  induction xs generalizing places with
  | nil => exact (Option.some.inj h).symm
  | cons x xs ih =>
    rw [gather_cons] at h
    obtain ⟨as, has, h⟩ := Option.bind_eq_some_iff.mp h
    obtain ⟨bs, hbs, rfl⟩ := Option.map_eq_some_iff.mp h
    obtain ⟨hx, hxs⟩ := List.forall_mem_cons.mp hxs
    cases d with
    | zero => simp [visit] at has
    | succ d =>
      obtain rfl : [x] = as := by simpa [visit, hx] using has
      rw [ih hxs hbs]
      rfl

/-- What a visit to a node meets: the node, the nodes that stand in it, then its name or jump. -/
theorem visit_cases {slot : Slot} {a : Site} {places : List Place}
    (h : p.visit depth (p.place around (slot, a)) = some places) :
    ∃ below, places = p.place around (slot, a) :: below ++ p.leaves (p.inside around slot) a ∧
      p.Covers (p.inside around slot) depth (p.slots a) below := by
  cases depth with
  | zero => simp [visit] at h
  | succ d =>
    rw [visit] at h
    obtain ⟨met, hmet, rfl⟩ := Option.map_eq_some_iff.mp h
    cases a with
    | expr e =>
      rw [parts_expr, gather_append] at hmet
      obtain ⟨below, hbelow, hmet⟩ := Option.bind_eq_some_iff.mp hmet
      obtain ⟨own, hown, rfl⟩ := Option.map_eq_some_iff.mp hmet
      obtain rfl := eq_of_gather_of_parts (fun x => parts_of_mem_leaves) hown
      exact ⟨below, rfl, .of_gather d.lt_succ_self hbelow⟩
    | symbol v =>
      rw [parts_symbol] at hmet
      exact ⟨met, by simp [leaves], .of_gather d.lt_succ_self hmet⟩
    | stmt s =>
      refine ⟨met, by simp [leaves], ?_⟩
      cases hs : p.stmt? s with
      | none =>
        obtain rfl : [] = met := by simpa [parts, place, Site.node, hs] using hmet
        simpa [slots, hs] using Covers.nil
      | some x =>
        by_cases hx : x.isSwitch = false
        · rw [parts_stmt hs hx] at hmet
          exact .of_gather d.lt_succ_self hmet
        · cases x with
          | switch value cases defaultBody line =>
            rw [parts_switch hs, List.cons_append, gather_cons, gather_append] at hmet
            obtain ⟨as, has, hmet⟩ := Option.bind_eq_some_iff.mp hmet
            obtain ⟨rest, hrest, rfl⟩ := Option.map_eq_some_iff.mp hmet
            obtain ⟨bs, hbs, hrest⟩ := Option.bind_eq_some_iff.mp hrest
            obtain ⟨cs, hcs, rfl⟩ := Option.map_eq_some_iff.mp hrest
            rw [slots_switch hs]
            exact (Covers.of_visit d.lt_succ_self has).append
              ((Covers.of_cases d.lt_succ_self hbs).append (.of_gather d.lt_succ_self hcs))
          | _ => simp [Stmt.isSwitch] at hx

end Program

end NameBinding
