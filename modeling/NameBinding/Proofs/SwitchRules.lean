import NameBinding.Proofs.WalkTrails
import NameBinding.Resolve.Switches

/-!
The rules of a switch, told by trails. A jump to the default clause belongs to the innermost clause
on the trail that leads to it: to a case of a switch, which must then have a default clause, or else
to none. And what a case falls through to may stand after the last case only if it is such a jump.
-/

namespace NameBinding

namespace Program

variable {p : Program}

/-! ### The rules -/

/-- Whether an expression is a jump to the default clause. -/
def isJump (p : Program) (e : ExprId) : Bool := ((p.expr? e).map Expr.isGotoDefault).getD false

/-- What is wrong with a jump from the innermost clause around it, if there is one. -/
def jumpFault? (p : Program) : Option Slot → Option Cause
  | some (.caseBody s _) | some (.fallthrough s _) =>
    if p.hasDefault s then none else some .jumpWithoutDefault
  | _ => some .jumpOutsideCase

/-- The rule that is broken at the end of a trail. -/
def brokenAt? (p : Program) (t : List Link) : Option Fault :=
  match t.getLast? with
  | some ⟨_, slot, .expr e⟩ =>
    if p.isJump e then (p.jumpFault? (clauseAround t)).map fun c => ⟨c, p.exprLine e, []⟩
    else if p.endsLastCase slot then some ⟨.fallFromLastCase, p.exprLine e, []⟩
    else none
  | _ => none

/-! ### The rules at the places of a walk -/

lemma jumpCause?_clauseAt (t : List Link) :
    Clause.jumpCause? (p.clauseAt t) = p.jumpFault? (clauseAround t) := by
  unfold clauseAt
  cases clauseAround t with
  | none => rfl
  | some slot =>
    cases slot with
    | plain | defaultBody s => rfl
    | caseBody s i | fallthrough s i =>
      cases h : p.hasDefault s <;> simp [clause?, jumpFault?, Clause.jumpCause?, h]

lemma switchFault?_place (around : Option Clause) (slot : Slot) (e : ExprId) :
    p.switchFault? (p.place around (slot, .expr e)) =
      if p.endsLastCase slot && !p.isJump e then some ⟨.fallFromLastCase, p.exprLine e, []⟩
      else none :=
  rfl

/-- Of the name and the jump of an expression only the jump can be wrong. -/
lemma filterMap_leaves (clause : Option Clause) (e : ExprId) :
    (p.leaves clause (.expr e)).filterMap p.switchFault? =
      if p.isJump e then
        ((Clause.jumpCause? clause).map fun c => ⟨c, p.exprLine e, []⟩).toList
      else [] := by
  have hgoto : p.switchFault? { node := .gotoDefault e, clause } =
      (Clause.jumpCause? clause).map fun c => ⟨c, p.exprLine e, []⟩ := rfl
  have hreference : ∀ n, p.switchFault? { node := .reference e n, clause } = none := fun _ => rfl
  cases he : p.expr? e with
  | none => simp [leaves, isJump, he]
  | some x =>
    cases hx : x.isGotoDefault <;> cases hr : x.reference? <;>
      cases hc : Clause.jumpCause? clause <;>
        simp [leaves, isJump, he, hx, hr, hgoto, hreference, hc]

/-- A jump has no operands. -/
lemma slots_of_isJump {e : ExprId} (h : p.isJump e = true) : p.slots (.expr e) = [] := by
  cases he : p.expr? e with
  | none => simp [isJump, he] at h
  | some x => cases x <;> simp_all [isJump, Expr.isGotoDefault, slots, operands, Expr.children]

lemma tells_switchFault? (p : Program) : p.Tells p.switchFault? p.brokenAt? where
  cases x hx := by
    obtain ⟨n, clause, after⟩ := x
    cases n <;> simp_all [Node.isCase, switchFault?]
  own t x := by
    obtain ⟨i, slot, a⟩ := x
    cases a with
    | expr e =>
      rw [brokenAt?, List.getLast?_concat, List.filterMap_cons, switchFault?_place,
        filterMap_leaves, jumpCause?_clauseAt]
      cases hjump : p.isJump e <;> cases hends : p.endsLastCase slot <;> simp [hjump, hends]
    | stmt s => simp [brokenAt?, place, leaves, Site.node, switchFault?]
    | symbol v => simp [brokenAt?, place, leaves, Site.node, switchFault?]
  alone a clause := by
    cases a with
    | expr e =>
      cases hjump : p.isJump e with
      | true => exact .inl (slots_of_isJump hjump)
      | false => exact .inr (by simp [filterMap_leaves, hjump])
    | _ => exact .inr rfl

lemma filterMap_site?_leaves (clause : Option Clause) (a : Site) :
    (p.leaves clause a).filterMap (fun x => x.node.site?) = [] := by
  cases a with
  | expr e =>
    cases he : p.expr? e with
    | none => simp [leaves, he]
    | some x =>
      cases hx : x.isGotoDefault <;> cases hr : x.reference? <;>
        simp [leaves, he, hx, hr, Node.site?]
  | _ => rfl

lemma tells_site? (p : Program) :
    p.Tells (fun x => x.node.site?) (fun t => t.getLast?.map Link.site) where
  cases x hx := by
    obtain ⟨n, clause, after⟩ := x
    cases n <;> simp_all [Node.isCase, Node.site?]
  own t x := by
    obtain ⟨i, slot, a⟩ := x
    have hplace : (p.place (p.clauseAt t) (slot, a)).node.site? = some a := by cases a <;> rfl
    simp [filterMap_site?_leaves, hplace]
  alone a clause := .inr (filterMap_site?_leaves clause a)

/-! ### Trees without cycles -/

/-- A rank that falls from each node to its parts leaves no room for a cycle. -/
lemma acyclic_of_rank (rank : Site → Nat) (h : ∀ a ∈ p.sites, ∀ b ∈ p.partsOf a, rank b < rank a) :
    p.Acyclic := by
  have hstep : ∀ a b, b ∈ p.partsOf a → rank b < rank a := by
    intro a b hb
    refine h a (by_contra fun ha => ?_) b hb
    cases a <;> simp_all [partsOf, operands, exprsAt, below, declares?, stmtsOf, symbolsOf, enum?,
      expr_mem_sites, stmt_mem_sites, symbol_mem_sites]
  have hfall : ∀ a b, Relation.TransGen (fun a b => b ∈ p.partsOf a) a b → rank b < rank a := by
    intro a b hab
    induction hab with
    | single hb => exact hstep _ _ hb
    | tail _ hb ih => exact (hstep _ _ hb).trans ih
  exact fun a _ ha => (hfall a a ha).false

end Program

/-! ### The faults of a program -/

/-- The occurrences of a tree without cycles, in the order in which they are written, are those of
the walk; and the faults are those of the occurrences that break a rule, in the same order. What
breaks a rule comes right before all that stands in it. -/
theorem switch_faults_of_occurrences {p : Program} (hp : p.Acyclic) :
    ∃ occurrences : List (List Link),
      (∀ t, t ∈ occurrences ↔ p.Occurs t) ∧ occurrences.Pairwise WrittenBefore ∧
      (∀ t ∈ occurrences, HeadsBlock occurrences t) ∧
      p.walk.map (·.filterMap fun x => x.node.site?) =
        some (occurrences.filterMap fun t => t.getLast?.map Link.site) ∧
      p.switchFaults = some (occurrences.filterMap p.brokenAt?) := by
  have hsome := hp.walk_isSome
  obtain ⟨places, hwalk⟩ := Option.isSome_iff_exists.mp hsome
  refine ⟨p.occurrences, fun t => p.mem_occurrences hsome, p.pairwise_occurrences,
    fun t => p.headsBlock_occurrences, ?_, ?_⟩
  · rw [hwalk, Option.map_some, p.tells_site?.filterMap_walk hwalk]
  · rw [Program.switchFaults, hwalk, Option.map_some, p.tells_switchFault?.filterMap_walk hwalk]

/-- A switch with a default clause around one without, and a conditional expression with a jump in
it that both fall through to. -/
def nestedSwitchSteps : List Operation :=
  [.declareClass "C" ⟨1⟩ {}, .intern "m", .addExpr (.literal (.bool true) ⟨3⟩),
    .addExpr (.gotoDefault ⟨5⟩), .addExpr (.gotoDefault ⟨6⟩),
    .addExpr (.conditional ⟨0⟩ ⟨2⟩ ⟨0⟩ ⟨6⟩), .addExpr (.ident (.free ⟨2⟩) ⟨7⟩),
    .addExpr (.gotoDefault ⟨7⟩), .addVar "x" ⟨7⟩ ⟨⟨4⟩, some ⟨5⟩⟩, .addExpr (.gotoDefault ⟨8⟩),
    .addStmt (.expr ⟨1⟩ ⟨5⟩),
    .addStmt (.switch ⟨0⟩ [⟨[⟨0⟩], [⟨0⟩], some ⟨3⟩, ⟨5⟩⟩] none ⟨4⟩), .addStmt (.var ⟨8⟩ ⟨7⟩),
    .addStmt (.switch ⟨0⟩ [⟨[⟨6⟩], [], none, ⟨8⟩⟩] none ⟨8⟩),
    .addStmt (.switch ⟨0⟩ [⟨[⟨0⟩], [⟨1⟩, ⟨2⟩], some ⟨3⟩, ⟨4⟩⟩] (some [⟨3⟩]) ⟨3⟩),
    .declareMember ⟨7⟩ ⟨⟨8⟩, ⟨2⟩, .method ⟨⟨.pub, some ⟨4⟩⟩, none, .normal, false, []⟩⟩]

def nestedSwitches : Program := (Program.new.build? nestedSwitchSteps).getD .new

def nestedSwitchRank : Site → Nat
  | .expr e => e.index
  | .stmt s => s.index + 20
  | .symbol v => if v = ⟨8⟩ then 10 else if v = ⟨9⟩ then 30 else 40

theorem nested_switch_faults : nestedSwitches.Acyclic ∧
    ∃ occurrences : List (List Link),
      (∀ t, t ∈ occurrences ↔ nestedSwitches.Occurs t) ∧
      occurrences.filterMap nestedSwitches.brokenAt? =
        [⟨.jumpWithoutDefault, ⟨5⟩, []⟩, ⟨.fallFromLastCase, ⟨6⟩, []⟩,
          ⟨.jumpWithoutDefault, ⟨6⟩, []⟩, ⟨.fallFromLastCase, ⟨6⟩, []⟩,
          ⟨.jumpOutsideCase, ⟨8⟩, []⟩] := by
  have hacyclic : nestedSwitches.Acyclic := Program.acyclic_of_rank nestedSwitchRank (by decide)
  obtain ⟨occurrences, hoccurs, -, -, -, hfaults⟩ := switch_faults_of_occurrences hacyclic
  exact ⟨hacyclic, occurrences, hoccurs, Option.some.inj (hfaults.symm.trans (by decide))⟩

end NameBinding
