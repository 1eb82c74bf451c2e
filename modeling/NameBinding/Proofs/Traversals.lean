import NameBinding.Proofs.Checked.Bodies
import NameBinding.Proofs.Checked.Trees
import NameBinding.Proofs.ProperTrees
import NameBinding.Resolve

/-!
Traversals of a program that was built: the pass, the walk and the outline. All that the tables name
is allocated, so each of them comes only to what is there. The pass always ends; the walk and the
outline end if locals and parameters are variables and enums hold constants.
-/

namespace NameBinding

/-! ### Owners of scopes -/

/-- The declaration that a scope belongs to. -/
def ScopeKind.owner? : ScopeKind → Option SymbolId
  | type v | method v => some v
  | global | block => none

namespace Program

variable {p q : Program}

/-- The declarations that scopes belong to are allocated. -/
structure Owned (p : Program) : Prop where
  lt : ∀ s sc, p.scopes.scope? s = some sc → ∀ v ∈ sc.kind.owner?.toList,
    v.index < p.symbols.size

lemma Owned.of_scopes (hp : p.Owned) (hscopes : q.scopes = p.scopes)
    (hle : p.symbols.size ≤ q.symbols.size) : q.Owned := by
  refine ⟨fun s sc hs v hv => ?_⟩
  rw [hscopes] at hs
  exact (hp.lt s sc hs v hv).trans_le hle

lemma Owned.intern (hp : p.Owned) (text : String) : (p.intern text).2.Owned :=
  hp.of_scopes rfl le_rfl

lemma Owned.addSymbol (hp : p.Owned) (x : Symbol) : (p.addSymbol x).2.Owned :=
  hp.of_scopes rfl (by simp [Program.addSymbol])

lemma Owned.modifyClass (hp : p.Owned) (v : SymbolId) (f : ClassInfo → ClassInfo) :
    (p.modifyClass v f).Owned :=
  hp.of_scopes rfl (by simp [Program.modifyClass])

lemma Owned.enter (hp : p.Owned) (scope : ScopeId) (n : Name) (v : SymbolId) :
    (p.enter scope n v).Owned := by
  unfold Program.enter
  cases hadd : p.scopes.add scope n v with
  | error w => exact hp
  | ok t =>
    refine ⟨fun s sc hs w hw => ?_⟩
    have hs' : t.scope? s = some sc := hs
    rw [ScopeTree.scope?_add hadd] at hs'
    split at hs'
    · obtain ⟨old, hold, rfl⟩ := Option.map_eq_some_iff.mp hs'
      exact hp.lt s old hold w hw
    · exact hp.lt s sc hs' w hw

lemma Owned.declare (hp : p.Owned) (scope : ScopeId) (x : Symbol) :
    (p.declare scope x).2.Owned := by
  cases h : p.scopes.declared? scope x.name with
  | some v =>
    rw [declare_of_some h]
    exact hp
  | none =>
    rw [declare_of_none h]
    exact (hp.addSymbol x).enter ..

/-- The scope of a type belongs to the symbol that is entered right after. -/
lemma Owned.declareType (hp : p.Owned) (n : Name) (line : Line) (kind : ScopeId → SymbolKind) :
    (p.declareType n line kind).2.Owned := by
  refine Owned.enter ⟨fun s sc hs v hv => ?_⟩ ..
  have hlt : p.symbols.size < (p.symbols.push ⟨n, line, kind ⟨p.scopes.size⟩⟩).size := by simp
  have hs' : (p.scopes.addChild ScopeTree.global (.type ⟨p.symbols.size⟩)).2.scope? s =
      some sc := hs
  rw [ScopeTree.scope?_addChild] at hs'
  split at hs'
  · -- the scope was opened before its owner was in the table
    obtain rfl := Option.some.inj hs'
    obtain rfl : v = ⟨p.symbols.size⟩ := by simpa [ScopeKind.owner?] using hv
    exact hlt
  · exact (hp.lt s sc hs' v hv).trans hlt

lemma Owned.declareClass (hp : p.Owned) (text : String) (line : Line) (head : ClassHead) :
    (p.declareClass text line head).2.Owned := by
  have hintern := hp.intern text
  unfold Program.declareClass
  simp only
  split
  · exact hintern
  · cases head.baseClass with
    | none => exact (hintern.declareType ..).of_scopes rfl le_rfl
    | some base => exact ((hintern.intern base).declareType ..).of_scopes rfl le_rfl

lemma Owned.declareEnum (hp : p.Owned) (text : String) (line : Line) (head : EnumHead) :
    (p.declareEnum text line head).2.Owned := by
  have hintern := hp.intern text
  unfold Program.declareEnum
  simp only
  split
  · exact hintern
  · exact (hintern.declareType ..).of_scopes rfl le_rfl

lemma Owned.perform (hp : p.Owned) (op : Operation) : (p.perform op).Owned := by
  cases op with
  | intern text => exact hp.intern text
  | addExpr e => exact hp.of_scopes rfl le_rfl
  | addStmt s => exact hp.of_scopes rfl le_rfl
  | addVar text line value => exact (hp.intern text).addSymbol _
  | declare scope x => exact hp.declare scope x
  | declareClass text line head => exact hp.declareClass text line head
  | declareEnum text line head => exact hp.declareEnum text line head
  | declareMember owner x =>
    change (p.declareMember owner x).2.Owned
    obtain h | ⟨o, scope, -, -, -, -, h⟩ := p.declareMember_cases owner x
    · rw [h]
      exact hp
    · rw [h]
      exact (hp.declare scope x).modifyClass ..
  | defineConstructor v line c =>
    change (p.defineConstructor v line c).2.Owned
    obtain h | ⟨n, -, h⟩ := p.defineConstructor_cases v line c
    · rw [h]
      exact hp
    · rw [h]
      exact (hp.addSymbol _).modifyClass ..
  | defineDestructor v body =>
    change (p.defineDestructor v body).2.Owned
    obtain h | ⟨-, h⟩ := p.defineDestructor_cases v body
    · rw [h]
      exact hp
    · rw [h]
      exact hp.modifyClass ..

lemma owned_new : new.Owned := by
  have hempty : (⟨{}, #[], #[], #[], .new, [], []⟩ : Program).Owned := by
    refine ⟨?_⟩
    rintro ⟨s⟩ sc hs
    cases s with
    | zero =>
      obtain rfl : (⟨.global, none, .empty⟩ : Scope) = sc := by
        simpa [ScopeTree.scope?, ScopeTree.new] using hs
      simp [ScopeKind.owner?]
    | succ s => simp [ScopeTree.scope?, ScopeTree.new] at hs
  unfold new
  generalize (⟨{}, #[], #[], #[], .new, [], []⟩ : Program) = p at hempty
  induction Builtin.all generalizing p with
  | nil => exact hempty
  | cons b bs ih => exact ih _ (((hempty.intern b.keyword).addSymbol _).enter ..)

lemma Built.owned (h : p.Built) : p.Owned := by
  induction h with
  | new => exact owned_new
  | perform _ _ ih => exact ih.perform _

/-! ### Trees that end -/

variable {d : Nat} {a b : Site} {slot : Slot}

lemma visit_of_le {n : Nat} {x : Place} (hle : d ≤ n) (h : (p.visit d x).isSome) :
    (p.visit n x).isSome := by
  induction n, hle using Nat.le_induction with
  | base => exact h
  | succ n _ ih => exact visit_succ_of_visit ih

/-- The tree below a node has at most so many levels. -/
def EndsWithin (p : Program) (d : Nat) (a : Site) : Prop :=
  ∃ around slot, (p.visit d (p.place around (slot, a))).isSome

lemma EndsWithin.part (h : p.EndsWithin (d + 1) a) (hb : (slot, b) ∈ p.slots a) :
    p.EndsWithin d b := by
  obtain ⟨around, slot', hvisit⟩ := h
  obtain ⟨places, hplaces⟩ := Option.isSome_iff_exists.mp hvisit
  obtain ⟨below, -, hcovers⟩ := visit_cases hplaces
  -- below a switch, the walk takes one more level for each case
  obtain ⟨n, hn, visit, hbelow⟩ := hcovers.exists_visit hb
  exact ⟨_, slot, visit_of_le (Nat.le_of_lt_succ hn) (by rw [hbelow]; rfl)⟩

lemma exists_slot_of_mem_children {s t : StmtId} {x : Stmt} (h : t ∈ x.children) :
    ∃ slot, (slot, .stmt t) ∈ x.slots s := by
  cases x with
  | switch value cases defaultBody line =>
    rcases List.mem_append.mp h with h | h
    · obtain ⟨c, hc, ht⟩ := List.mem_flatMap.mp h
      obtain ⟨i, hi⟩ := List.mem_iff_getElem?.mp hc
      have hzip : (c, i) ∈ cases.zipIdx := List.mk_mem_zipIdx_iff_getElem?.mpr hi
      have hslot : (Slot.caseBody s i, Site.stmt t) ∈ Stmt.caseSlots s (c, i) := by
        simp [Stmt.caseSlots, ht]
      refine ⟨.caseBody s i, List.mem_cons_of_mem _ (List.mem_append_left _ ?_)⟩
      exact List.mem_flatMap.mpr ⟨_, hzip, hslot⟩
    · refine ⟨.defaultBody s, List.mem_cons_of_mem _ (List.mem_append_right _ ?_)⟩
      exact List.mem_map.mpr ⟨t, h, rfl⟩
  | forLoop init cond advance body line =>
    exact ⟨.plain, by simpa [Stmt.slots, Stmt.written, Stmt.children, or_comm] using h⟩
  | doWhile body cond line =>
    exact ⟨.plain, by simpa [Stmt.slots, Stmt.written, Stmt.children] using h⟩
  | _ => exact ⟨.plain, by simp [Stmt.slots, Stmt.written, h]⟩

lemma mem_slots_of_declared? {s : StmtId} {v : SymbolId} {x : Stmt} (h : x.declared? = some v) :
    (.plain, .symbol v) ∈ x.slots s := by
  cases x with
  | var w line =>
    obtain rfl := Option.some.inj h
    simp [Stmt.slots, Stmt.written, Stmt.declared?]
  | _ => simp [Stmt.declared?] at h

lemma mem_written_of_mem_stmts {t : StmtId} {k : SymbolKind} (h : t ∈ k.stmts) :
    .stmt t ∈ p.written k := by
  cases k with
  | classType c => simpa [written, SymbolKind.stmts] using h
  | enumType t => simp [SymbolKind.stmts] at h
  | _ => simp [written, h]

lemma mem_written_of_mem_symbols {v : SymbolId} {k : SymbolKind} (h : v ∈ k.symbols) :
    .symbol v ∈ p.written k := by
  cases k with
  | classType c =>
    simp only [SymbolKind.symbols, List.mem_append] at h
    simp only [written, List.mem_append, List.mem_map, Site.symbol.injEq, exists_eq_right]
    tauto
  | enumType t => simp [SymbolKind.symbols] at h
  | _ => simp [written, h]

/-! ### The outline ends -/

section Lines

variable {symbol : Nat → SymbolId → Option (List OutlineLine)}
  {stmt : Nat → StmtId → Option (List OutlineLine)}

lemma exists_gather {α β : Type} {f : α → Option (List β)} {xs : List α}
    (h : ∀ x ∈ xs, (f x).isSome) : ∃ bs, gather f xs = some bs :=
  Option.isSome_iff_exists.mp (gather_isSome_iff.mpr h)

lemma caseLines_isSome {c : Case} (hstmt : ∀ depth, ∀ t ∈ c.body, (stmt depth t).isSome)
    (depth : Nat) : (p.caseLines stmt depth c).isSome := by
  obtain ⟨body, hbody⟩ := exists_gather (hstmt (depth + 1))
  simp [caseLines, hbody]

lemma stmtStep_isSome {x : Stmt}
    (hsymbol : ∀ depth v, x.declared? = some v → (symbol depth v).isSome)
    (hstmt : ∀ depth, ∀ t ∈ x.children, (stmt depth t).isSome) (depth : Nat) :
    (p.stmtStep symbol stmt depth x).isSome := by
  have hbody : ∀ depth, ∀ t ∈ x.children, ∃ ls, stmt depth t = some ls :=
    fun depth t ht => Option.isSome_iff_exists.mp (hstmt depth t ht)
  cases x with
  | block b =>
    obtain ⟨ls, hls⟩ : ∃ ls, gather (stmt (depth + 1)) b.statements = some ls :=
      exists_gather (hstmt (depth + 1))
    simp [stmtStep, hls]
  | branch cond onTrue onFalse line =>
    obtain ⟨yes, hyes⟩ := hbody (depth + 1) onTrue (by simp [Stmt.children])
    obtain ⟨no, hno⟩ : ∃ no, gather (fun s =>
        (stmt (depth + 1) s).map (OutlineLine.mk depth "else" :: ·)) onFalse.toList = some no := by
      refine exists_gather fun t ht => ?_
      rw [Option.isSome_map]
      exact hstmt (depth + 1) t (List.mem_cons_of_mem _ ht)
    simp [stmtStep, hyes, hno]
  | whileLoop cond body line =>
    obtain ⟨ls, hls⟩ := hbody (depth + 1) body (by simp [Stmt.children])
    simp [stmtStep, hls]
  | doWhile body cond line =>
    obtain ⟨ls, hls⟩ := hbody (depth + 1) body (by simp [Stmt.children])
    simp [stmtStep, hls]
  | forLoop init cond advance body line =>
    obtain ⟨ls, hls⟩ := hbody (depth + 1) body (by simp [Stmt.children])
    simp [stmtStep, hls]
  | switch value cases defaultBody line =>
    obtain ⟨hbodies, hdefault⟩ :=
      forall_and.mp fun depth => List.forall_mem_append.mp (hstmt depth)
    obtain ⟨first, hfirst⟩ : ∃ ls, gather (p.caseLines stmt (depth + 1)) cases = some ls :=
      exists_gather fun c hc => caseLines_isSome (fun depth t ht =>
        hbodies depth t (List.mem_flatMap.mpr ⟨c, hc, ht⟩)) _
    obtain ⟨rest, hrest⟩ : ∃ ls, gather (fun body => (gather (stmt (depth + 2)) body).map
        (OutlineLine.mk (depth + 1) "default" :: ·)) defaultBody.toList = some ls := by
      refine exists_gather fun body hmem => ?_
      rw [Option.isSome_map, gather_isSome_iff]
      exact fun t ht => hdefault _ t (by simpa [Option.mem_toList.mp hmem] using ht)
    simp [stmtStep, hfirst, hrest]
  | var v line => exact hsymbol depth v rfl
  | _ => rfl

lemma symbolStep_isSome {x : Symbol}
    (hsymbol : ∀ depth, ∀ v ∈ x.kind.symbols, (symbol depth v).isSome)
    (hstmt : ∀ depth, ∀ t ∈ x.kind.stmts, (stmt depth t).isSome) (depth : Nat) :
    (p.symbolStep symbol stmt depth x).isSome := by
  obtain ⟨n, line, kind⟩ := x
  cases kind with
  | constructor c =>
    obtain ⟨ls, hls⟩ : ∃ ls, gather (stmt (depth + 1)) c.body.toList = some ls :=
      exists_gather (hstmt (depth + 1))
    simp [symbolStep, hls]
  | method m =>
    obtain ⟨ls, hls⟩ : ∃ ls, gather (stmt (depth + 1)) m.callable.body.toList = some ls :=
      exists_gather (hstmt (depth + 1))
    simp [symbolStep, hls]
  | classType c =>
    have hmembers := hsymbol (depth + 1)
    simp only [SymbolKind.symbols, List.forall_mem_append] at hmembers
    obtain ⟨⟨⟨hconstructor, hconsts⟩, hfields⟩, hmethods⟩ := hmembers
    obtain ⟨first, hfirst⟩ : ∃ ls, gather (symbol (depth + 1))
        (c.consts ++ c.fields ++ c.constructor.toList) = some ls := by
      refine exists_gather ?_
      simp only [List.forall_mem_append]
      exact ⟨⟨hconsts, hfields⟩, hconstructor⟩
    obtain ⟨destructor, hdestructor⟩ : ∃ ls, gather (fun (b : Block) =>
        (gather (stmt (depth + 2)) b.statements).map
          (OutlineLine.node (depth + 1) "destructor" b.line :: ·)) c.destructor.toList =
        some ls := by
      refine exists_gather fun b hb => ?_
      rw [Option.isSome_map, gather_isSome_iff]
      exact fun t ht => hstmt _ t (by simpa [SymbolKind.stmts, Option.mem_toList.mp hb] using ht)
    obtain ⟨methods, hmethods⟩ := exists_gather hmethods
    simp only [symbolStep, hfirst, hdestructor, hmethods, Option.bind_eq_bind, Option.bind_some,
      Option.pure_def, Option.isSome_some]
  | _ => rfl

end Lines

/-- The outline of a node takes no more levels than the walk. -/
lemma lines_isSome (d : Nat) :
    (∀ v, p.EndsWithin d (.symbol v) → ∀ depth, (p.symbolLines d depth v).isSome) ∧
    ∀ s, p.EndsWithin d (.stmt s) → ∀ depth, (p.stmtLines d depth s).isSome := by
  induction d with
  | zero => simp [EndsWithin, visit]
  | succ d ih =>
    obtain ⟨ihsymbol, ihstmt⟩ := ih
    refine ⟨fun v hv depth => ?_, fun s hs depth => ?_⟩
    · rw [symbolLines]
      cases hx : p.symbol? v with
      | none => rfl
      | some x =>
        have hslot : ∀ a ∈ p.written x.kind, (.plain, a) ∈ p.slots (.symbol v) :=
          fun a ha => by simpa [slots, kind?, hx] using ha
        exact symbolStep_isSome
          (fun depth w hw => ihsymbol w (hv.part (hslot _ (mem_written_of_mem_symbols hw))) depth)
          (fun depth t ht => ihstmt t (hv.part (hslot _ (mem_written_of_mem_stmts ht))) depth) depth
    · rw [stmtLines]
      cases hx : p.stmt? s with
      | none => rfl
      | some x =>
        have hslots : p.slots (.stmt s) = x.slots s := by simp [slots, hx]
        refine stmtStep_isSome (fun depth w hw => ?_) (fun depth t ht => ?_) depth
        · exact ihsymbol w (hs.part (hslots ▸ mem_slots_of_declared? hw)) depth
        · obtain ⟨slot, hslot⟩ := exists_slot_of_mem_children (s := s) ht
          exact ihstmt t (hs.part (hslots ▸ hslot)) depth

/-- Where the walk ends, the outline ends. -/
lemma outline_isSome (h : p.walk.isSome) : p.outline.isSome := by
  rw [outline, Option.isSome_map, gather_isSome_iff]
  intro v hv
  have hvisit := gather_isSome_iff.mp h (.symbol v) (List.mem_map.mpr ⟨v, hv, rfl⟩)
  exact (lines_isSome p.depth).1 v ⟨none, .plain, hvisit⟩ 0

end Program

/-! ### All traversals -/

/-- The bindings and errors by a checked pass, and a checked walk if the options ask for one. -/
def Checked.bindings (p : Program) (o : Options) : Option (Bindings × List Diagnostic) := do
  let st ← Checked.run p
  let _ ← if o.validateSwitches then Checked.walk p else some []
  some ({ st.bindings with scopes := some st.scopes }, (Report.of p o st).errors)

lemma Program.WellFormed.bindings_eq {p : Program} (hp : p.WellFormed) (o : Options) :
    Checked.bindings p o =
      if o.validateSwitches then p.walk.map fun _ => p.bindings o else some (p.bindings o) := by
  simp only [Checked.bindings, (Pass.ends_run hp).eq, hp.walk_eq, Option.bind_eq_bind,
    Option.bind_some]
  cases o.validateSwitches with
  | false => rfl
  | true => cases p.walk <;> rfl

/-- Class `C` has a method whose body declares a local: the class itself, or else a variable. The
classes `A` and `B` are each the base of the other. -/
def knotSteps (endless : Bool) : List Operation :=
  [.declareClass "C" ⟨1⟩ {}, .addExpr (.ident (.free ⟨2⟩) ⟨2⟩), .addVar "v" ⟨2⟩ ⟨⟨0⟩, none⟩,
    .addStmt (.var (if endless then ⟨7⟩ else ⟨8⟩) ⟨2⟩), .intern "m",
    .declareMember ⟨7⟩ ⟨⟨9⟩, ⟨2⟩, .method ⟨⟨.pub, some ⟨0⟩⟩, none, .normal, false, []⟩⟩,
    .declareClass "A" ⟨3⟩ { baseClass := some "B" },
    .declareClass "B" ⟨4⟩ { baseClass := some "A" }]

def knot (endless : Bool) : Program := (Program.new.build? (knotSteps endless)).getD .new

end NameBinding
