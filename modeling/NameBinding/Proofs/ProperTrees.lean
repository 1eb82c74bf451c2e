import NameBinding.Proofs.TypeTables
import NameBinding.Proofs.WalkTrails

/-!
Trees that have an end. Operands come before their expression in the table, and so do the
statements below a statement; if locals, parameters and what enums hold are values, then no
declaration leads back to a body. A rank puts expressions before values, values before statements,
these before methods, and methods before types; it falls from every node to its parts.
-/

namespace NameBinding

namespace SymbolKind

def isVar : SymbolKind → Bool
  | var _ => true
  | _ => false

/-- The kinds that have a declared type. -/
def isValue : SymbolKind → Bool
  | var _ | field _ | const _ => true
  | _ => false

end SymbolKind

namespace Program

open SymbolKind (isConst isClass isEnum isValue isVar)

variable {p : Program} {a b : Site} {v : SymbolId}

def parametersOf (p : Program) (v : SymbolId) : List SymbolId :=
  (((p.symbol? v).bind (·.method?)).map Method.parameters).getD []

def enumMembers (p : Program) (v : SymbolId) : List SymbolId :=
  ((p.enum? v).map fun t => p.members t.scope).getD []

/-- The kinds of locals and parameters, and the kinds of what the enums at the top hold. -/
structure DeclaresOnly (p : Program) (inBodies inEnums : SymbolKind → Bool) : Prop where
  locals : ∀ s ∈ p.stmtIds, ∀ v ∈ (p.declares? s).toList, p.hasKind inBodies v = true
  parameters : ∀ m ∈ p.symbolIds, ∀ v ∈ p.parametersOf m, p.hasKind inBodies v = true
  enums : ∀ t ∈ p.enums, ∀ v ∈ p.enumMembers t, p.hasKind inEnums v = true

instance (p : Program) (f g : SymbolKind → Bool) : Decidable (p.DeclaresOnly f g) :=
  decidable_of_iff (_ ∧ _ ∧ _)
    ⟨fun h => ⟨h.1, h.2.1, h.2.2⟩, fun h => ⟨h.locals, h.parameters, h.enums⟩⟩

section DeclaresOnly

variable {f g : SymbolKind → Bool}

lemma DeclaresOnly.local {s : StmtId} (h : p.DeclaresOnly f g) (hs : p.declares? s = some v) :
    p.hasKind f v = true := by
  obtain ⟨x, hx, -⟩ := Option.bind_eq_some_iff.mp hs
  refine h.locals s (List.mem_map.mpr ⟨s.index, ?_, rfl⟩) v (by simp [hs])
  exact List.mem_range.mpr (Array.getElem?_eq_some_iff.mp hx).1

lemma DeclaresOnly.parameter {w : SymbolId} {m : Method} (h : p.DeclaresOnly f g)
    (hm : p.kind? v = some (.method m)) (hw : w ∈ m.parameters) : p.hasKind f w = true := by
  obtain ⟨x, hx, hk⟩ := Option.map_eq_some_iff.mp hm
  refine h.parameters v (List.mem_map.mpr ⟨v.index, List.mem_range.mpr (lt_of_kind? hm), rfl⟩) w ?_
  simpa [parametersOf, hx, Symbol.method?, hk] using hw

lemma DeclaresOnly.member {w : SymbolId} {t : EnumInfo} (h : p.DeclaresOnly f g) (hv : v ∈ p.enums)
    (ht : p.kind? v = some (.enumType t)) (hw : w ∈ p.members t.scope) : p.hasKind g w = true :=
  h.enums v hv w (by simpa [enumMembers, enum?_eq_some.mpr ht] using hw)

lemma DeclaresOnly.mono {f' g' : SymbolKind → Bool} (h : p.DeclaresOnly f g)
    (hf : ∀ k, f k = true → f' k = true) (hg : ∀ k, g k = true → g' k = true) :
    p.DeclaresOnly f' g' := by
  have hkind : ∀ {k k' : SymbolKind → Bool} {v}, (∀ x, k x = true → k' x = true) →
      p.hasKind k v = true → p.hasKind k' v = true := by
    intro k k' v hk hv
    obtain ⟨x, hx, hkx⟩ := Option.any_eq_true _ _ |>.mp hv
    exact (Option.any_eq_true _ _).mpr ⟨x, hx, hk x hkx⟩
  exact ⟨fun s hs v hv => hkind hf (h.locals s hs v hv),
    fun m hm v hv => hkind hf (h.parameters m hm v hv),
    fun t ht v hv => hkind hg (h.enums t ht v hv)⟩

end DeclaresOnly

/-! ### Ranks -/

/-- The types among the nodes of a proper tree are those at the top. -/
def Proper (p : Program) : Site → Prop
  | .symbol v => (p.hasKind isClass v = true → v ∈ p.classes) ∧
    (p.hasKind isEnum v = true → v ∈ p.enums)
  | _ => True

def kindRank (p : Program) : SymbolKind → Nat
  | .classType _ | .enumType _ => p.exprs.size + p.stmts.size + 2
  | .method _ | .constructor _ => p.exprs.size + p.stmts.size + 1
  | _ => p.exprs.size

def rank (p : Program) : Site → Nat
  | .expr e => e.index
  | .stmt s => p.exprs.size + 1 + s.index
  | .symbol v => ((p.kind? v).map p.kindRank).getD p.exprs.size

lemma rank_symbol {k : SymbolKind} (h : p.kind? v = some k) :
    p.rank (.symbol v) = p.kindRank k := by
  rw [rank, h, Option.map_some, Option.getD_some]

/-- A node that is neither a class nor an enum is proper. -/
lemma proper_of_kind? {k : SymbolKind} (h : p.kind? v = some k) (hclass : isClass k = false)
    (henum : isEnum k = false) : p.Proper (.symbol v) := by
  simp [Proper, hasKind, h, hclass, henum]

lemma value_of_hasKind (h : p.hasKind isValue v = true) :
    p.Proper (.symbol v) ∧ p.rank (.symbol v) = p.exprs.size := by
  obtain ⟨k, hk, hvalue⟩ := (Option.any_eq_true _ _).mp h
  rw [rank_symbol hk]
  cases k with
  | var _ | field _ | const _ => exact ⟨proper_of_kind? hk rfl rfl, rfl⟩
  | _ => simp [isValue] at hvalue

section Parts

variable (hp : p.WellFormed) (hd : p.DeclaresOnly isValue isValue)
include hp hd

lemma proper_part_stmt {s : StmtId} (hb : b ∈ p.partsOf (.stmt s)) :
    p.Proper b ∧ p.rank b < p.rank (.stmt s) := by
  cases hs : p.stmt? s with
  | none => simp [partsOf, exprsAt, below, declares?, hs] at hb
  | some x =>
    obtain ⟨hchildren, hexprs, -⟩ := hp.allocated.stmts s x hs
    simp only [partsOf, exprsAt, below, hs, Option.map_some, Option.getD_some, List.mem_append,
      List.mem_map, Option.mem_toList, or_assoc] at hb
    rcases hb with ⟨e, he, rfl⟩ | ⟨t, ht, rfl⟩ | ⟨v, hv, rfl⟩
    · have hlt : e.index < p.exprs.size := hexprs e he
      exact ⟨trivial, by simp only [rank]; omega⟩
    · have hlt : t.index < s.index := hchildren t ht
      exact ⟨trivial, by simp only [rank]; omega⟩
    · obtain ⟨hproper, hrank⟩ := value_of_hasKind (hd.local hv)
      exact ⟨hproper, by rw [hrank, rank]; omega⟩

omit hd in
/-- What a class at the top lists is a value, a method or a constructor. -/
lemma proper_member {c : ClassInfo} (hv : v ∈ p.classes) (hc : p.kind? v = some (.classType c))
    {w : SymbolId} (hw : w ∈ (SymbolKind.classType c).symbols) :
    p.Proper (.symbol w) ∧ p.rank (.symbol w) < p.exprs.size + p.stmts.size + 2 := by
  have hlists := hp.listed.lists hv (class?_eq_some.mpr hc)
  have hcase : ∀ {k}, p.kind? w = some k → isClass k = false → isEnum k = false →
      p.kindRank k < p.exprs.size + p.stmts.size + 2 →
      p.Proper (.symbol w) ∧ p.rank (.symbol w) < p.exprs.size + p.stmts.size + 2 :=
    fun hk hclass henum hlt => ⟨proper_of_kind? hk hclass henum, by rwa [rank_symbol hk]⟩
  simp only [SymbolKind.symbols, List.mem_append, or_assoc] at hw
  rcases hw with hw | hw | hw | hw
  · obtain ⟨m, hm⟩ := hlists.constructor w hw
    exact hcase hm rfl rfl (by simp only [kindRank]; omega)
  · obtain ⟨m, hm⟩ := hlists.consts w hw
    exact hcase hm rfl rfl (by simp only [kindRank]; omega)
  · obtain ⟨m, hm⟩ := hlists.fields w hw
    exact hcase hm rfl rfl (by simp only [kindRank]; omega)
  · obtain ⟨m, hm⟩ := hlists.methods w hw
    exact hcase hm rfl rfl (by simp only [kindRank]; omega)

lemma proper_part_symbol (ha : p.Proper (.symbol v)) (hb : b ∈ p.partsOf (.symbol v)) :
    p.Proper b ∧ p.rank b < p.rank (.symbol v) := by
  cases hv : p.symbol? v with
  | none => simp [partsOf, exprsAt, stmtsOf, symbolsOf, enum?, hv] at hb
  | some x =>
    obtain ⟨n, line, kind⟩ := x
    obtain ⟨-, hexprs, hstmts, -⟩ := hp.allocated.symbols v _ hv
    have hkind : p.kind? v = some kind := by simp [kind?, hv]
    simp only [Proper, hasKind, hkind, Option.any_some] at ha
    rw [rank_symbol hkind]
    simp only [partsOf, exprsAt, stmtsOf, symbolsOf, enum?, hv, Option.map_some, Option.getD_some,
      Option.bind_some, List.mem_append, List.mem_map, or_assoc] at hb
    -- statements stand in methods and types only
    have hstmt : ∀ t ∈ kind.stmts, p.rank (.stmt t) < p.kindRank kind := by
      intro t ht
      have hlt : t.index < p.stmts.size := hstmts t ht
      cases kind with
      | constructor _ | method _ | classType _ => simp only [rank, kindRank]; omega
      | _ => simp [SymbolKind.stmts] at ht
    have hle : p.exprs.size ≤ p.kindRank kind := by
      cases kind <;> simp only [kindRank] <;> omega
    rcases hb with ⟨e, he, rfl⟩ | ⟨t, ht, rfl⟩ | ⟨w, hw | hw, rfl⟩
    · have hlt : e.index < p.exprs.size := hexprs e he
      exact ⟨trivial, by simp only [rank]; omega⟩
    · exact ⟨trivial, hstmt t ht⟩
    · cases kind with
      | classType c => exact proper_member hp (ha.1 rfl) hkind hw
      | method m =>
        obtain ⟨hproper, hrank⟩ := value_of_hasKind (hd.parameter hkind hw)
        exact ⟨hproper, by rw [hrank, kindRank]; omega⟩
      | _ => simp [SymbolKind.symbols] at hw
    · cases kind with
      | enumType t =>
        obtain ⟨hproper, hrank⟩ := value_of_hasKind (hd.member (ha.2 rfl) hkind hw)
        exact ⟨hproper, by rw [hrank, kindRank]; omega⟩
      | _ => simp [Symbol.enum?] at hw

/-- The parts of a proper node are proper, and of smaller rank. -/
lemma Proper.part (ha : p.Proper a) (hb : b ∈ p.partsOf a) : p.Proper b ∧ p.rank b < p.rank a := by
  cases a with
  | expr e =>
    obtain ⟨c, hc, rfl⟩ := List.mem_map.mp hb
    exact ⟨trivial, Script.operand_lt hp.allocated hc⟩
  | stmt s => exact proper_part_stmt hp hd hb
  | symbol v => exact proper_part_symbol hp hd ha hb

omit hd in
lemma proper_of_top (hv : v ∈ p.classes ++ p.enums) : p.Proper (.symbol v) := by
  rcases List.mem_append.mp hv with hv | hv
  · obtain ⟨c, hc⟩ := hp.listed.class?_of_mem hv
    refine ⟨fun _ => hv, fun henum => ?_⟩
    simp [hasKind, class?_eq_some.mp hc, isEnum] at henum
  · obtain ⟨t, ht, -⟩ := hp.listed.enums v hv
    refine ⟨fun hclass => ?_, fun _ => hv⟩
    simp [hasKind, enum?_eq_some.mp ht, isClass] at hclass

lemma Reachable.proper (ha : p.Reachable a) : p.Proper a := by
  induction ha with
  | top hv => exact proper_of_top hp hv
  | part _ hb ih => exact (ih.part hp hd hb).1

/-- Where only values are declared in bodies and enums, no node stands below itself. -/
theorem acyclic_of_declaresOnly : p.Acyclic := by
  have hfall : ∀ a, p.Proper a → ∀ b, Relation.TransGen (fun a b => b ∈ p.partsOf a) a b →
      p.Proper b ∧ p.rank b < p.rank a := by
    intro a ha b hab
    induction hab with
    | single hb => exact ha.part hp hd hb
    | tail _ hb ih =>
      obtain ⟨hproper, hlt⟩ := ih.1.part hp hd hb
      exact ⟨hproper, hlt.trans ih.2⟩
  intro a ha hcycle
  exact (hfall a (ha.proper hp hd) a hcycle).2.false

end Parts

end Program

end NameBinding
