import NameBinding.Proofs.Script

/-!
The places where expressions and statements stand. Nodes may be shared; in a program without shared
nodes every expression and every statement stands in one place at most.
-/

namespace NameBinding

/-! ### Places of expressions -/

/-- What an expression can stand in directly. -/
inductive Site
  | expr (e : ExprId)
  | stmt (s : StmtId)
  | symbol (v : SymbolId)
deriving DecidableEq

namespace Program

variable {p : Program}

def sites (p : Program) : List Site :=
  p.exprIds.map .expr ++ p.stmtIds.map .stmt ++ p.symbolIds.map .symbol

def exprsAt (p : Program) : Site → List ExprId
  | .expr e => p.operands e
  | .stmt s => ((p.stmt? s).map Stmt.exprs).getD []
  | .symbol v => ((p.symbol? v).map (·.kind.exprs)).getD []

/-- No expression stands in two places. -/
def ExprsOnce (p : Program) : Prop :=
  ∀ a ∈ p.sites, ∀ b ∈ p.sites, ∀ e ∈ p.exprsAt a, e ∈ p.exprsAt b → a = b

instance : Decidable p.ExprsOnce := inferInstanceAs (Decidable (∀ a ∈ _, _))

lemma mem_sites {a : Site} {e : ExprId} (h : e ∈ p.exprsAt a) : a ∈ p.sites := by
  have hlt : ∀ {α : Type} {xs : Array α} {i : Nat} {f : α → List ExprId},
      e ∈ (xs[i]?.map f).getD [] → i < xs.size := by
    intro α xs i f he
    by_contra hge
    simp [Array.getElem?_eq_none (by omega : xs.size ≤ i)] at he
  unfold sites
  cases a with
  | expr e' =>
    refine List.mem_append_left _ (List.mem_append_left _ (List.mem_map.mpr ⟨e', ?_, rfl⟩))
    exact List.mem_map.mpr ⟨e'.index, List.mem_range.mpr (hlt h), rfl⟩
  | stmt s =>
    refine List.mem_append_left _ (List.mem_append_right _ (List.mem_map.mpr ⟨s, ?_, rfl⟩))
    exact List.mem_map.mpr ⟨s.index, List.mem_range.mpr (hlt h), rfl⟩
  | symbol v =>
    refine List.mem_append_right _ (List.mem_map.mpr ⟨v, ?_, rfl⟩)
    exact List.mem_map.mpr ⟨v.index, List.mem_range.mpr (hlt h), rfl⟩

lemma ExprsOnce.eq (h : p.ExprsOnce) {a b : Site} {e : ExprId} (ha : e ∈ p.exprsAt a)
    (hb : e ∈ p.exprsAt b) : a = b :=
  h a (mem_sites ha) b (mem_sites hb) e ha hb

/-- An operand stands in no statement and in no symbol. -/
lemma ExprsOnce.not_isRoot (h : p.ExprsOnce) {e c : ExprId} (hc : c ∈ p.operands e) :
    ¬ p.IsRoot c := by
  have hexpr : c ∈ p.exprsAt (.expr e) := hc
  rintro (⟨s, x, hs, hx⟩ | ⟨v, sym, hv, hx⟩)
  · have hstmt : c ∈ p.exprsAt (.stmt s) := by simpa [exprsAt, hs] using hx
    simpa using h.eq hexpr hstmt
  · have hsymbol : c ∈ p.exprsAt (.symbol v) := by simpa [exprsAt, hv] using hx
    simpa using h.eq hexpr hsymbol

lemma operands_select {m object : ExprId} {r : Reference} {line : Line}
    (hm : p.expr? m = some (.select object r line)) : p.operands m = [object] := by
  simp [operands, hm, Expr.children]

end Program

/-! ### Places of statements -/

namespace Program

/-- The statements right below a statement. -/
def below (p : Program) (s : StmtId) : List StmtId := ((p.stmt? s).map Stmt.children).getD []

/-- The symbol that a statement declares. -/
def declares? (p : Program) (s : StmtId) : Option SymbolId := (p.stmt? s).bind Stmt.declared?

/-- The statements that stand directly in a symbol. -/
def stmtsOf (p : Program) (v : SymbolId) : List StmtId :=
  ((p.symbol? v).map (·.kind.stmts)).getD []

/-- All uses of statements: right below another statement, or directly in a symbol. -/
def stmtUses (p : Program) : List StmtId :=
  p.stmtIds.flatMap p.below ++ p.symbolIds.flatMap p.stmtsOf

/-- No statement is used twice. -/
def StmtsOnce (p : Program) : Prop := p.stmtUses.Nodup

instance (p : Program) : Decidable p.StmtsOnce := inferInstanceAs (Decidable (List.Nodup _))

/-- No name is bound beforehand. -/
def AllFree (p : Program) : Prop :=
  ∀ e ∈ p.exprIds, ∀ r ∈ (p.reference? e).toList, r.isBound = false

instance (p : Program) : Decidable p.AllFree := inferInstanceAs (Decidable (∀ e ∈ _, _))

end Program

end NameBinding
