import NameBinding.Outline.Expression
import NameBinding.Proofs.Checked.Names
import NameBinding.Proofs.Growth

/-!
Expressions as trees: what an expression says, without the lines and identifiers of its nodes. A
name is given by its text, and once it is bound, by the line of its declaration too. The text of an
expression is that of its tree.
-/

namespace NameBinding

/-- The use of a name, with the line of the declaration it is bound to. -/
structure NameUse where
  text : String
  declared : Option Line
deriving DecidableEq

inductive ExprTree
  | literal (value : Literal)
  | ident (use : NameUse)
  | unary (op : UnaryOp) (fixity : Fixity) (operand : ExprTree)
  | binary (op : BinaryOp) (left right : ExprTree)
  | conditional (cond onTrue onFalse : ExprTree)
  | select (object : ExprTree) (use : NameUse)
  | list (items : List ExprTree)
  | gotoDefault

/-! ### The text of a tree -/

/-- A question mark follows a name that is not bound. -/
def NameUse.chars (u : NameUse) : List Char :=
  u.text.toList ++ ((u.declared.map fun l => '@' :: Nat.toDigits 10 l.number.toNat).getD ['?'])

namespace ExprTree

mutual

/-- The characters in which a tree is written. -/
def chars : ExprTree → List Char
  | literal v => v.outline.toList
  | ident u => u.chars
  | unary op fixity x =>
    if fixity = .before then '(' :: (op.symbol.toList ++ (x.chars ++ [')']))
    else '(' :: (x.chars ++ (op.symbol.toList ++ [')']))
  | binary op l r =>
    if op = .index then l.chars ++ '[' :: (r.chars ++ [']'])
    else '(' :: (l.chars ++ ' ' :: (op.symbol.toList ++ ' ' :: (r.chars ++ [')'])))
  | conditional c t f =>
    '(' :: (c.chars ++ ' ' :: '?' :: ' ' :: (t.chars ++ ' ' :: ':' :: ' ' :: (f.chars ++ [')'])))
  | select o u => o.chars ++ '.' :: u.chars
  | list items => '[' :: ([',', ' '].intercalate (listChars items) ++ [']'])
  | gotoDefault => ['g', 'o', 't', 'o', ' ', 'd', 'e', 'f', 'a', 'u', 'l', 't']

def listChars : List ExprTree → List (List Char)
  | [] => []
  | t :: ts => t.chars :: listChars ts

end

lemma listChars_eq_map (ts : List ExprTree) : listChars ts = ts.map chars := by
  induction ts with
  | nil => rfl
  | cons t ts ih => rw [listChars, ih, List.map_cons]

end ExprTree

/-! ### The tree of an expression -/

namespace Program

variable {p : Program} {e : ExprId} {t : ExprTree}

def use (p : Program) (r : Reference) : NameUse := ⟨p.text r.name, r.target?.map p.symbolLine⟩

/-- The tree of an expression, if it has at most `depth` levels. -/
def treeWithin (p : Program) : Nat → ExprId → Option ExprTree
  | 0, _ => none
  | depth + 1, e =>
    let sub := p.treeWithin depth
    match p.expr? e with
    | none => none
    | some (.literal v _) => some (.literal v)
    | some (.ident r _) => some (.ident (p.use r))
    | some (.unary op fixity x _) => return .unary op fixity (← sub x)
    | some (.binary op l r _) => return .binary op (← sub l) (← sub r)
    | some (.conditional c t f _) => return .conditional (← sub c) (← sub t) (← sub f)
    | some (.select o r _) => return .select (← sub o) (p.use r)
    | some (.list items _) => return .list (← items.mapM sub)
    | some (.gotoDefault _) => some .gotoDefault

/-- The tree of an expression. Operands have smaller indices, which bounds the depth. -/
def tree? (p : Program) (e : ExprId) : Option ExprTree := p.treeWithin (e.index + 1) e

lemma toList_referenceText (r : Reference) : (p.referenceText r).toList = (p.use r).chars := by
  cases r with
  | free n => simp [referenceText, use, NameUse.chars, Reference.target?]
  | bound n s => simp [referenceText, use, NameUse.chars, Reference.target?]

private lemma map_eq_map_of_mapM {α β γ : Type} {f : α → Option β} {g : α → γ} {k : β → γ}
    {xs : List α} {ys : List β} (h : xs.mapM f = some ys) (hf : ∀ x y, f x = some y → g x = k y) :
    xs.map g = ys.map k := by
  induction xs generalizing ys with
  | nil =>
    obtain rfl : [] = ys := by simpa using h
    rfl
  | cons x xs ih =>
    obtain ⟨y, hy, zs, hzs, rfl⟩ : ∃ y, f x = some y ∧ ∃ zs, xs.mapM f = some zs ∧
        y :: zs = ys := by
      simpa [List.mapM_cons, Option.bind_eq_some_iff] using h
    rw [List.map_cons, List.map_cons, hf x y hy, ih hzs]

lemma exprTextWithin_binary {depth : Nat} {op : BinaryOp} {l r : ExprId} {line : Line}
    (he : p.expr? e = some (.binary op l r line)) (hop : op ≠ .index) :
    p.exprTextWithin (depth + 1) e = "(" ++ p.exprTextWithin depth l ++ " " ++ op.symbol ++ " " ++
      p.exprTextWithin depth r ++ ")" := by
  cases op with
  | index => exact absurd rfl hop
  | _ => simp only [exprTextWithin, he]

/-- The text of an expression is that of its tree. -/
lemma toList_exprTextWithin {depth : Nat} (h : p.treeWithin depth e = some t) :
    (p.exprTextWithin depth e).toList = t.chars := by
  induction depth generalizing e t with
  | zero => simp [treeWithin] at h
  | succ depth ih =>
    cases he : p.expr? e with
    | none => simp [treeWithin, he] at h
    | some x =>
      cases x with
      | literal v line =>
        obtain rfl : ExprTree.literal v = t := by simpa [treeWithin, he] using h
        simp only [exprTextWithin, he, ExprTree.chars]
      | ident r line =>
        obtain rfl : ExprTree.ident (p.use r) = t := by simpa [treeWithin, he] using h
        simp only [exprTextWithin, he, ExprTree.chars, toList_referenceText]
      | unary op fixity x line =>
        obtain ⟨tx, hx, rfl⟩ : ∃ tx, p.treeWithin depth x = some tx ∧
            ExprTree.unary op fixity tx = t := by
          simpa [treeWithin, he, Option.bind_eq_some_iff] using h
        cases fixity with
        | before => simp [exprTextWithin, he, ExprTree.chars, ih hx]
        | after => simp [exprTextWithin, he, ExprTree.chars, ih hx]
      | binary op l r line =>
        obtain ⟨tl, hl, tr, hr, rfl⟩ : ∃ tl, p.treeWithin depth l = some tl ∧
            ∃ tr, p.treeWithin depth r = some tr ∧ ExprTree.binary op tl tr = t := by
          simpa [treeWithin, he, Option.bind_eq_some_iff] using h
        by_cases hop : op = .index
        · subst hop
          simp [exprTextWithin, he, ExprTree.chars, ih hl, ih hr]
        · simp [exprTextWithin_binary he hop, ExprTree.chars, hop, ih hl, ih hr]
      | conditional c a b line =>
        obtain ⟨tc, hc, ta, ha, tb, hb, rfl⟩ : ∃ tc, p.treeWithin depth c = some tc ∧
            ∃ ta, p.treeWithin depth a = some ta ∧ ∃ tb, p.treeWithin depth b = some tb ∧
              ExprTree.conditional tc ta tb = t := by
          simpa [treeWithin, he, Option.bind_eq_some_iff] using h
        simp [exprTextWithin, he, ExprTree.chars, ih hc, ih ha, ih hb]
      | select o r line =>
        obtain ⟨object, ho, rfl⟩ : ∃ object, p.treeWithin depth o = some object ∧
            ExprTree.select object (p.use r) = t := by
          simpa [treeWithin, he, Option.bind_eq_some_iff] using h
        simp [exprTextWithin, he, ExprTree.chars, ih ho, toList_referenceText]
      | list items line =>
        obtain ⟨ts, hts, rfl⟩ : ∃ ts, items.mapM (p.treeWithin depth) = some ts ∧
            ExprTree.list ts = t := by
          simpa [treeWithin, he, Option.bind_eq_some_iff] using h
        have hitems : items.map (fun x => (p.exprTextWithin depth x).toList) =
            ts.map ExprTree.chars := map_eq_map_of_mapM hts fun _ _ => ih
        simp [exprTextWithin, he, ExprTree.chars, ExprTree.listChars_eq_map,
          String.toList_intercalate, Function.comp_def, hitems]
      | gotoDefault line =>
        obtain rfl : ExprTree.gotoDefault = t := by simpa [treeWithin, he] using h
        simp [exprTextWithin, he, ExprTree.chars]

lemma toList_exprText (h : p.tree? e = some t) : (p.exprText e).toList = t.chars :=
  toList_exprTextWithin h

/-! ### Programs whose expressions are trees -/

/-- A program that operations on allocated nodes and bindings lead to. -/
inductive Reached : Program → Prop
  | new : Reached .new
  | perform {p : Program} {op : Operation} : Reached p → op.Within p.extent → Reached (p.perform op)
  | bind {p : Program} (b : Bindings) : Reached p → Reached (p.bind b)

lemma Built.reached (h : p.Built) : p.Reached := by
  induction h with
  | new => exact .new
  | perform _ hop ih => exact ih.perform hop

lemma exprs_enter (scope : ScopeId) (n : Name) (v : SymbolId) :
    (p.enter scope n v).exprs = p.exprs := by
  unfold enter
  split <;> rfl

lemma exprs_declare (scope : ScopeId) (x : Symbol) : (p.declare scope x).2.exprs = p.exprs := by
  unfold declare
  split
  · rfl
  · exact exprs_enter ..

/-- Only one operation adds to the expressions, and one at a time. -/
lemma exprs_perform (op : Operation) : (p.perform op).exprs = p.exprs ∨
    ∃ x, op = .addExpr x ∧ (p.perform op).exprs = p.exprs.push x := by
  cases op with
  | addExpr x => exact .inr ⟨x, rfl, rfl⟩
  | intern | addStmt | addVar => exact .inl rfl
  | declare scope x => exact .inl (exprs_declare scope x)
  | declareClass text line head =>
    left
    unfold perform declareClass
    simp only
    split
    · rfl
    · cases head.baseClass with
      | none => exact exprs_enter ..
      | some base => exact exprs_enter ..
  | declareEnum text line head =>
    left
    unfold perform declareEnum
    simp only
    split
    · rfl
    · exact exprs_enter ..
  | declareMember owner x =>
    obtain h | ⟨_, scope, -, -, -, -, h⟩ := p.declareMember_cases owner x
    · exact .inl (congrArg exprs h)
    · exact .inl ((congrArg exprs h).trans (exprs_declare scope x))
  | defineConstructor v line c =>
    obtain h | ⟨n, -, h⟩ := p.defineConstructor_cases v line c
    · exact .inl (congrArg exprs h)
    · exact .inl ((congrArg exprs h).trans rfl)
  | defineDestructor v body =>
    obtain h | ⟨-, h⟩ := p.defineDestructor_cases v body
    · exact .inl (congrArg exprs h)
    · exact .inl ((congrArg exprs h).trans rfl)

/-- Operands are added before the expression that has them. -/
lemma Reached.operand_lt (h : p.Reached) {x : Expr} (he : p.expr? e = some x) {c : ExprId}
    (hc : c ∈ x.children) : c.index < e.index := by
  induction h generalizing x with
  | new => exact absurd he (by simp [expr?, show Program.new.exprs = #[] by decide])
  | @perform p op _ hop ih =>
    obtain heq | ⟨y, rfl, heq⟩ := p.exprs_perform op
    · exact ih (by rwa [expr?, heq] at he) hc
    · rw [expr?, heq, Array.getElem?_push] at he
      split at he
      · next hlast =>
        obtain rfl := Option.some.inj he
        exact (hop.1 c hc).trans_eq hlast.symm
      · exact ih he hc
  | @bind p b _ ih =>
    rw [expr?_bind] at he
    obtain ⟨y, hy, rfl⟩ := Option.map_eq_some_iff.mp he
    refine ih hy ?_
    cases hb : b.references.get? e with
    | none => simpa [hb] using hc
    | some t => simpa [hb] using hc

/-- An expression has a tree of no more levels than there are expressions up to it. -/
lemma Reached.exists_treeWithin (h : p.Reached) {depth : Nat} (hd : e.index < depth)
    (he : e.index < p.exprs.size) : ∃ t, p.treeWithin depth e = some t := by
  induction depth generalizing e with
  | zero => omega
  | succ depth ih =>
    obtain ⟨x, hx⟩ : ∃ x, p.expr? e = some x := ⟨_, Array.getElem?_eq_getElem he⟩
    have hsub : ∀ c ∈ x.children, ∃ t, p.treeWithin depth c = some t := fun c hc => by
      have hlt := h.operand_lt hx hc
      exact ih (by omega) (by omega)
    cases x with
    | literal | ident | gotoDefault => simp [treeWithin, hx]
    | unary op fixity a line =>
      obtain ⟨ta, ha⟩ := hsub a (by simp [Expr.children])
      simp [treeWithin, hx, ha]
    | binary op l r line =>
      obtain ⟨tl, hl⟩ := hsub l (by simp [Expr.children])
      obtain ⟨tr, hr⟩ := hsub r (by simp [Expr.children])
      simp [treeWithin, hx, hl, hr]
    | conditional c a b line =>
      obtain ⟨tc, hc⟩ := hsub c (by simp [Expr.children])
      obtain ⟨ta, ha⟩ := hsub a (by simp [Expr.children])
      obtain ⟨tb, hb⟩ := hsub b (by simp [Expr.children])
      simp [treeWithin, hx, hc, ha, hb]
    | select o r line =>
      obtain ⟨object, ho⟩ := hsub o (by simp [Expr.children])
      simp [treeWithin, hx, ho]
    | list items line =>
      have hitems : items.mapM (p.treeWithin depth) = some (items.filterMap (p.treeWithin depth)) :=
        mapM_eq_filterMap fun c hc => Option.isSome_iff_exists.mpr (hsub c hc)
      simp [treeWithin, hx, hitems]

end Program

end NameBinding
