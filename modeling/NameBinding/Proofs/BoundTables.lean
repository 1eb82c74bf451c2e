import NameBinding.Proofs.Script
import NameBinding.Resolve.Switches

/-!
What bindings leave as it is. They change the targets of names and of base classes and nothing else,
so the program to which they are applied is resolved by the same scripts, and walked in the same
way, as long as its enums keep their members.
-/

namespace NameBinding

/-! ### Nodes -/

namespace Expr

variable (x : Expr) (t : SymbolId)

@[simp] lemma children_bind : (x.bind t).children = x.children := by
  cases x <;> rfl

@[simp] lemma line_bind : (x.bind t).line = x.line := by
  cases x <;> rfl

@[simp] lemma isGotoDefault_bind : (x.bind t).isGotoDefault = x.isGotoDefault := by
  cases x <;> rfl

lemma reference?_bind : (x.bind t).reference? = x.reference?.map (·.bind t) := by
  cases x <;> rfl

end Expr

@[simp] lemma Reference.name_bind (r : Reference) (t : SymbolId) : (r.bind t).name = r.name := by
  cases r <;> rfl

/-- The operands, the name and the jump of an expression do not depend on what the name is bound to.
-/
lemma Program.exprParts_bind (e : ExprId) (x : Expr) (t : SymbolId) :
    exprParts e (x.bind t) = exprParts e x := by
  simp only [exprParts, Expr.children_bind, Expr.isGotoDefault_bind, Expr.reference?_bind,
    Option.map_map, Function.comp_def, Reference.name_bind]

namespace Program

variable {p : Program} {b : Bindings}

lemma expr?_bind (e : ExprId) : (p.bind b).expr? e =
    (p.expr? e).map fun x => ((b.references.get? e).map x.bind).getD x := by
  simp only [expr?, bind, Array.getElem?_mapIdx]

lemma symbol?_bind (v : SymbolId) : (p.bind b).symbol? v = (p.symbol? v).map fun x =>
    ((b.baseClasses.get? v).map fun t => x.mapClass (·.bindBase t)).getD x := by
  simp only [symbol?, bind, Array.getElem?_mapIdx]

lemma map_expr?_bind {α : Type} (f : Expr → α) (hf : ∀ x t, f (x.bind t) = f x) (e : ExprId) :
    ((p.bind b).expr? e).map f = (p.expr? e).map f := by
  rw [expr?_bind, Option.map_map]
  cases p.expr? e with
  | none => rfl
  | some x =>
    cases b.references.get? e with
    | none => rfl
    | some t => exact congrArg some (hf x t)

lemma bind_symbol?_bind {α : Type} (f : Symbol → Option α)
    (hf : ∀ x t, f (x.mapClass (·.bindBase t)) = f x) (v : SymbolId) :
    ((p.bind b).symbol? v).bind f = (p.symbol? v).bind f := by
  rw [symbol?_bind]
  cases p.symbol? v with
  | none => rfl
  | some x =>
    cases b.baseClasses.get? v with
    | none => rfl
    | some t => exact hf x t

lemma operands_bind (e : ExprId) : (p.bind b).operands e = p.operands e := by
  rw [operands, operands, map_expr?_bind _ Expr.children_bind]

lemma valueExprs_bind (v : SymbolId) : (p.bind b).valueExprs v = p.valueExprs v := by
  have htyped : (p.bind b).typedValue? v = p.typedValue? v :=
    bind_symbol?_bind _ (fun ⟨_, _, k⟩ _ => by cases k <;> rfl) v
  rw [valueExprs, valueExprs, htyped]

/-- Of a class only the base changes. -/
lemma class?_bind (v : SymbolId) : (p.bind b).class? v =
    (p.class? v).map fun c => ((b.baseClasses.get? v).map c.bindBase).getD c := by
  rw [class?, class?, symbol?_bind]
  cases p.symbol? v with
  | none => rfl
  | some x =>
    obtain ⟨n, l, k⟩ := x
    cases b.baseClasses.get? v <;> cases k <;> rfl

lemma enum?_bind (v : SymbolId) : (p.bind b).enum? v = p.enum? v :=
  bind_symbol?_bind _ (fun ⟨_, _, k⟩ _ => by cases k <;> rfl) v

/-- Every enum has the members that it had. -/
def KeepsEnums (p : Program) (b : Bindings) : Prop :=
  ∀ v t, p.enum? v = some t → (p.bind b).members t.scope = p.members t.scope

end Program

/-! ### Scripts -/

namespace Script

variable {p : Program} {b : Bindings}

lemma expr_bind : expr (p.bind b) = expr p := by
  have hwithin : ∀ depth, exprWithin (p.bind b) depth = exprWithin p depth := by
    intro depth
    induction depth with
    | zero => rfl
    | succ depth ih =>
      funext e
      simp only [exprWithin, ih, Program.operands_bind]
  funext e
  exact congrFun (hwithin _) e

lemma exprs_bind : exprs (p.bind b) = exprs p := by
  funext es
  rw [exprs, exprs, expr_bind]

lemma value_bind : value (p.bind b) = value p := by
  funext v
  rw [value, value, exprs_bind, Program.valueExprs_bind]

lemma localVar_bind : localVar (p.bind b) = localVar p := by
  funext v
  rw [localVar, localVar, value_bind]

lemma nested_bind (f : StmtId → Script) : nested (p.bind b) f = nested p f := rfl

lemma stmtStep_bind (f : StmtId → Script) (s : StmtId) (x : Stmt) :
    stmtStep (p.bind b) f s x = stmtStep p f s x := by
  have hcase : case (p.bind b) f s = case p f s := by
    funext c
    rw [case, case, exprs_bind]
  cases x <;> simp only [stmtStep, expr_bind, exprs_bind, localVar_bind, nested_bind, hcase]

lemma stmt_bind : stmt (p.bind b) = stmt p := by
  have hwithin : ∀ depth, stmtWithin (p.bind b) depth = stmtWithin p depth := by
    intro depth
    induction depth with
    | zero => rfl
    | succ depth ih =>
      funext s
      have hstep : stmtStep (p.bind b) (stmtWithin p depth) s = stmtStep p (stmtWithin p depth) s :=
        funext (stmtStep_bind _ s)
      rw [stmtWithin, stmtWithin, ih, hstep]
      rfl
  funext s
  exact congrFun (hwithin _) s

lemma method_bind : method (p.bind b) = method p := by
  funext s
  have hmethod := Program.bind_symbol?_bind (p := p) (b := b) (·.method?)
    (fun ⟨_, _, k⟩ _ => by cases k <;> rfl) s
  unfold method
  rw [hmethod, exprs_bind, localVar_bind, stmt_bind]

lemma constructor_bind : constructor (p.bind b) = constructor p := by
  funext s
  have hconstructor := Program.bind_symbol?_bind (p := p) (b := b) (·.constructor?)
    (fun ⟨_, _, k⟩ _ => by cases k <;> rfl) s
  unfold constructor plainBody
  rw [hconstructor, stmt_bind]

lemma classType_bind (s : SymbolId) (c : ClassInfo) :
    classType (p.bind b) s c = classType p s c := by
  unfold classType plainBody
  rw [value_bind, constructor_bind, stmt_bind, method_bind]

end Script

/-- Bindings leave the scripts of a program as they are. -/
lemma Program.scripts_bind {p : Program} {b : Bindings} (h : p.KeepsEnums b) :
    (p.bind b).scripts = p.scripts := by
  have hclass : ∀ s, ((p.bind b).class? s).map
      (fun c => (c.scope, Script.classType (p.bind b) s c)) =
        (p.class? s).map fun c => (c.scope, Script.classType p s c) := by
    intro s
    rw [class?_bind, Option.map_map]
    cases p.class? s with
    | none => rfl
    | some c => cases b.baseClasses.get? s <;> exact congrArg some (Prod.ext rfl
        (Script.classType_bind s _))
  have henum : ∀ s, ((p.bind b).enum? s).map
      (fun t => (t.scope, Script.enumType (p.bind b) t)) =
        (p.enum? s).map fun t => (t.scope, Script.enumType p t) := by
    intro s
    rw [enum?_bind]
    cases ht : p.enum? s with
    | none => rfl
    | some t =>
      simp only [Option.map_some, Script.enumType, Script.value_bind, h s t ht]
  unfold scripts
  simp only [hclass, henum]
  rfl

/-! ### Walks -/

namespace Program

variable {p : Program} {b : Bindings} (h : p.KeepsEnums b)
include h

lemma symbolParts_bind (v : SymbolId) :
    ((p.bind b).symbol? v).map (p.bind b).symbolParts = (p.symbol? v).map p.symbolParts := by
  rw [symbol?_bind, Option.map_map]
  cases hx : p.symbol? v with
  | none => rfl
  | some x =>
    obtain ⟨n, l, k⟩ := x
    cases k with
    | enumType t =>
      have ht : p.enum? v = some t := by rw [enum?, hx]; rfl
      have hmembers := h v t ht
      cases b.baseClasses.get? v <;>
        simp [symbolParts, Symbol.mapClass, hmembers]
    | _ => cases b.baseClasses.get? v <;> rfl

lemma parts_bind (place : Place) : (p.bind b).parts place = p.parts place := by
  obtain ⟨node, clause, after⟩ := place
  cases node with
  | symbol v => simp only [parts, symbolParts_bind h]
  | expr e => simp only [parts, map_expr?_bind _ (exprParts_bind e)]
  | _ => rfl

lemma visit_bind (depth : Nat) : (p.bind b).visit depth = p.visit depth := by
  induction depth with
  | zero => rfl
  | succ depth ih =>
    funext place
    rw [visit, visit, ih, parts_bind h]

lemma walk_bind : (p.bind b).walk = p.walk := by
  have hdepth : (p.bind b).depth = p.depth := by simp [depth, bind]
  have hfrom : (p.bind b).walkFrom = p.walkFrom := by
    funext n
    rw [walkFrom, walkFrom, hdepth, visit_bind h]
  rw [walk, walk, hfrom]
  rfl

/-- Bindings break no rule of a switch, and mend none. -/
lemma switchFaults_bind : (p.bind b).switchFaults = p.switchFaults := by
  have hline : ∀ e, (p.bind b).exprLine e = p.exprLine e := by
    intro e
    rw [exprLine, exprLine, map_expr?_bind _ Expr.line_bind]
  have hfault : (p.bind b).switchFault? = p.switchFault? := by
    funext place
    obtain ⟨node, clause, after⟩ := place
    cases node with
    | gotoDefault e => simp only [switchFault?, hline]
    | expr e => simp only [switchFault?, hline, map_expr?_bind _ Expr.isGotoDefault_bind]
    | _ => rfl
  rw [switchFaults, switchFaults, walk_bind h, hfault]

end Program

end NameBinding
