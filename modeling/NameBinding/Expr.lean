import NameBinding.Binary64.Basic
import NameBinding.Ids
import NameBinding.NameTable
import NameBinding.Line
import NameBinding.Operator

/-!
Expressions. Children are named by identifier, so that an expression may be shared.
-/

namespace NameBinding

inductive Literal
  | null
  | bool (value : Bool)
  | int (value : Int64)
  | float (value : Binary64)
  | string (value : String)
  | char (value : Char)
deriving DecidableEq

/-- The use of a name, with the declaration it binds to once that is known. -/
inductive Reference
  | free (name : Name)
  | bound (name : Name) (target : SymbolId)
deriving DecidableEq

namespace Reference

def name : Reference → Name
  | free n => n
  | bound n _ => n

def target? : Reference → Option SymbolId
  | free _ => none
  | bound _ t => some t

def isBound (r : Reference) : Bool := r.target?.isSome

/-- Binding is final: a bound reference keeps its target. -/
def bind : Reference → SymbolId → Reference
  | free n, t => bound n t
  | bound n t, _ => bound n t

/-- The reference for a name, bound if a target is given. -/
def of (n : Name) : Option SymbolId → Reference
  | none => free n
  | some t => bound n t

end Reference

inductive Expr
  | literal (value : Literal) (line : Line)
  | ident (reference : Reference) (line : Line)
  | unary (op : UnaryOp) (fixity : Fixity) (operand : ExprId) (line : Line)
  | binary (op : BinaryOp) (left right : ExprId) (line : Line)
  | conditional (cond onTrue onFalse : ExprId) (line : Line)
  | select (object : ExprId) (reference : Reference) (line : Line)
  | list (items : List ExprId) (line : Line)
  | gotoDefault (line : Line)
deriving DecidableEq

namespace Expr

def line : Expr → Line
  | literal _ l | ident _ l | unary _ _ _ l | binary _ _ _ l | conditional _ _ _ l
  | select _ _ l | list _ l | gotoDefault l => l

/-- The operands, in the order in which they are written. -/
def children : Expr → List ExprId
  | literal _ _ | ident _ _ | gotoDefault _ => []
  | unary _ _ operand _ => [operand]
  | binary _ left right _ => [left, right]
  | conditional cond onTrue onFalse _ => [cond, onTrue, onFalse]
  | select object _ _ => [object]
  | list items _ => items

/-- The reference that a name or the selection of a member carries. -/
def reference? : Expr → Option Reference
  | ident r _ | select _ r _ => some r
  | _ => none

def isGotoDefault : Expr → Bool
  | gotoDefault _ => true
  | _ => false

/-- Binds the reference, if there is one. -/
def bind : Expr → SymbolId → Expr
  | ident r l, t => ident (r.bind t) l
  | select o r l, t => select o (r.bind t) l
  | e, _ => e

end Expr

/-- Equality of literals, with floats compared as numbers. -/
def Literal.sameValue : Literal → Literal → Bool
  | float x, float y => x.sameValue y
  | v, w => v = w

/-- Equality of two nodes; children compare by identifier, and lines count. -/
def Expr.sameNode : Expr → Expr → Bool
  | literal v l, literal w m => v.sameValue w && l = m
  | e, f => e = f

end NameBinding
