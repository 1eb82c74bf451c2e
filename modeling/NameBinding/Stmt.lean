import NameBinding.Ids
import NameBinding.Line

/-!
Statements. Children are named by identifier, so that a statement may be shared.
-/

namespace NameBinding

structure Block where
  statements : List StmtId
  line : Line
deriving DecidableEq

/-- One clause of a switch: its values, its body, and where control goes on after the body. -/
structure Case where
  values : List ExprId
  body : List StmtId
  fallthrough : Option ExprId
  line : Line
deriving DecidableEq

inductive Stmt
  | block (block : Block)
  | branch (cond : ExprId) (onTrue : StmtId) (onFalse : Option StmtId) (line : Line)
  | whileLoop (cond : ExprId) (body : StmtId) (line : Line)
  | doWhile (body : StmtId) (cond : ExprId) (line : Line)
  | forLoop (init : Option StmtId) (cond advance : Option ExprId) (body : StmtId) (line : Line)
  | breakLoop (line : Line)
  | continueLoop (line : Line)
  | returnValue (value : Option ExprId) (line : Line)
  | throwMessage (message : ExprId) (line : Line)
  | deleteTarget (target : ExprId) (line : Line)
  | switch (value : ExprId) (cases : List Case) (defaultBody : Option (List StmtId)) (line : Line)
  | expr (expr : ExprId) (line : Line)
  | var (symbol : SymbolId) (line : Line)
deriving DecidableEq

namespace Stmt

def line : Stmt → Line
  | block b => b.line
  | branch _ _ _ l | whileLoop _ _ l | doWhile _ _ l | forLoop _ _ _ _ l | breakLoop l
  | continueLoop l | returnValue _ l | throwMessage _ l | deleteTarget _ l | switch _ _ _ l
  | expr _ l | var _ l => l

/-- The clauses of a switch with values; no other statement has any. -/
def cases : Stmt → List Case
  | switch _ cs _ _ => cs
  | _ => []

def isSwitch : Stmt → Bool
  | switch _ _ _ _ => true
  | _ => false

def isBlock : Stmt → Bool
  | block _ => true
  | _ => false

end Stmt

end NameBinding
