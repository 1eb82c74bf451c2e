/-!
Operators and the symbols they are written with.
-/

namespace NameBinding

inductive UnaryOp
  | neg | not | bitNot | increment | decrement
deriving DecidableEq

/-- The side of its operand on which a unary operator stands. -/
inductive Fixity
  | before | after
deriving DecidableEq

inductive BinaryOp
  | add | sub | mul | div | mod | shl | shr
  | lt | le | gt | ge | eq | ne
  | bitAnd | bitOr | bitXor | and | or
  | assign | addAssign | subAssign | mulAssign | divAssign | modAssign
  | shlAssign | shrAssign | bitAndAssign | bitOrAssign | bitXorAssign
  | index
deriving DecidableEq

def UnaryOp.symbol : UnaryOp → String
  | neg => "-"
  | not => "!"
  | bitNot => "~"
  | increment => "++"
  | decrement => "--"

namespace BinaryOp

def symbol : BinaryOp → String
  | add => "+"
  | sub => "-"
  | mul => "*"
  | div => "/"
  | mod => "%"
  | shl => "<<"
  | shr => ">>"
  | lt => "<"
  | le => "<="
  | gt => ">"
  | ge => ">="
  | eq => "=="
  | ne => "!="
  | bitAnd => "&"
  | bitOr => "|"
  | bitXor => "^"
  | and => "&&"
  | or => "||"
  | assign => "="
  | addAssign => "+="
  | subAssign => "-="
  | mulAssign => "*="
  | divAssign => "/="
  | modAssign => "%="
  | shlAssign => "<<="
  | shrAssign => ">>="
  | bitAndAssign => "&="
  | bitOrAssign => "|="
  | bitXorAssign => "^="
  | index => "[]"

/-- Whether the operator writes to its left operand. -/
def isAssignment : BinaryOp → Bool
  | assign | addAssign | subAssign | mulAssign | divAssign | modAssign
  | shlAssign | shrAssign | bitAndAssign | bitOrAssign | bitXorAssign => true
  | _ => false

end BinaryOp

end NameBinding
