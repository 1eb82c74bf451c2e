import NameBinding.Binary64.Layout
import NameBinding.Program.Basic
import NameBinding.Text.Quoted

/-!
Expressions on one line. Every operator has parentheses of its own, so the text shows the tree. A
name is followed by the line of its declaration once it is bound, and by a question mark before.
-/

namespace NameBinding

/-- Numbers from a ten-thousandth up to sixteen places before the point are written out. -/
def Outline.floats : Binary64.Layout := ⟨-3, 16⟩

def Literal.outline : Literal → String
  | null => "null"
  | bool b => if b then "true" else "false"
  | int n => toString n.toInt
  | float x => Outline.floats.write x
  | string s => Text.quotedString s
  | char c => Text.quotedChar c

namespace Program

def referenceText (p : Program) (r : Reference) : String :=
  match r.target? with
  | some t => p.text r.name ++ "@" ++ (p.symbolLine t).number.toNat.repr
  | none => p.text r.name ++ "?"

/-- The text of an expression, down to `depth` levels. -/
def exprTextWithin (p : Program) : Nat → ExprId → String
  | 0, _ => ""
  | depth + 1, e =>
    let sub := p.exprTextWithin depth
    match p.expr? e with
    | none => ""
    | some (.literal v _) => v.outline
    | some (.ident r _) => p.referenceText r
    | some (.unary op .before x _) => "(" ++ op.symbol ++ sub x ++ ")"
    | some (.unary op .after x _) => "(" ++ sub x ++ op.symbol ++ ")"
    | some (.binary .index l r _) => sub l ++ "[" ++ sub r ++ "]"
    | some (.binary op l r _) => "(" ++ sub l ++ " " ++ op.symbol ++ " " ++ sub r ++ ")"
    | some (.conditional c t f _) => "(" ++ sub c ++ " ? " ++ sub t ++ " : " ++ sub f ++ ")"
    | some (.select o r _) => sub o ++ "." ++ p.referenceText r
    | some (.list items _) => "[" ++ ", ".intercalate (items.map sub) ++ "]"
    | some (.gotoDefault _) => "goto default"

/-- The text of an expression. Operands have smaller indices, which bounds the depth. -/
def exprText (p : Program) (e : ExprId) : String := p.exprTextWithin (e.index + 1) e

/-- A declared type, with the initializer if there is one. -/
def typedValueText (p : Program) (v : TypedValue) : String :=
  p.exprText v.type ++ ((v.init.map fun e => " = " ++ p.exprText e).getD "")

end Program

end NameBinding
