import NameBinding.Scope
import NameBinding.Symbol

/-!
Programs: tables of statements, expressions and symbols, the tree of scopes, and the classes and
enums that stand at the top.
-/

namespace NameBinding

structure Program where
  names : NameTable
  stmts : Array Stmt
  exprs : Array Expr
  symbols : Array Symbol
  scopes : ScopeTree
  classes : List SymbolId
  enums : List SymbolId
deriving DecidableEq

namespace Program

def stmt? (p : Program) (s : StmtId) : Option Stmt := p.stmts[s.index]?

def expr? (p : Program) (e : ExprId) : Option Expr := p.exprs[e.index]?

def symbol? (p : Program) (s : SymbolId) : Option Symbol := p.symbols[s.index]?

/-- The text of a name; a name that was never interned has the empty text. -/
def text (p : Program) (n : Name) : String := (p.names.text? n).getD ""

/-- The declared name of a symbol. -/
def symbolText (p : Program) (s : SymbolId) : String :=
  ((p.symbol? s).map fun sym => p.text sym.name).getD ""

def symbolLine (p : Program) (s : SymbolId) : Line := ((p.symbol? s).map (·.line)).getD {}

def exprLine (p : Program) (e : ExprId) : Line := ((p.expr? e).map (·.line)).getD {}

def class? (p : Program) (s : SymbolId) : Option ClassInfo := (p.symbol? s).bind (·.class?)

def typedValue? (p : Program) (s : SymbolId) : Option TypedValue :=
  (p.symbol? s).bind (·.typedValue?)

/-- The reference that an expression carries. -/
def reference? (p : Program) (e : ExprId) : Option Reference := (p.expr? e).bind (·.reference?)

/-- The symbols declared in a scope, in the order of declaration. -/
def members (p : Program) (s : ScopeId) : List SymbolId := p.scopes.symbols s

/-- What a text means in a scope; a text that was never interned means nothing. -/
def lookup (p : Program) (s : ScopeId) (text : String) : Option SymbolId :=
  (p.names.find? text).bind (p.scopes.lookup s)

def exprIds (p : Program) : List ExprId := (List.range p.exprs.size).map ExprId.mk

def stmtIds (p : Program) : List StmtId := (List.range p.stmts.size).map StmtId.mk

def symbolIds (p : Program) : List SymbolId := (List.range p.symbols.size).map SymbolId.mk

end Program

end NameBinding
