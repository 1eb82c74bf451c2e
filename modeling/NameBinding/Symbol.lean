import NameBinding.Expr
import NameBinding.Stmt

/-!
Declarations: variables, members of types, and the types themselves.
-/

namespace NameBinding

inductive Visibility
  | priv | internal | prot | pub
deriving DecidableEq

namespace Visibility

instance : Inhabited Visibility := ⟨priv⟩

def display : Visibility → String
  | priv => "private"
  | internal => "internal"
  | prot => "protected"
  | pub => "public"

end Visibility

/-- How a method is dispatched, or how a class takes part in inheritance. -/
inductive Modifier
  | static | normal | abstract | virtual | override | sealed
deriving DecidableEq

namespace Modifier

instance : Inhabited Modifier := ⟨normal⟩

def display : Modifier → String
  | static => "static"
  | normal => "normal"
  | abstract => "abstract"
  | virtual => "virtual"
  | override => "override"
  | sealed => "sealed"

end Modifier

inductive Builtin
  | bool | byte | int | long | float | double | string
deriving DecidableEq

namespace Builtin

/-- The built-in types in the order in which a new program declares them. -/
def all : List Builtin := [bool, byte, int, long, float, double, string]

def keyword : Builtin → String
  | bool => "bool"
  | byte => "byte"
  | int => "int"
  | long => "long"
  | float => "float"
  | double => "double"
  | string => "string"

end Builtin

/-- A declared type with an optional initializer. -/
structure TypedValue where
  type : ExprId
  init : Option ExprId
deriving DecidableEq

/-- The expressions of a typed value, the type first. -/
def TypedValue.exprs (v : TypedValue) : List ExprId := v.type :: v.init.toList

structure MemberValue where
  visibility : Visibility
  value : TypedValue
deriving DecidableEq

/-- What methods and constructors have in common. -/
structure Callable where
  visibility : Visibility
  body : Option StmtId
deriving DecidableEq

structure Method where
  callable : Callable
  returnType : Option ExprId
  modifier : Modifier
  isMutator : Bool
  parameters : List SymbolId
deriving DecidableEq

/-- Where a type was declared, and whether it is exported. -/
structure Origin where
  file : String
  isPublic : Bool
deriving DecidableEq

structure EnumInfo where
  origin : Origin
  isFlags : Bool
  scope : ScopeId
deriving DecidableEq

structure BaseClass where
  reference : Reference
  line : Line
deriving DecidableEq

/-- The members are listed by kind, each list in the order of declaration. -/
structure ClassInfo where
  origin : Origin
  modifier : Modifier
  baseClass : Option BaseClass
  constructor : Option SymbolId
  destructor : Option Block
  consts : List SymbolId
  fields : List SymbolId
  methods : List SymbolId
  scope : ScopeId
deriving DecidableEq

/-- Binds the base class, if there is one. -/
def ClassInfo.bindBase (c : ClassInfo) (base : SymbolId) : ClassInfo :=
  { c with baseClass := c.baseClass.map fun b => { b with reference := b.reference.bind base } }

inductive SymbolKind
  | var (value : TypedValue)
  | field (member : MemberValue)
  | const (member : MemberValue)
  | constructor (callable : Callable)
  | method (method : Method)
  | enumType (type : EnumInfo)
  | classType (type : ClassInfo)
  | builtin (type : Builtin)
deriving DecidableEq

namespace SymbolKind

def display : SymbolKind → String
  | var _ => "var"
  | field _ => "field"
  | const _ => "const"
  | constructor _ => "constructor"
  | method _ => "method"
  | enumType _ => "enum"
  | classType _ => "class"
  | builtin _ => "builtin type"

end SymbolKind

structure Symbol where
  name : Name
  line : Line
  kind : SymbolKind
deriving DecidableEq

namespace Symbol

/-- The scope that holds the members of a class or an enum. -/
def scope? (s : Symbol) : Option ScopeId :=
  match s.kind with
  | .enumType t => some t.scope
  | .classType c => some c.scope
  | _ => none

/-- The type and initializer of a variable, a field or a constant. -/
def typedValue? (s : Symbol) : Option TypedValue :=
  match s.kind with
  | .var v => some v
  | .field m | .const m => some m.value
  | _ => none

def visibility? (s : Symbol) : Option Visibility :=
  match s.kind with
  | .field m | .const m => some m.visibility
  | .constructor c => some c.visibility
  | .method m => some m.callable.visibility
  | _ => none

def class? (s : Symbol) : Option ClassInfo :=
  match s.kind with
  | .classType c => some c
  | _ => none

def enum? (s : Symbol) : Option EnumInfo :=
  match s.kind with
  | .enumType t => some t
  | _ => none

def method? (s : Symbol) : Option Method :=
  match s.kind with
  | .method m => some m
  | _ => none

def constructor? (s : Symbol) : Option Callable :=
  match s.kind with
  | .constructor c => some c
  | _ => none

def isType (s : Symbol) : Bool :=
  match s.kind with
  | .enumType _ | .classType _ | .builtin _ => true
  | _ => false

def isClass (s : Symbol) : Bool := s.class?.isSome

/-- The base class as it is written in the declaration. -/
def baseClass? (s : Symbol) : Option BaseClass := s.class?.bind (·.baseClass)

/-- Changes the class that a symbol stands for; other symbols stay as they are. -/
def mapClass (f : ClassInfo → ClassInfo) (s : Symbol) : Symbol :=
  match s.kind with
  | .classType c => { s with kind := .classType (f c) }
  | _ => s

end Symbol

end NameBinding
