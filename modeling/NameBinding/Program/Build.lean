import NameBinding.Program.Basic
import NameBinding.Program.BuildError

/-!
Building a program. Nodes are appended to their tables; declarations are checked against the scope
they go into. A refused declaration allocates nothing, but the texts it was given stay interned.
-/

namespace NameBinding

/-- What stands in the head of a class declaration. -/
structure ClassHead where
  origin : Origin := ⟨"", false⟩
  modifier : Modifier := .normal
  baseClass : Option String := none

/-- What stands in the head of an enum declaration. -/
structure EnumHead where
  origin : Origin := ⟨"", false⟩
  isFlags : Bool := false

namespace Program

/-- The result of a declaration, with the program after it. -/
abbrev Outcome (α : Type) := Except BuildError α × Program

def intern (p : Program) (text : String) : Name × Program :=
  let (n, names) := p.names.intern text
  (n, { p with names })

def addExpr (p : Program) (e : Expr) : ExprId × Program :=
  (⟨p.exprs.size⟩, { p with exprs := p.exprs.push e })

def addStmt (p : Program) (s : Stmt) : StmtId × Program :=
  (⟨p.stmts.size⟩, { p with stmts := p.stmts.push s })

/-- Enters a symbol into the table, and into no scope. -/
def addSymbol (p : Program) (s : Symbol) : SymbolId × Program :=
  (⟨p.symbols.size⟩, { p with symbols := p.symbols.push s })

/-- Enters the name of a symbol into a scope; a name that the scope declares already stays. -/
def enter (p : Program) (scope : ScopeId) (n : Name) (s : SymbolId) : Program :=
  match p.scopes.add scope n s with
  | .ok scopes => { p with scopes }
  | .error _ => p

def declareBuiltin (p : Program) (b : Builtin) : Program :=
  let (n, p) := p.intern b.keyword
  let (s, p) := p.addSymbol ⟨n, {}, .builtin b⟩
  p.enter ScopeTree.global n s

/-- The program whose global scope holds the built-in types only. -/
def new : Program :=
  Builtin.all.foldl declareBuiltin ⟨{}, #[], #[], #[], .new, [], []⟩

/-- A variable that belongs to no scope yet: a parameter or a local. -/
def addVar (p : Program) (text : String) (line : Line) (value : TypedValue) : SymbolId × Program :=
  let (n, p) := p.intern text
  p.addSymbol ⟨n, line, .var value⟩

/-- A local declaration: its variable and the statement that declares it. -/
def addLocal (p : Program) (text : String) (line : Line) (value : TypedValue) :
    StmtId × SymbolId × Program :=
  let (v, p) := p.addVar text line value
  let (s, p) := p.addStmt (.var v line)
  (s, v, p)

/-- The refusal of a name that `existing` holds already. -/
def duplicate (p : Program) (n : Name) (line : Line) (existing : SymbolId) : BuildError :=
  .duplicate (p.text n) line (p.symbolLine existing)

/-- The refusal of a symbol that has no members. -/
def notAType (p : Program) (s : SymbolId) : BuildError :=
  .notAType (p.symbolText s) (((p.symbol? s).map (·.kind.display)).getD "") (p.symbolLine s)

/-- Declares a symbol in a scope. -/
def declare (p : Program) (scope : ScopeId) (s : Symbol) : Outcome SymbolId :=
  match p.scopes.declared? scope s.name with
  | some existing => (.error (p.duplicate s.name s.line existing), p)
  | none =>
    let (id, p) := p.addSymbol s
    (.ok id, p.enter scope s.name id)

/-- Declares a type at the top: its symbol, built around the scope for its members. -/
def declareType (p : Program) (n : Name) (line : Line) (kind : ScopeId → SymbolKind) :
    SymbolId × Program :=
  let id : SymbolId := ⟨p.symbols.size⟩
  let (scope, scopes) := p.scopes.addChild ScopeTree.global (.type id)
  let (id, p) := { p with scopes }.addSymbol ⟨n, line, kind scope⟩
  (id, p.enter ScopeTree.global n id)

/-- Declares a class at the top. The base class is only named; it is bound later. -/
def declareClass (p : Program) (text : String) (line : Line) (head : ClassHead) :
    Outcome SymbolId :=
  let (n, p) := p.intern text
  match p.scopes.declared? ScopeTree.global n with
  | some existing => (.error (p.duplicate n line existing), p)
  | none =>
    let (base, p) :=
      match head.baseClass with
      | none => (none, p)
      | some base =>
        let (b, p) := p.intern base
        (some (BaseClass.mk (.free b) line), p)
    let (id, p) := p.declareType n line fun scope => .classType
      { origin := head.origin, modifier := head.modifier, baseClass := base
        constructor := none, destructor := none, consts := [], fields := [], methods := [], scope }
    (.ok id, { p with classes := p.classes ++ [id] })

/-- Declares an enum at the top. -/
def declareEnum (p : Program) (text : String) (line : Line) (head : EnumHead) : Outcome SymbolId :=
  let (n, p) := p.intern text
  match p.scopes.declared? ScopeTree.global n with
  | some existing => (.error (p.duplicate n line existing), p)
  | none =>
    let (id, p) := p.declareType n line fun scope => .enumType
      { origin := head.origin, isFlags := head.isFlags, scope }
    (.ok id, { p with enums := p.enums ++ [id] })

/-- Changes the class that a symbol stands for. -/
def modifyClass (p : Program) (s : SymbolId) (f : ClassInfo → ClassInfo) : Program :=
  { p with symbols := p.symbols.modify s.index (Symbol.mapClass f) }

/-- A class holds constants, fields and methods, and an enum holds constants. -/
def accepts : SymbolKind → SymbolKind → Bool
  | .classType _, .const _ | .classType _, .field _ | .classType _, .method _ => true
  | .enumType _, .const _ => true
  | _, _ => false

/-- Appends a member to the list of its kind. -/
def listMember (kind : SymbolKind) (s : SymbolId) (c : ClassInfo) : ClassInfo :=
  match kind with
  | .const _ => { c with consts := c.consts ++ [s] }
  | .field _ => { c with fields := c.fields ++ [s] }
  | _ => { c with methods := c.methods ++ [s] }

/-- Adds a member to a class or an enum. -/
def declareMember (p : Program) (owner : SymbolId) (member : Symbol) : Outcome SymbolId :=
  match p.symbol? owner with
  | none => (.error (p.notAType owner), p)
  | some o =>
    match o.scope? with
    | none => (.error (p.notAType owner), p)
    | some scope =>
      if accepts o.kind member.kind then
        match p.declare scope member with
        | (.error e, p) => (.error e, p)
        | (.ok id, p) => (.ok id, p.modifyClass owner (listMember member.kind id))
      else
        let owner := p.symbolText owner
        (.error (.misplacedMember owner o.kind.display member.kind.display member.line), p)

/-- Gives a class its constructor, which bears the name of the class and is in no scope. -/
def defineConstructor (p : Program) (s : SymbolId) (line : Line) (c : Callable) :
    Outcome SymbolId :=
  match p.symbol? s with
  | none => (.error (p.notAType s), p)
  | some sym =>
    match sym.class? with
    | none => (.error (p.notAType s), p)
    | some cls =>
      if cls.constructor.isSome then (.error (.secondConstructor (p.symbolText s) line), p)
      else
        let (id, p) := p.addSymbol ⟨sym.name, line, .constructor c⟩
        (.ok id, p.modifyClass s fun cls => { cls with constructor := some id })

/-- Gives a class the body of its destructor. -/
def defineDestructor (p : Program) (s : SymbolId) (body : Block) : Outcome Unit :=
  match p.class? s with
  | none => (.error (p.notAType s), p)
  | some cls =>
    if cls.destructor.isSome then (.error (.secondDestructor (p.symbolText s) body.line), p)
    else (.ok (), p.modifyClass s fun cls => { cls with destructor := some body })

end Program

end NameBinding
