import NameBinding.Program.Bindings

/-!
Inheritance: the base of each class, classes that inherit from themselves, and the chain of types in
which a member is looked up.
-/

namespace NameBinding

namespace Program

/-- The base of a class as bound by `b`, or else as bound in the program. -/
def base? (p : Program) (b : Bindings) (s : SymbolId) : Option SymbolId :=
  (b.baseClasses.get? s).or (((p.symbol? s).bind (·.baseClass?)).bind (·.reference.target?))

end Program

/-- Whether some step out of the first `n` from `s` along `base` arrives at `goal`. -/
def arrives (base : SymbolId → Option SymbolId) (goal : SymbolId) : Nat → SymbolId → Bool
  | 0, _ => false
  | n + 1, s =>
    match base s with
    | none => false
    | some t => t = goal || arrives base goal n t

/-- The type `s` and those above it, at most `n` more, up to the first that has been seen. -/
def lineageFrom (base : SymbolId → Option SymbolId) : Nat → List SymbolId → SymbolId → List SymbolId
  | 0, _, s => [s]
  | n + 1, seen, s =>
    match base s with
    | none => [s]
    | some t => if t ∈ s :: seen then [s] else s :: lineageFrom base n (s :: seen) t

namespace Program

/-- Whether a class is among its own ancestors. A path back needs no class twice. -/
def isOwnAncestor (p : Program) (b : Bindings) (s : SymbolId) : Bool :=
  arrives (p.base? b) s p.symbols.size s

/-- A type followed by its ancestors, each at most once. There are no more types with a base than
symbols and bases bound by `b`. -/
def lineage (p : Program) (b : Bindings) (s : SymbolId) : List SymbolId :=
  lineageFrom (p.base? b) (p.symbols.size + b.baseClasses.size) [] s

end Program

end NameBinding
