import NameBinding.Ids
import NameBinding.NameTable
import NameBinding.OrderedMap

/-!
The tree of scopes. Every scope but the global one has a parent, which was created before it; a
name is looked up in a scope and then in its ancestors, the nearest first.
-/

namespace NameBinding

inductive ScopeKind
  | global
  | type (owner : SymbolId)
  | method (owner : SymbolId)
  | block
deriving DecidableEq

structure Scope where
  kind : ScopeKind
  parent : Option ScopeId
  entries : OrderedMap Name SymbolId := .empty
deriving DecidableEq

namespace Scope

def names (s : Scope) : List Name := s.entries.keys

def symbols (s : Scope) : List SymbolId := s.entries.values

/-- The same kind, parent and entries; the order of the entries does not count. -/
def same (s s' : Scope) : Bool :=
  s.kind = s'.kind && s.parent = s'.parent && s.entries.sameEntries s'.entries

end Scope

structure ScopeTree where
  scopes : Array Scope
deriving DecidableEq

namespace ScopeTree

/-- The tree that has the global scope only. -/
def new : ScopeTree := ⟨#[{ kind := .global, parent := none }]⟩

def global : ScopeId := ⟨0⟩

def size (t : ScopeTree) : Nat := t.scopes.size

def scope? (t : ScopeTree) (s : ScopeId) : Option Scope := t.scopes[s.index]?

def parent? (t : ScopeTree) (s : ScopeId) : Option ScopeId := (t.scope? s).bind (·.parent)

/-- The names declared in the scope itself, in the order of declaration. -/
def names (t : ScopeTree) (s : ScopeId) : List Name := ((t.scope? s).map Scope.names).getD []

/-- The symbols declared in the scope itself, in the order of declaration. -/
def symbols (t : ScopeTree) (s : ScopeId) : List SymbolId :=
  ((t.scope? s).map Scope.symbols).getD []

/-- Opens an empty scope under `parent`. -/
def addChild (t : ScopeTree) (parent : ScopeId) (kind : ScopeKind) : ScopeId × ScopeTree :=
  (⟨t.scopes.size⟩, ⟨t.scopes.push { kind, parent := some parent }⟩)

def declared? (t : ScopeTree) (s : ScopeId) (n : Name) : Option SymbolId :=
  (t.scope? s).bind (·.entries.get? n)

/-- Declares a name in a scope, unless the scope declares it already: then that symbol is given. -/
def add (t : ScopeTree) (s : ScopeId) (n : Name) (v : SymbolId) : Except SymbolId ScopeTree :=
  match t.declared? s n with
  | some existing => .error existing
  | none =>
    .ok ⟨t.scopes.modify s.index fun sc => { sc with entries := sc.entries.insertIfNew n v }⟩

/-- The scope, its parent, and so on, at most `n` of them. -/
def climb (t : ScopeTree) : Nat → ScopeId → List ScopeId
  | 0, _ => []
  | n + 1, s =>
    match t.scope? s with
    | none => []
    | some sc => s :: (sc.parent.map (t.climb n)).getD []

/-- The scope and its ancestors, the nearest first. A parent has a smaller index than its child. -/
def ancestors (t : ScopeTree) (s : ScopeId) : List ScopeId := t.climb (s.index + 1) s

/-- What a name means in a scope: the nearest declaration wins. -/
def lookup (t : ScopeTree) (s : ScopeId) (n : Name) : Option SymbolId :=
  (t.ancestors s).findSome? fun a => t.declared? a n

/-- The names in reach of a scope, the nearest first; a name that is shadowed occurs again. -/
def namesInReach (t : ScopeTree) (s : ScopeId) : List Name := (t.ancestors s).flatMap t.names

/-- The same scopes in the same order. -/
def same (t t' : ScopeTree) : Bool :=
  t.size == t'.size && (t.scopes.toList.zip t'.scopes.toList).all fun p => p.1.same p.2

theorem add_eq_error_iff {t : ScopeTree} {s : ScopeId} {n : Name} {v e : SymbolId} :
    t.add s n v = .error e ↔ t.declared? s n = some e := by
  unfold add
  cases t.declared? s n <;> simp

theorem scope?_addChild (t : ScopeTree) (parent : ScopeId) (kind : ScopeKind) (s : ScopeId) :
    (t.addChild parent kind).2.scope? s =
      if s.index = t.size then some { kind, parent := some parent } else t.scope? s := by
  by_cases h : s.index = t.scopes.size <;> simp [addChild, scope?, size, Array.getElem?_push, h]

/-- What is declared after `n` has been: that, and what was before. -/
theorem declared?_add {t t' : ScopeTree} {s : ScopeId} {n : Name} {v : SymbolId}
    (h : t.add s n v = .ok t') (hs : s.index < t.size) (r : ScopeId) (m : Name) :
    t'.declared? r m = if r = s ∧ m = n then some v else t.declared? r m := by
  unfold add at h
  split at h
  · simp at h
  · next hn =>
    obtain rfl := Except.ok.inj h
    obtain ⟨sc, hget⟩ : ∃ sc, t.scope? s = some sc :=
      ⟨_, Array.getElem?_eq_getElem hs⟩
    by_cases hr : r = s
    · subst hr
      simp only [declared?, hget, Option.bind_some] at hn
      simp only [declared?, hget, Option.bind_some]
      simp only [scope?, Array.getElem?_modify, if_true]
      rw [show t.scopes[r.index]? = some sc from hget]
      simp only [Option.map_some, Option.bind_some, OrderedMap.get?_insertIfNew]
      by_cases hm : m = n
      · subst hm
        simp [hn]
      · simp [hm]
    · have hi : ¬ s.index = r.index := fun hi => hr (by cases r; cases s; simp_all)
      simp [declared?, scope?, Array.getElem?_modify, hi, hr]

end ScopeTree

end NameBinding
