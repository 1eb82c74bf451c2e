import NameBinding.Resolve.Inheritance
import NameBinding.Resolve.Pass

/-!
The first part of the pass: the base class of every class at the top.
-/

namespace NameBinding.Pass

variable (p : Program)

/-- Binds the base class of a class to a class of the global scope. -/
def bindBase (st : Pass) (s : SymbolId) : Pass :=
  match (p.symbol? s).bind (·.baseClass?) with
  | none => st
  | some base =>
    if base.reference.isBound then st
    else
      let name := p.text base.reference.name
      match st.scopes.declared? ScopeTree.global base.reference.name with
      | some t =>
        if (p.class? t).isSome then
          { st with bindings.baseClasses := st.bindings.baseClasses.insert s t }.note (.base s t)
        else
          let kind := ((p.symbol? t).map (·.kind.display)).getD ""
          st.note (.fault ⟨.baseNotAClass (p.symbolText s) name kind, base.line, []⟩)
      | none =>
        st.note (.fault ⟨.unknownBase (p.symbolText s) name, base.line,
          p.classes.map p.symbolText⟩)

/-- Refuses a class that inherits from itself. -/
def checkCycle (st : Pass) (s : SymbolId) : Pass :=
  if p.isOwnAncestor st.bindings s then
    st.note (.fault ⟨.cyclicInheritance (p.symbolText s), p.symbolLine s, []⟩)
  else st

/-- Binds every base class, then looks for cycles. -/
def bases (st : Pass) : Pass :=
  let st := p.classes.foldl (bindBase p) st
  let st := p.classes.foldl (checkCycle p) st
  st.note (.basesDone st.bindings.baseClasses.size)

end NameBinding.Pass
