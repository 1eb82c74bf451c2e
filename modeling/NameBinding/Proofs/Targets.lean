import NameBinding.Proofs.MemberTypes

/-!
The targets of names. Whatever a scope declares, and whatever a name is bound to at any time of the
pass, is a symbol of the program.
-/

namespace NameBinding

namespace Pass

variable {p : Program} {st st' : Pass}

/-- What scopes declare, and what names are bound to, are symbols of the program. -/
structure OfSymbols (p : Program) (st : Pass) : Prop where
  declared : ∀ s n v, st.scopes.declared? s n = some v → (p.symbol? v).isSome
  bound : ∀ x ∈ st.journal.toList, ∀ e t, x.target? e = some t → (p.symbol? t).isSome

lemma OfSymbols.push (h : OfSymbols p st) {x : Entry} (hscopes : st'.scopes = st.scopes)
    (hjournal : st'.journal = st.journal.push x)
    (hx : ∀ e t, x.target? e = some t → (p.symbol? t).isSome) : OfSymbols p st' := by
  refine ⟨by rw [hscopes]; exact h.declared, fun y hy => ?_⟩
  rw [hjournal, Array.toList_push, List.mem_append, List.mem_singleton] at hy
  rcases hy with hy | rfl
  · exact h.bound y hy
  · exact hx

lemma OfSymbols.settle (h : OfSymbols p st) {e : ExprId} {b : Binding}
    (hb : ∀ t, b.target? = some t → (p.symbol? t).isSome) : OfSymbols p (st.settle e b) := by
  refine h.push (scopes_settle st e b) (journal_settle st e b) fun e' t ht => ?_
  simp only [Entry.target?] at ht
  split at ht
  · exact hb t ht
  · simp at ht

lemma Step.ofSymbols (h : Step p st st') (hst : OfSymbols p st) : OfSymbols p st' := by
  cases h with
  | meet e => exact hst.push rfl rfl (by simp [Entry.target?])
  | bind scope e =>
    obtain ⟨r, l, -, h⟩ | ⟨o, r, l, -, h⟩ | ⟨-, h⟩ := bindOwn_cases p scope st e
    · rw [h]
      refine hst.settle fun t ht => ?_
      obtain ⟨s, hs⟩ := declared?_of_lexical ht
      exact hst.declared s r.name t hs
    · rw [h]
      refine hst.settle fun t ht => ?_
      obtain ⟨s, hs⟩ := declared?_of_selected ht
      exact hst.declared s r.name t hs
    · rwa [h]
  | @declare scope v hnew hlt =>
    obtain ⟨-, h⟩ | ⟨sym, hv, ⟨t, ht, h⟩ | ⟨w, -, h⟩⟩ := declare_cases p scope st v
    · rwa [h]
    · rw [h]
      refine ⟨fun s n w hw => ?_, hst.bound⟩
      rw [ScopeTree.declared?_add ht hlt] at hw
      split at hw
      · obtain rfl : v = w := by simpa using hw
        simp [hv]
      · exact hst.declared s n w hw
    · rw [h]
      exact hst.push rfl rfl (by simp [Entry.target?])
  | @opened scope key hlt =>
    refine ⟨fun s n w hw => ?_, by rw [journal_openFor]; exact hst.bound⟩
    rw [scopes_openFor, ScopeTree.declared?, ScopeTree.scope?_addChild] at hw
    split at hw
    · simp at hw
    · exact hst.declared s n w hw
  | closed key =>
    exact ⟨by rw [scopes_closeFor]; exact hst.declared, by rw [journal_closeFor]; exact hst.bound⟩

lemma ofSymbols_start (hp : p.Allocated) : OfSymbols p (start p) := by
  refine ⟨fun s n v hv => ?_, fun x hx e t ht => ?_⟩
  · rw [scopes_start] at hv
    obtain ⟨sc, hsc, hget⟩ := Option.bind_eq_some_iff.mp hv
    obtain ⟨l₁, l₂, hentries, -⟩ := List.lookup_eq_some_iff.mp hget
    have hlt := ((hp.scopes s sc hsc).2 (n, v) (by rw [hentries]; simp)).2
    exact Option.isSome_iff_exists.mpr ⟨_, Array.getElem?_eq_getElem hlt⟩
  · have hnil := targets_start p e
    rw [List.filterMap_eq_nil_iff] at hnil
    simp [hnil x hx] at ht

/-- Every name that the pass has bound is bound to a symbol of the program. -/
lemma Steps.ofSymbols (h : Steps p (start p) st) (hp : p.Allocated) : OfSymbols p st :=
  h.keep (fun _ _ hstep => hstep.ofSymbols) (ofSymbols_start hp)

end Pass

namespace Program

variable {p : Program}

/-- What an expression is bound to, by entries of the pass or in the program, is a symbol. -/
lemma symbol?_of_boundBy (hp : p.WellFormed) {entries : List Entry}
    (hentries : entries ⊆ (Pass.finish p).journal.toList) {e : ExprId} {t : SymbolId}
    (h : p.boundBy entries e = some t) : ∃ sym, p.symbol? t = some sym := by
  obtain ⟨r, hr, hbound⟩ := Option.bind_eq_some_iff.mp h
  rw [Option.or_eq_some_iff] at hbound
  rcases hbound with htarget | ⟨-, hlast⟩
  · obtain ⟨x, hx, href⟩ := Option.bind_eq_some_iff.mp hr
    have hlt := ((hp.allocated.exprs e x hx).2 r (by simp [href])).2 t (by simp [htarget])
    exact ⟨_, Array.getElem?_eq_getElem hlt⟩
  · obtain ⟨x, hx, ht⟩ := List.mem_filterMap.mp (List.mem_of_getLast? hlast)
    have hsymbols := (Pass.steps_finish hp.listed).ofSymbols hp.allocated
    exact Option.isSome_iff_exists.mp (hsymbols.bound x (hentries hx) e t ht)

end Program

end NameBinding
