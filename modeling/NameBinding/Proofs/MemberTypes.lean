import NameBinding.Proofs.LookupOrder
import NameBinding.Proofs.Success
import NameBinding.Proofs.WellFormed.Operations

/-!
The type that a member is looked up in. A member is bound to the nearest declaration in the type
that its object had when the member was looked up. The declared type of a value may be bound later
than that; until then the global declaration of its name stands for it.
-/

namespace NameBinding

/-! ### Types of objects -/

/-- The type that an object gives members of: what its name is bound to, or the declared type of
the value that it is bound to. -/
def Program.memberType? (p : Program) (bound : ExprId → Option SymbolId)
    (type? : TypedValue → Option SymbolId) (object : ExprId) : Option SymbolId :=
  (bound object).bind fun t => (p.symbol? t).bind fun sym =>
    match sym.kind with
    | .classType _ | .enumType _ => some t
    | .var v | .field ⟨_, v⟩ | .const ⟨_, v⟩ => type? v
    | .builtin _ | .method _ | .constructor _ => none

/-- The type of an object when the journal held the given entries. -/
def Program.typeBy? (p : Program) (entries : List Entry) (object : ExprId) : Option SymbolId :=
  p.memberType? (p.boundBy entries) (p.declaredTypeBy entries) object

/-- Whether a symbol is a class or an enum. -/
def Program.HasMembers (p : Program) (t : SymbolId) : Prop :=
  ((p.symbol? t).bind (·.scope?)).isSome

/-- A symbol has members exactly if it is a class or an enum. -/
lemma Program.HasMembers.kind {p : Program} {t : SymbolId} (h : p.HasMembers t) :
    ∃ sym, p.symbol? t = some sym ∧
      ((∃ c, sym.kind = .classType c) ∨ ∃ e, sym.kind = .enumType e) := by
  unfold HasMembers at h
  cases hs : p.symbol? t with
  | none => simp [hs] at h
  | some sym =>
    refine ⟨sym, rfl, ?_⟩
    rw [hs, Option.bind_some] at h
    obtain ⟨n, line, kind⟩ := sym
    cases kind with
    | classType c => exact .inl ⟨c, rfl⟩
    | enumType e => exact .inr ⟨e, rfl⟩
    | _ => simp [Symbol.scope?] at h

lemma Program.memberType?_of_hasMembers {p : Program} {bound : ExprId → Option SymbolId}
    {type? : TypedValue → Option SymbolId} {object : ExprId} {t : SymbolId}
    (hb : bound object = some t) (ht : p.HasMembers t) :
    p.memberType? bound type? object = some t := by
  obtain ⟨sym, hsym, ⟨c, hc⟩ | ⟨e, he⟩⟩ := ht.kind
  · simp [memberType?, hb, hsym, hc]
  · simp [memberType?, hb, hsym, he]

namespace BoundProgram

variable (r : BoundProgram)

/-- The type of an object by the bindings of the result. -/
def typeOf? (object : ExprId) : Option SymbolId :=
  r.program.memberType? r.binding? (fun v => r.binding? v.type) object

/-- What a type itself declares under a name. -/
def own? (t : SymbolId) (n : Name) : Option SymbolId :=
  ((r.program.symbol? t).bind (·.scope?)).bind fun s => r.program.scopes.declared? s n

/-- The type that is `k` steps above another. -/
def ancestor? : Nat → SymbolId → Option SymbolId
  | 0, t => some t
  | k + 1, t => (r.baseClass? t).bind (ancestor? k)

/-- The first type among `t`, its base, the base of that, … that declares `n` declares `x`. -/
def Nearest (t : SymbolId) (n : Name) (x : SymbolId) : Prop :=
  ∃ k u, r.ancestor? k t = some u ∧ r.own? u n = some x ∧
    ∀ j < k, ∀ w, r.ancestor? j t = some w → r.own? w n = none

/-- The member `m` of an object is bound to the nearest declaration in the type that the bindings of
the result give the object. -/
def MemberAgrees (m object : ExprId) (n : Name) : Prop :=
  ∃ t x, r.typeOf? object = some t ∧ r.program.HasMembers t ∧ r.binding? m = some x ∧
    r.Nearest t n x

variable {r}

lemma Nearest.unique {t x y : SymbolId} {n : Name} (hx : r.Nearest t n x) (hy : r.Nearest t n y) :
    x = y := by
  obtain ⟨k, u, hk, hu, hfirst⟩ := hx
  obtain ⟨k', u', hk', hu', hfirst'⟩ := hy
  rcases lt_trichotomy k k' with hlt | rfl | hlt
  · simp [hfirst' k hlt u hk] at hu
  · obtain rfl := Option.some.inj (hk.symm.trans hk')
    exact Option.some.inj (hu.symm.trans hu')
  · simp [hfirst k' hlt u' hk'] at hu'

/-- The nearest declaration along a lineage is the nearest one among the ancestors. -/
lemma nearest_of_lineageFrom {base : SymbolId → Option SymbolId}
    (hbase : ∀ s, r.baseClass? s = base s)
    {n : Name} {x : SymbolId} {fuel : Nat} {seen : List SymbolId} {t : SymbolId}
    (h : (lineageFrom base fuel seen t).findSome? (r.own? · n) = some x) : r.Nearest t n x := by
  have hself : ∀ t, r.own? t n = some x → r.Nearest t n x :=
    fun t ht => ⟨0, t, rfl, ht, by simp⟩
  induction fuel generalizing seen t with
  | zero => exact hself t (by simpa [lineageFrom] using h)
  | succ fuel ih =>
    simp only [lineageFrom] at h
    cases hb : base t with
    | none => exact hself t (by simpa [hb] using h)
    | some u =>
      simp only [hb] at h
      split at h
      · exact hself t (by simpa using h)
      · cases ht : r.own? t n with
        | some y =>
          simp only [List.findSome?_cons, ht, Option.some.injEq] at h
          exact hself t (h ▸ ht)
        | none =>
          simp only [List.findSome?_cons, ht] at h
          obtain ⟨k, w, hk, hw, hfirst⟩ := ih h
          refine ⟨k + 1, w, by simp [ancestor?, hbase, hb, hk], hw, ?_⟩
          intro j hj v hv
          cases j with
          | zero =>
            obtain rfl : t = v := by simpa [ancestor?] using hv
            exact ht
          | succ j =>
            simp only [ancestor?, hbase, hb, Option.bind_some] at hv
            exact hfirst j (by omega) v hv

end BoundProgram

/-! ### Looking a member up -/

namespace Pass

variable {p : Program} {st : Pass}

/-- What the members of a value are selected from depends on its declared type. -/
lemma ownerOf_value (p : Program) (st : Pass) (t : SymbolId) {sym : Symbol} {v : TypedValue}
    (hv : sym.typedValue? = some v) :
    (st.declaredType? p v = none ∧ st.ownerOf p t sym = .unknown) ∨
      ∃ ty, st.declaredType? p v = some ty ∧
        ((p.HasMembers ty ∧ st.ownerOf p t sym = .type ty) ∨
          ∃ what, st.ownerOf p t sym = .nothing what) := by
  obtain ⟨n, line, kind⟩ := sym
  cases kind with
  | var w | field w | const w =>
    simp only [Symbol.typedValue?, Option.some.injEq] at hv
    subst hv
    unfold ownerOf
    cases hd : st.declaredType? p _ with
    | none => exact .inl ⟨rfl, by simp only [hd]⟩
    | some ty =>
      refine .inr ⟨ty, rfl, ?_⟩
      by_cases hty : p.HasMembers ty
      · exact .inl ⟨hty, by simp only [hd]; exact if_pos hty⟩
      · exact .inr ⟨_, by simp only [hd]; exact if_neg hty⟩
  | _ => simp [Symbol.typedValue?] at hv

/-- A member is selected from the type that its object has by the entries so far. -/
lemma Reached.typeBy?_of_owner (h : Reached p st) (hp : p.Listed) {object : ExprId} {t : SymbolId}
    (howner : st.owner p object = .type t) :
    p.typeBy? st.journal.toList object = some t ∧ p.HasMembers t := by
  unfold owner at howner
  rw [h.bound?] at howner
  cases hb : p.boundBy st.journal.toList object with
  | none =>
    simp only [hb] at howner
    split at howner <;> simp at howner
  | some s =>
    simp only [hb] at howner
    cases hs : p.symbol? s with
    | none => simp [hs] at howner
    | some sym =>
      simp only [hs] at howner
      obtain ⟨n, line, kind⟩ := sym
      have hvalue : ∀ v, Symbol.typedValue? ⟨n, line, kind⟩ = some v →
          p.declaredTypeBy st.journal.toList v = some t ∧ p.HasMembers t := by
        intro v hv
        rw [← h.declaredType? hp]
        obtain ⟨-, ho⟩ | ⟨ty, hd, ⟨hty, ho⟩ | ⟨what, ho⟩⟩ := ownerOf_value p st s hv
        · simp [ho] at howner
        · obtain rfl : ty = t := by simpa [ho] using howner
          exact ⟨hd, hty⟩
        · simp [ho] at howner
      unfold Program.typeBy? Program.memberType?
      rw [hb, Option.bind_some, hs, Option.bind_some]
      cases kind with
      | classType c =>
        obtain rfl : s = t := by simpa [ownerOf] using howner
        exact ⟨rfl, by simp [Program.HasMembers, hs, Symbol.scope?]⟩
      | enumType c =>
        obtain rfl : s = t := by simpa [ownerOf] using howner
        exact ⟨rfl, by simp [Program.HasMembers, hs, Symbol.scope?]⟩
      | var v | field v | const v => exact hvalue _ rfl
      | builtin b => simp [ownerOf] at howner
      | method m => simp [ownerOf] at howner
      | constructor c => simp [ownerOf] at howner

/-- An object that is bound to a class or an enum gives members of that. -/
lemma Reached.owner_of_hasMembers (h : Reached p st) {object : ExprId} {t : SymbolId}
    (hb : p.boundBy st.journal.toList object = some t) (ht : p.HasMembers t) :
    st.owner p object = .type t := by
  unfold owner
  rw [h.bound?, hb]
  obtain ⟨sym, hsym, ⟨c, hc⟩ | ⟨e, he⟩⟩ := ht.kind
  · simp [hsym, ownerOf, hc]
  · simp [hsym, ownerOf, he]

lemma selected_eq_member {object : ExprId} {r : Reference} {line : Line} {t x : SymbolId}
    (h : st.selected p object r line = .member t x) :
    st.owner p object = .type t ∧
      ((st.lineageScopes p t).findSome? fun s => st.scopes.declared? s r.name) = some x := by
  unfold selected at h
  split at h
  · simp at h
  · split at h
    · simp at h
    · simp at h
    · next t' howner =>
      split at h
      · next x' hx =>
        obtain ⟨rfl, rfl⟩ : t' = t ∧ x' = x := by simpa using h
        exact ⟨howner, hx⟩
      · simp at h

lemma selected_of_owner {object : ExprId} {n : Name} {line : Line} {t : SymbolId}
    (howner : st.owner p object = .type t) :
    (∃ x, st.selected p object (.free n) line = .member t x) ∨
      ∃ f, st.selected p object (.free n) line = .failed f := by
  unfold selected
  simp only [Reference.isBound, Reference.target?, Option.isSome_none, Bool.false_eq_true, if_false,
    howner]
  cases (st.lineageScopes p t).findSome? fun s => st.scopes.declared? s (Reference.free n).name with
  | some x => exact .inl ⟨x, rfl⟩
  | none => exact .inr ⟨_, rfl⟩

/-- What is found along the scopes of a lineage is the nearest declaration in the result. -/
lemma Reached.nearest (h : Reached p st) (hp : p.WellFormed) {o : Options} {r : BoundProgram}
    (hr : p.resolve o = .ok r) {t x : SymbolId} {n : Name}
    (hfind : ((st.lineageScopes p t).findSome? fun s => st.scopes.declared? s n) = some x) :
    r.Nearest t n x := by
  have hown : ∀ s, (((p.symbol? s).bind (·.scope?)).bind fun sc => st.scopes.declared? sc n) =
      r.own? s n := by
    intro s
    unfold BoundProgram.own?
    rw [scope?_of_resolve hr hp.listed, scopes_of_resolve hr]
    cases hs : (p.symbol? s).bind (·.scope?) with
    | none => rfl
    | some sc =>
      obtain ⟨sym, hsym, hscope⟩ := Option.bind_eq_some_iff.mp hs
      have hlt : sc.index < p.scopes.size :=
        (hp.allocated.symbols s sym hsym).2.2.2.2.1 sc (by simp [hscope])
      have hfinish := (steps_finish hp.listed).reached.declared? hlt n
      simp only [Option.bind_some, h.declared? hlt, hfinish]
  have hlineage : (p.lineage st.bindings t).findSome? (r.own? · n) = some x := by
    rw [← hfind, lineageScopes, ← List.head?_filterMap, ← List.head?_filterMap,
      List.filterMap_filterMap]
    congr 2
    funext s
    exact (hown s).symm
  have hbase : ∀ s, r.baseClass? s = p.base? st.bindings s := by
    intro s
    rw [baseClass?_of_resolve hr]
    unfold Program.base?
    rw [h.bases]
  exact BoundProgram.nearest_of_lineageFrom hbase hlineage

end Pass

/-! ### Members of the result -/

section Result

variable {p : Program} {o : Options} {r : BoundProgram} {m object : ExprId} {n : Name} {line : Line}

lemma hasMembers_of_resolve (hp : p.Listed) (hr : p.resolve o = .ok r) (t : SymbolId) :
    r.program.HasMembers t ↔ p.HasMembers t := by
  unfold Program.HasMembers
  rw [scope?_of_resolve hr hp]

/-- The entry that binds a member last, and what it says. -/
lemma exists_member_entry (hp : p.WellFormed) (hr : p.resolve o = .ok r)
    (hm : p.expr? m = some (.select object (.free n) line)) :
    ∃ before after t x, (Pass.finish p).journal.toList = before ++ .name m (.member t x) :: after ∧
      (∀ t' x', Entry.name m (.member t' x') ∉ after) ∧ p.typeBy? before object = some t ∧
      p.HasMembers t ∧ r.binding? m = some x ∧ r.Nearest t n x := by
  have href : p.reference? m = some (.free n) := by simp [Program.reference?, hm, Expr.reference?]
  have hbound := bound_of_resolve hr hp.listed href
  rw [binding?_of_resolve hr hp.listed] at hbound ⊢
  simp only [Program.boundBy, href, Option.bind_some, Reference.target?, Option.none_or] at hbound ⊢
  have hexists : ∃ y ∈ (Pass.finish p).journal.toList, (Entry.target? m y).isSome := by
    by_contra hnone
    have hnil : (Pass.finish p).journal.toList.filterMap (Entry.target? m) = [] :=
      List.filterMap_eq_nil_iff.mpr (by simpa using hnone)
    simp [hnil] at hbound
  obtain ⟨before, y, x, after, hjournal, hy, hafter⟩ := exists_last hexists
  -- the entry is about a member, since `m` is one
  obtain ⟨t, rfl⟩ : ∃ t, y = .name m (.member t x) := by
    have hfits := Pass.fits_finish hp.listed y (by simp [hjournal])
    cases y with
    | name e b =>
      obtain rfl : e = m := by simpa [Entry.looked?] using Entry.looked?_of_target? hy
      simp only [Entry.target?, if_true] at hy
      cases b with
      | member t x' =>
        obtain rfl : x' = x := by simpa [Binding.target?] using hy
        exact ⟨t, rfl⟩
      | lexical t =>
        rcases hfits with ⟨_, _, h, -⟩ | ⟨_, _, _, -, h⟩
        · simp [hm] at h
        · exact absurd rfl (h t)
      | _ => simp [Binding.target?] at hy
    | _ => simp [Entry.target?] at hy
  obtain ⟨st, hst, hbefore, hsel⟩ := Pass.exists_reached_of_select hp.listed hm hjournal
  obtain ⟨howner, hfind⟩ := Pass.selected_eq_member hsel.symm
  obtain ⟨htype, hmembers⟩ := hst.typeBy?_of_owner hp.listed howner
  refine ⟨before, after, t, x, hjournal, fun t' x' hmem => ?_, hbefore ▸ htype, hmembers, ?_,
    hst.nearest hp hr hfind⟩
  · have hnone := hafter _ hmem
    simp [Entry.target?, Binding.target?] at hnone
  · rw [hjournal, List.filterMap_append, List.filterMap_cons_some hy,
      List.filterMap_eq_nil_iff.mpr hafter]
    simp

/-- After the last time that an object is looked up, its member is looked up, if the object stands
nowhere else. -/
lemma exists_member_after (hp : p.WellFormed) (honce : p.ExprsOnce)
    (hm : p.expr? m = some (.select object (.free n) line)) (hobject : (p.reference? object).isSome)
    {before after : List Entry} (hjournal : (Pass.finish p).journal.toList = before ++ after)
    (hmem : object ∈ after.filterMap Entry.looked?) :
    ∃ l b l', after = l ++ .name m b :: l' ∧
      object ∉ (Entry.name m b :: l').filterMap Entry.looked? := by
  have hexists : ∃ y ∈ after, ((if y.looked? = some object then some y else none)).isSome := by
    obtain ⟨y, hy, hlooked⟩ := List.mem_filterMap.mp hmem
    exact ⟨y, hy, by simp [hlooked]⟩
  obtain ⟨l₁, y, _, l₂, rfl, hy, hl₂⟩ := exists_last hexists
  have hy' : y.looked? = some object := by
    by_contra hno
    simp [hno] at hy
  have hl₂' : object ∉ l₂.filterMap Entry.looked? := by
    intro hmem₂
    obtain ⟨z, hz, hzlooked⟩ := List.mem_filterMap.mp hmem₂
    simpa [hzlooked] using hl₂ z hz
  have hlookups := Pass.looked_finish p
  rw [hjournal, ← List.append_assoc, List.filterMap_append, List.filterMap_cons_some hy'] at hlookups
  obtain ⟨l₃, hl₃⟩ := Program.followed_lookups hp.allocated honce hm hobject _ _ hlookups.symm
  obtain ⟨k₁, z, k₂, rfl, -, hz, -⟩ := List.filterMap_eq_cons_iff.mp hl₃
  obtain ⟨b, rfl⟩ := Entry.exists_name_of_looked? hz
  refine ⟨l₁ ++ y :: k₁, b, k₂, by simp, fun hmem₂ => hl₂' ?_⟩
  rw [List.filterMap_append]
  exact List.mem_append_right _ hmem₂

/-- A member of a class or an enum is looked up in that, if its object stands nowhere else. -/
lemma type_eq_of_hasMembers (hp : p.WellFormed) (honce : p.ExprsOnce) (hr : p.resolve o = .ok r)
    (hm : p.expr? m = some (.select object (.free n) line)) {before after : List Entry}
    {b : Binding} (hjournal : (Pass.finish p).journal.toList = before ++ .name m b :: after)
    (hlast : ∀ t x, Entry.name m (.member t x) ∉ after) {s : SymbolId}
    (hs : r.binding? object = some s) (hmembers : p.HasMembers s) :
    p.typeBy? before object = some s := by
  rw [binding?_of_resolve hr hp.listed] at hs
  have hne : object ≠ m := by
    rintro rfl
    have hlt := Script.operand_lt hp.allocated
      (by simp [Program.operands_select hm] : object ∈ p.operands object)
    omega
  have hobject : (p.reference? object).isSome := by
    unfold Program.boundBy at hs
    cases href : p.reference? object with
    | none => simp [href] at hs
    | some _ => rfl
  have hnot : object ∉ after.filterMap Entry.looked? := by
    intro hmem
    -- else the member is looked up once more, in the type that the object is bound to by then
    have hcons : (Pass.finish p).journal.toList = (before ++ [.name m b]) ++ after := by
      rw [hjournal]
      simp
    obtain ⟨l, b', l', rfl, hl'⟩ := exists_member_after hp honce hm hobject hcons hmem
    rw [← List.append_assoc] at hcons
    obtain ⟨st, hst, hbefore, hsel⟩ := Pass.exists_reached_of_select hp.listed hm hcons
    have hb : p.boundBy st.journal.toList object = some s := by
      rw [hbefore, ← hs, hcons]
      exact (Program.boundBy_append hl').symm
    rcases Pass.selected_of_owner (hst.owner_of_hasMembers hb hmembers) with ⟨x, hx⟩ | ⟨f, hf⟩
    · refine hlast s x ?_
      rw [← hx, ← hsel]
      simp
    · have hfault := no_fault_of_resolve hr (.name m b') (by simp [hcons])
      rw [hsel, hf] at hfault
      simp [Entry.fault?] at hfault
  have hb : p.boundBy before object = some s := by
    rw [← hs, hjournal]
    refine (Program.boundBy_append ?_).symm
    have hcons : (Entry.name m b :: after).filterMap Entry.looked? =
      m :: after.filterMap Entry.looked? := List.filterMap_cons_some rfl
    rw [hcons, List.mem_cons]
    exact fun h => h.elim hne hnot
  exact Program.memberType?_of_hasMembers hb hmembers

/-- **Members are bound in the type their object had when they were looked up**. Every member of
the result is bound to the nearest declaration in the type `t` that the journal gave its object at
that time. It agrees with the types as finally bound if its object is a class or an enum; and in
general exactly if the final type has members, and the same ones under that name as `t`. -/
theorem member_bound_in_type_when_looked_up (hp : p.Built) (honce : p.ExprsOnce)
    (hr : p.resolve o = .ok r) (hm : p.expr? m = some (.select object (.free n) line)) :
    ∃ before after t x, (Pass.run p).journal.toList = before ++ .name m (.member t x) :: after ∧
      (∀ t' x', Entry.name m (.member t' x') ∉ after) ∧ p.typeBy? before object = some t ∧
      r.program.HasMembers t ∧ r.binding? m = some x ∧ r.Nearest t n x ∧
      (∀ s, r.binding? object = some s → r.program.HasMembers s → r.MemberAgrees m object n) ∧
      (r.MemberAgrees m object n ↔ ∃ s, r.typeOf? object = some s ∧ r.program.HasMembers s ∧
        ∀ y, r.Nearest s n y ↔ r.Nearest t n y) := by
  have hwf := hp.wellFormed
  obtain ⟨before, after, t, x, hjournal, hlast, htype, hmembers, hx, hnearest⟩ :=
    exists_member_entry hwf hr hm
  have hmembers' := (hasMembers_of_resolve hwf.listed hr t).mpr hmembers
  have hrun := Pass.journal_run p
  rw [hjournal, List.append_assoc, List.cons_append] at hrun
  refine ⟨before, _, t, x, hrun, ?_, htype, hmembers', hx, hnearest, ?_, ?_, ?_⟩
  · intro t' x' hmem
    rcases List.mem_append.mp hmem with hmem | hmem
    · exact hlast t' x' hmem
    · simp at hmem
  · intro s hs hsm
    have hst := type_eq_of_hasMembers hwf honce hr hm hjournal hlast hs
      ((hasMembers_of_resolve hwf.listed hr s).mp hsm)
    obtain rfl := Option.some.inj (htype.symm.trans hst)
    exact ⟨t, x, Program.memberType?_of_hasMembers hs hsm, hsm, hx, hnearest⟩
  · rintro ⟨s, y, hs, hsm, hy, hnear⟩
    obtain rfl := Option.some.inj (hx.symm.trans hy)
    refine ⟨s, hs, hsm, fun z => ⟨fun hz => ?_, fun hz => ?_⟩⟩
    · exact hnear.unique hz ▸ hnearest
    · exact hnearest.unique hz ▸ hnear
  · rintro ⟨s, hs, hsm, hsame⟩
    exact ⟨s, x, hs, hsm, hx, (hsame x).mpr hnearest⟩

end Result

/-! ### A type that is shadowed where it is named -/

open Operation in
/-- Class `A` selects `b.f.x`, where `b` is a `B` and the field `f` of `B` is declared as a `Foo`.
The class `Foo` has a field `x`; if `shadowed`, the name `Foo` stands for a constant within `B`. -/
def selectionSteps (shadowed : Bool) : List Operation :=
  let ref (n : Nat) : Expr := .ident (.free ⟨n⟩) ⟨2⟩
  [declareClass "A" ⟨1⟩ {}, declareClass "B" ⟨1⟩ {}, declareClass "Foo" ⟨1⟩ {}, intern "Bar",
    intern "x", intern "f", intern "m",
    addExpr (ref 2), declareMember ⟨9⟩ ⟨⟨11⟩, ⟨2⟩, .field ⟨.pub, ⟨⟨0⟩, none⟩⟩⟩,
    addExpr (ref 2),
    declareMember ⟨8⟩ ⟨⟨if shadowed then 9 else 10⟩, ⟨3⟩, .const ⟨.pub, ⟨⟨1⟩, none⟩⟩⟩,
    addExpr (ref 9), declareMember ⟨8⟩ ⟨⟨12⟩, ⟨4⟩, .field ⟨.pub, ⟨⟨2⟩, none⟩⟩⟩,
    addExpr (ref 8), addVar "b" ⟨5⟩ ⟨⟨3⟩, none⟩,
    addExpr (ref 14), addExpr (.select ⟨4⟩ (.free ⟨12⟩) ⟨6⟩),
    addExpr (.select ⟨5⟩ (.free ⟨11⟩) ⟨6⟩),
    addStmt (.returnValue (some ⟨6⟩) ⟨6⟩),
    declareMember ⟨7⟩ ⟨⟨13⟩, ⟨5⟩, .method ⟨⟨.pub, some ⟨0⟩⟩, none, .normal, false, [⟨13⟩]⟩⟩]

def selection (shadowed : Bool) : Program :=
  (Program.new.build? (selectionSteps shadowed)).getD .new

def selectionResult (shadowed : Bool) : BoundProgram :=
  match (selection shadowed).resolve {} with
  | .ok r => r
  | .error _ => ⟨selection shadowed, .empty, .empty, .empty⟩

theorem selection_bound_in_type_when_looked_up :
    (selection false).Built ∧ (selection false).ExprsOnce ∧
    (selection false).resolve {} = .ok (selectionResult false) ∧
    ∃ before after t x, (Pass.run (selection false)).journal.toList =
        before ++ .name ⟨6⟩ (.member t x) :: after ∧
      (selection false).typeBy? before ⟨5⟩ = some t ∧
      (selectionResult false).binding? ⟨6⟩ = some x ∧ (selectionResult false).Nearest t ⟨11⟩ x ∧
      ((selectionResult false).MemberAgrees ⟨6⟩ ⟨5⟩ ⟨11⟩ ↔
        ∃ s, (selectionResult false).typeOf? ⟨5⟩ = some s ∧
          (selectionResult false).program.HasMembers s ∧
          ∀ y, (selectionResult false).Nearest s ⟨11⟩ y ↔
            (selectionResult false).Nearest t ⟨11⟩ y) := by
  have hsteps : Program.new.build? (selectionSteps false) = some (selection false) := by decide
  have hbuilt : (selection false).Built := Program.Built.new.build? hsteps
  have honce : (selection false).ExprsOnce := by decide
  have hr : (selection false).resolve {} = .ok (selectionResult false) := by decide
  have hm : (selection false).expr? ⟨6⟩ = some (.select ⟨5⟩ (.free ⟨11⟩) ⟨6⟩) := by decide
  obtain ⟨before, after, t, x, hjournal, -, htype, -, hx, hnearest, -, hiff⟩ :=
    member_bound_in_type_when_looked_up hbuilt honce hr hm
  exact ⟨hbuilt, honce, hr, before, after, t, x, hjournal, htype, hx, hnearest, hiff⟩

/-- A program in which nothing is shared and no name is bound beforehand is resolved, and yet
`b.f.x` is bound to a member of the class `Foo`, while the type of `f` is bound to the constant
`Foo`. -/
theorem shadowed_type_disagrees :
    (selection true).Built ∧ (selection true).ExprsOnce ∧ (selection true).StmtsOnce ∧
    (selection true).AllFree ∧ (selection true).resolve {} = .ok (selectionResult true) ∧
    (selection true).expr? ⟨6⟩ = some (.select ⟨5⟩ (.free ⟨11⟩) ⟨6⟩) ∧
    ¬ (selectionResult true).MemberAgrees ⟨6⟩ ⟨5⟩ ⟨11⟩ := by
  have hsteps : Program.new.build? (selectionSteps true) = some (selection true) := by decide
  refine ⟨Program.Built.new.build? hsteps, by decide, by decide, by decide, by decide, by decide,
    ?_⟩
  rintro ⟨t, x, ht, hmembers, -⟩
  have htype : (selectionResult true).typeOf? ⟨5⟩ = some ⟨11⟩ := by decide +kernel
  obtain rfl := Option.some.inj (htype.symm.trans ht)
  have hno : ¬ (selectionResult true).program.HasMembers ⟨11⟩ := by
    unfold Program.HasMembers
    decide +kernel
  exact hno hmembers

end NameBinding
