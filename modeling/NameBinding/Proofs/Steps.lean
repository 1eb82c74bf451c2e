import NameBinding.Proofs.Script
import NameBinding.Proofs.ScopeTree

/-!
The single steps of the pass over the bodies. A step never touches the scopes of the program itself,
it only adds to the journal, and the references bound so far can be read off the journal.
-/

namespace NameBinding

/-- The declaration that a name is bound to here. -/
def Binding.target? : Binding → Option SymbolId
  | .lexical t | .member _ t => some t
  | _ => none

/-- The declaration that an entry binds the name of `e` to. -/
def Entry.target? (e : ExprId) : Entry → Option SymbolId
  | .name e' b => if e' = e then b.target? else none
  | _ => none

/-- Plain names are bound in scopes, and members in types. -/
def Entry.Fits (p : Program) : Entry → Prop
  | .name e b =>
    (∃ r line, p.expr? e = some (.ident r line) ∧ ∀ o t, b ≠ .member o t) ∨
      ∃ object r line, p.expr? e = some (.select object r line) ∧ ∀ t, b ≠ .lexical t
  | _ => True

namespace Pass

variable {p : Program} {st st' st'' : Pass}

/-! ### Single changes -/

section Settle

variable (st : Pass) (e : ExprId) (b : Binding)

@[simp] lemma scopes_settle : (st.settle e b).scopes = st.scopes := by
  cases b <;> rfl

@[simp] lemma journal_settle : (st.settle e b).journal = st.journal.push (.name e b) := by
  cases b <;> rfl

@[simp] lemma baseClasses_settle :
    (st.settle e b).bindings.baseClasses = st.bindings.baseClasses := by
  cases b <;> rfl

lemma references_settle (e' : ExprId) : (st.settle e b).bindings.references.get? e' =
    (Entry.target? e' (.name e b)).or (st.bindings.references.get? e') := by
  by_cases h : e' = e
  · subst h
    cases b <;> simp [settle, note, Entry.target?, Binding.target?, OrderedMap.get?_insert]
  · have h' : ¬ e = e' := fun he => h he.symm
    cases b <;> simp [settle, note, Entry.target?, OrderedMap.get?_insert, h, h']

end Settle

lemma bindOwn_ident {e : ExprId} {r : Reference} {line : Line}
    (h : p.expr? e = some (.ident r line)) (scope : ScopeId) (st : Pass) :
    st.bindOwn p scope e = st.settle e (st.lexical p scope r line) := by
  simp only [bindOwn, h]

lemma bindOwn_select {e object : ExprId} {r : Reference} {line : Line}
    (h : p.expr? e = some (.select object r line)) (scope : ScopeId) (st : Pass) :
    st.bindOwn p scope e = st.settle e (st.selected p object r line) := by
  simp only [bindOwn, h]

/-- Binding the name of an expression leaves an entry for it, or the expression uses no name. -/
lemma bindOwn_cases (p : Program) (scope : ScopeId) (st : Pass) (e : ExprId) :
    (∃ r line, p.expr? e = some (.ident r line) ∧
      st.bindOwn p scope e = st.settle e (st.lexical p scope r line)) ∨
    (∃ object r line, p.expr? e = some (.select object r line) ∧
      st.bindOwn p scope e = st.settle e (st.selected p object r line)) ∨
    (p.reference? e = none ∧ st.bindOwn p scope e = st) := by
  cases he : p.expr? e with
  | none => exact .inr (.inr (by simp [bindOwn, Program.reference?, he]))
  | some x =>
    cases x with
    | ident r line => exact .inl ⟨r, line, rfl, bindOwn_ident he scope st⟩
    | select object r line =>
      exact .inr (.inl ⟨object, r, line, rfl, bindOwn_select he scope st⟩)
    | _ => exact .inr (.inr (by simp [bindOwn, Program.reference?, Expr.reference?, he]))

/-- A variable is entered, or its name is taken, or there is no such variable. -/
lemma declare_cases (p : Program) (scope : ScopeId) (st : Pass) (v : SymbolId) :
    (p.symbol? v = none ∧ st.declare p scope v = st) ∨
    ∃ sym, p.symbol? v = some sym ∧
      ((∃ t, st.scopes.add scope sym.name v = .ok t ∧
          st.declare p scope v = { st with scopes := t }) ∨
        ∃ w, st.scopes.declared? scope sym.name = some w ∧ st.declare p scope v =
          st.note (.fault ⟨.build (p.duplicate sym.name sym.line w), sym.line, []⟩)) := by
  cases hv : p.symbol? v with
  | none => exact .inl ⟨rfl, by simp only [declare, hv]⟩
  | some sym =>
    refine .inr ⟨sym, rfl, ?_⟩
    cases ha : st.scopes.add scope sym.name v with
    | ok t => exact .inl ⟨t, rfl, by simp only [declare, hv, ha]⟩
    | error w =>
      exact .inr ⟨w, ScopeTree.add_eq_error_iff.mp ha, by simp only [declare, hv, ha]⟩

/-! ### Steps -/

/-- A single step of the pass over the bodies of `p`. -/
inductive Step (p : Program) : Pass → Pass → Prop
  | meet (st : Pass) (e : ExprId) : Step p st (st.note (.expr e))
  | bind (st : Pass) (scope : ScopeId) (e : ExprId) : Step p st (st.bindOwn p scope e)
  | declare (st : Pass) {scope : ScopeId} (v : SymbolId) (hnew : p.scopes.size ≤ scope.index)
      (hlt : scope.index < st.scopes.size) : Step p st (st.declare p scope v)
  | opened (st : Pass) {scope : ScopeId} (key : ScopeKey) (hlt : scope.index < st.scopes.size) :
      Step p st (st.openFor scope key)
  | closed (st : Pass) {inner : ScopeId} (key : ScopeKey) (hnew : p.scopes.size ≤ inner.index)
      (hlt : inner.index < st.scopes.size) : Step p st (st.closeFor inner key)

def Steps (p : Program) : Pass → Pass → Prop := Relation.ReflTransGen (Step p)

/-- What single steps keep, all steps keep. -/
lemma Steps.keep {I : Pass → Prop} (hI : ∀ st st', Step p st st' → I st → I st')
    (h : Steps p st st') (hst : I st) : I st' := by
  induction h with
  | refl => exact hst
  | tail _ hstep ih => exact hI _ _ hstep ih

lemma Step.size_le (h : Step p st st') : st.scopes.size ≤ st'.scopes.size := by
  cases h with
  | meet e => exact le_rfl
  | bind scope e =>
    obtain ⟨r, l, -, h⟩ | ⟨o, r, l, -, h⟩ | ⟨-, h⟩ := bindOwn_cases p scope st e <;> simp [h]
  | @declare scope v =>
    obtain ⟨-, h⟩ | ⟨sym, -, ⟨t, ht, h⟩ | ⟨w, -, h⟩⟩ := declare_cases p scope st v
    · rw [h]
    · rw [h, ← ScopeTree.size_add ht]
    · rw [h]
      rfl
  | opened key =>
    rw [scopes_openFor, ScopeTree.size_addChild]
    omega
  | closed key => rw [scopes_closeFor]

lemma Steps.size_le (h : Steps p st st') : st.scopes.size ≤ st'.scopes.size :=
  h.keep (I := fun x => st.scopes.size ≤ x.scopes.size)
    (fun _ _ hs hx => hx.trans hs.size_le) le_rfl

/-- The scopes of the program itself stay as they are. -/
lemma Step.scope?_of_lt (h : Step p st st') (hsize : p.scopes.size ≤ st.scopes.size) {r : ScopeId}
    (hr : r.index < p.scopes.size) : st'.scopes.scope? r = st.scopes.scope? r := by
  cases h with
  | meet e => rfl
  | bind scope e =>
    obtain ⟨_, l, -, h⟩ | ⟨o, _, l, -, h⟩ | ⟨-, h⟩ := bindOwn_cases p scope st e <;> simp [h]
  | @declare scope v hnew =>
    obtain ⟨-, h⟩ | ⟨sym, -, ⟨t, ht, h⟩ | ⟨w, -, h⟩⟩ := declare_cases p scope st v
    · rw [h]
    · rw [h, ScopeTree.scope?_add ht, if_neg]
      rintro rfl
      omega
    · rw [h]
      rfl
  | opened key => rw [scopes_openFor, ScopeTree.scope?_addChild_of_lt _ _ (by omega)]
  | closed key => rw [scopes_closeFor]

lemma Steps.scope?_of_lt (h : Steps p st st') (hsize : p.scopes.size ≤ st.scopes.size) {r : ScopeId}
    (hr : r.index < p.scopes.size) : st'.scopes.scope? r = st.scopes.scope? r := by
  induction h with
  | refl => rfl
  | tail hsteps hstep ih =>
    rw [hstep.scope?_of_lt (hsize.trans (Steps.size_le hsteps)) hr, ih]

lemma Step.baseClasses (h : Step p st st') :
    st'.bindings.baseClasses = st.bindings.baseClasses := by
  cases h with
  | meet e => rfl
  | bind scope e =>
    obtain ⟨_, l, -, h⟩ | ⟨o, _, l, -, h⟩ | ⟨-, h⟩ := bindOwn_cases p scope st e <;> simp [h]
  | @declare scope v =>
    obtain ⟨-, h⟩ | ⟨sym, -, ⟨t, ht, h⟩ | ⟨w, -, h⟩⟩ := declare_cases p scope st v <;>
      simp [h, note]
  | opened key => simp
  | closed key => simp

lemma Steps.baseClasses (h : Steps p st st') :
    st'.bindings.baseClasses = st.bindings.baseClasses :=
  h.keep (I := fun x => x.bindings.baseClasses = st.bindings.baseClasses)
    (fun _ _ hs hx => hs.baseClasses.trans hx) rfl

/-! ### The journal -/

/-- A step adds at most one entry to the journal. -/
lemma Step.journal (h : Step p st st') :
    st'.journal = st.journal ∨ ∃ x, st'.journal = st.journal.push x := by
  cases h with
  | meet e => exact .inr ⟨_, rfl⟩
  | bind scope e =>
    obtain ⟨_, l, -, h⟩ | ⟨o, _, l, -, h⟩ | ⟨-, h⟩ := bindOwn_cases p scope st e
    · exact .inr ⟨_, by rw [h, journal_settle]⟩
    · exact .inr ⟨_, by rw [h, journal_settle]⟩
    · exact .inl (by rw [h])
  | @declare scope v =>
    obtain ⟨-, h⟩ | ⟨sym, -, ⟨t, ht, h⟩ | ⟨w, -, h⟩⟩ := declare_cases p scope st v
    · exact .inl (by rw [h])
    · exact .inl (by rw [h])
    · exact .inr ⟨_, by rw [h]; rfl⟩
  | opened key => exact .inl (journal_openFor st _ key)
  | closed key => exact .inl (journal_closeFor st _ key)

lemma Steps.journal_prefix (h : Steps p st st') : st.journal.toList <+: st'.journal.toList := by
  refine h.keep (I := fun x => st.journal.toList <+: x.journal.toList) ?_ (List.prefix_refl _)
  intro x x' hstep hx
  obtain h | ⟨y, h⟩ := hstep.journal
  · rwa [h]
  · rw [h, Array.toList_push]
    exact hx.trans (List.prefix_append _ _)

/-- The references bound so far are those that the journal has last. -/
def Recorded (st : Pass) : Prop :=
  ∀ e, st.bindings.references.get? e = (st.journal.toList.filterMap (Entry.target? e)).getLast?

lemma Recorded.note (h : st.Recorded) {x : Entry} (hx : ∀ e, x.target? e = none) :
    (st.note x).Recorded := by
  intro e
  have hnote : (st.note x).journal.toList = st.journal.toList ++ [x] := Array.toList_push
  have hnil : [x].filterMap (Entry.target? e) = [] := by simp [hx e]
  rw [hnote, List.filterMap_append, hnil, List.append_nil]
  exact h e

lemma Recorded.settle (h : st.Recorded) (e : ExprId) (b : Binding) : (st.settle e b).Recorded := by
  intro e'
  rw [references_settle, journal_settle, Array.toList_push, List.filterMap_append, h e']
  cases hb : Entry.target? e' (.name e b) <;> simp [hb]

lemma Step.recorded (h : Step p st st') (hst : st.Recorded) : st'.Recorded := by
  cases h with
  | meet e => exact hst.note fun _ => rfl
  | bind scope e =>
    obtain ⟨_, l, -, h⟩ | ⟨o, _, l, -, h⟩ | ⟨-, h⟩ := bindOwn_cases p scope st e
    · exact h ▸ hst.settle e _
    · exact h ▸ hst.settle e _
    · rwa [h]
  | @declare scope v =>
    obtain ⟨-, h⟩ | ⟨sym, -, ⟨t, ht, h⟩ | ⟨w, -, h⟩⟩ := declare_cases p scope st v
    · rwa [h]
    · rw [h]
      exact hst
    · exact h ▸ hst.note fun _ => rfl
  | opened key =>
    intro e
    rw [references_openFor, journal_openFor, hst e]
  | closed key =>
    intro e
    rw [references_closeFor, journal_closeFor, hst e]

/-- What a name is bound to is declared somewhere under that name. -/
lemma declared?_of_lexical {scope : ScopeId} {r : Reference} {line : Line} {t : SymbolId}
    (ht : (st.lexical p scope r line).target? = some t) :
    ∃ s, st.scopes.declared? s r.name = some t := by
  unfold lexical at ht
  split at ht
  · simp [Binding.target?] at ht
  · split at ht
    · next u hu =>
      obtain rfl := Option.some.inj ht
      obtain ⟨s, -, hs⟩ := List.exists_of_findSome?_eq_some hu
      exact ⟨s, hs⟩
    · simp [Binding.target?] at ht

lemma declared?_of_selected {object : ExprId} {r : Reference} {line : Line} {t : SymbolId}
    (ht : (st.selected p object r line).target? = some t) :
    ∃ s, st.scopes.declared? s r.name = some t := by
  unfold selected at ht
  split at ht
  · simp [Binding.target?] at ht
  · split at ht
    · simp [Binding.target?] at ht
    · simp [Binding.target?] at ht
    · split at ht
      · next u hu =>
        obtain rfl := Option.some.inj ht
        obtain ⟨s, -, hs⟩ := List.exists_of_findSome?_eq_some hu
        exact ⟨s, hs⟩
      · simp [Binding.target?] at ht

lemma lexical_ne_member (st : Pass) (scope : ScopeId) (r : Reference) (line : Line)
    (o t : SymbolId) : st.lexical p scope r line ≠ .member o t := by
  unfold lexical
  split
  · simp
  · split <;> simp

lemma selected_ne_lexical (st : Pass) (object : ExprId) (r : Reference) (line : Line)
    (t : SymbolId) : st.selected p object r line ≠ .lexical t := by
  unfold selected
  split
  · simp
  · split
    · simp
    · simp
    · split <;> simp

/-- A step adds an entry that fits the expression it is about. -/
lemma Step.fits (h : Step p st st') (hst : ∀ x ∈ st.journal.toList, x.Fits p) :
    ∀ x ∈ st'.journal.toList, x.Fits p := by
  have hpush : ∀ y : Entry, y.Fits p → ∀ x ∈ (st.journal.push y).toList, x.Fits p := by
    intro y hy x hx
    rw [Array.toList_push, List.mem_append, List.mem_singleton] at hx
    rcases hx with hx | rfl
    · exact hst x hx
    · exact hy
  cases h with
  | meet e => exact hpush _ trivial
  | bind scope e =>
    obtain ⟨r, l, he, h⟩ | ⟨o, r, l, he, h⟩ | ⟨-, h⟩ := bindOwn_cases p scope st e
    · rw [h, journal_settle]
      exact hpush _ (.inl ⟨r, l, he, lexical_ne_member st scope r l⟩)
    · rw [h, journal_settle]
      exact hpush _ (.inr ⟨o, r, l, he, selected_ne_lexical st o r l⟩)
    · rwa [h]
  | @declare scope v =>
    obtain ⟨-, h⟩ | ⟨sym, -, ⟨t, ht, h⟩ | ⟨w, -, h⟩⟩ := declare_cases p scope st v
    · rwa [h]
    · rwa [h]
    · rw [h]
      exact hpush _ trivial
  | opened key => rwa [journal_openFor]
  | closed key => rwa [journal_closeFor]

end Pass

/-! ### Running a script takes steps -/

namespace Script

variable {p : Program}

/-- The variables that a script enters into the scope in which it is run. -/
def entered : Script → List SymbolId
  | skip | meet _ | bind _ | within _ _ => []
  | seq a b => a.entered ++ b.entered
  | enter v => [v]

@[simp] lemma entered_each {α : Type} (f : α → Script) (xs : List α) :
    (each f xs).entered = xs.flatMap fun x => (f x).entered := by
  induction xs with
  | nil => rfl
  | cons x xs ih => simp [each, entered, ih]

@[simp] lemma entered_expr (e : ExprId) : (expr p e).entered = [] := by
  have h : ∀ depth e, (exprWithin p depth e).entered = [] := by
    intro depth
    induction depth with
    | zero => exact fun _ => rfl
    | succ depth ih =>
      intro e
      simp [exprWithin, entered, ih]
  exact h _ e

@[simp] lemma entered_exprs (es : List ExprId) : (exprs p es).entered = [] := by
  simp [exprs]

@[simp] lemma entered_value (v : SymbolId) : (value p v).entered = [] := entered_exprs _

/-- Nothing is entered into the scope of a type or the global one. -/
lemma entered_of_mem_scripts {x : ScopeId × Script} (hx : x ∈ p.scripts) : x.2.entered = [] := by
  have hmethod : ∀ s, (method p s).entered = [] := by
    intro s
    unfold method
    split <;> simp [entered]
  have hconstructor : ∀ s, (constructor p s).entered = [] := by
    intro s
    unfold constructor
    split <;> rfl
  have hbody : ∀ s b, (plainBody p s b).entered = [] := fun _ _ => rfl
  rcases List.mem_append.mp hx with hx | hx
  · obtain ⟨s, -, hs⟩ := List.mem_filterMap.mp hx
    obtain ⟨c, -, rfl⟩ := Option.map_eq_some_iff.mp hs
    simp [classType, entered, hmethod, hconstructor, hbody]
  · obtain ⟨s, -, hs⟩ := List.mem_filterMap.mp hx
    obtain ⟨t, -, rfl⟩ := Option.map_eq_some_iff.mp hs
    simp [enumType]

/-- Running a script takes steps, if what it enters goes into a scope opened by the pass. -/
lemma run_steps (c : Script) {scope : ScopeId} {st : Pass} (hsize : p.scopes.size ≤ st.scopes.size)
    (hscope : scope.index < st.scopes.size) (hnew : p.scopes.size ≤ scope.index ∨ c.entered = []) :
    Pass.Steps p st (c.run p scope st) := by
  induction c generalizing scope st with
  | skip => exact .refl
  | seq a b iha ihb =>
    have ha : Pass.Steps p st (a.run p scope st) :=
      iha hsize hscope (hnew.imp id fun h => (List.append_eq_nil_iff.mp h).1)
    have hle := ha.size_le
    exact ha.trans (ihb (hsize.trans hle) (by omega)
      (hnew.imp id fun h => (List.append_eq_nil_iff.mp h).2))
  | meet e => exact .single (.meet st e)
  | bind e => exact .single (.bind st scope e)
  | enter v => exact .single (.declare st v (hnew.resolve_right (by simp [entered])) hscope)
  | within key body ih =>
    have hopen := Pass.Step.opened (p := p) st key hscope
    have hsize' : (st.openFor scope key).scopes.size = st.scopes.size + 1 := by
      rw [Pass.scopes_openFor, ScopeTree.size_addChild]
    have hbody : Pass.Steps p (st.openFor scope key)
        (body.run p ⟨st.scopes.size⟩ (st.openFor scope key)) :=
      ih (by omega) (by rw [hsize']; exact Nat.lt_succ_self _) (.inl hsize)
    have hle := hbody.size_le
    refine (hbody.head hopen).tail (.closed _ key hsize ?_)
    change st.scopes.size < _
    omega

lemma runAll_steps {scripts : List (ScopeId × Script)} {st : Pass}
    (hsize : p.scopes.size ≤ st.scopes.size)
    (h : ∀ x ∈ scripts, x.1.index < p.scopes.size ∧ x.2.entered = []) :
    Pass.Steps p st (runAll p scripts st) := by
  induction scripts generalizing st with
  | nil => exact .refl
  | cons x xs ih =>
    obtain ⟨hscope, hentered⟩ := h x (by simp)
    have hx := x.2.run_steps (p := p) hsize (hscope.trans_le hsize) (.inr hentered)
    exact hx.trans (ih (hsize.trans hx.size_le) fun y hy => h y (by simp [hy]))

end Script

end NameBinding
