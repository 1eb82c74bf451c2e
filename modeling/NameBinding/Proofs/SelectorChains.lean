import NameBinding.Proofs.History
import NameBinding.Proofs.NearestAncestors
import NameBinding.Proofs.Sites
import NameBinding.Proofs.WellFormed.Operations

/-!
Errors along selections such as `r.a.b.c`. The first link that cannot be bound is reported, unless
the type of its object is unknown; the links after it have an object that is not bound, and nothing
is said of them.
-/

namespace NameBinding

/-- The links of a selection, from the plain name it starts with to the expression itself. All are
free. -/
inductive Program.SelectorChain (p : Program) : List ExprId → ExprId → Prop
  | root {r : ExprId} {n : Name} {line : Line} :
    p.expr? r = some (.ident (.free n) line) → SelectorChain p [r] r
  | select {links : List ExprId} {object m : ExprId} {n : Name} {line : Line} :
    SelectorChain p links object → p.expr? m = some (.select object (.free n) line) →
    SelectorChain p (links ++ [m]) m

/-- The fault that the name used by an expression is not found, or has no place to be found in. -/
inductive Fault.IsOf (p : Program) : ExprId → Fault → Prop
  | name {e : ExprId} {n : Name} {line : Line} (reach : List String) :
    p.expr? e = some (.ident (.free n) line) → IsOf p e ⟨.unknownName (p.text n), line, reach⟩
  | member {e object : ExprId} {n : Name} {line : Line} (owner : SymbolId) (reach : List String) :
    p.expr? e = some (.select object (.free n) line) →
    IsOf p e ⟨.unknownMember (p.symbolText owner) (p.text n), line, reach⟩
  | object {e object : ExprId} {n : Name} {line : Line} (what : String) :
    p.expr? e = some (.select object (.free n) line) →
    IsOf p e ⟨.noMembers (p.text n) what, line, []⟩

namespace Program.SelectorChain

variable {p : Program} {links : List ExprId} {e : ExprId}

lemma reference? (h : p.SelectorChain links e) : ∃ n, p.reference? e = some (.free n) := by
  cases h with
  | @root _ n _ hr => exact ⟨n, by simp [Program.reference?, hr, Expr.reference?]⟩
  | @select _ _ _ n _ _ hm => exact ⟨n, by simp [Program.reference?, hm, Expr.reference?]⟩

lemma reference?_of_mem (h : p.SelectorChain links e) {c : ExprId} (hc : c ∈ links) :
    ∃ n, p.reference? c = some (.free n) := by
  induction h with
  | root hr =>
    rw [List.mem_singleton.mp hc]
    exact (root hr).reference?
  | select hlinks hm ih =>
    rcases List.mem_append.mp hc with hc | hc
    · exact ih hc
    · rw [List.mem_singleton.mp hc]
      exact (hlinks.select hm).reference?

/-- All links but the last are objects, so they come before it. -/
lemma index_le (h : p.SelectorChain links e) (hp : p.Allocated) :
    ∀ c ∈ links, c.index ≤ e.index := by
  induction h with
  | root _ => simp
  | @select links object m n line _ hm ih =>
    have hlt : object.index < m.index :=
      Script.operand_lt hp (by simp [Program.operands_select hm])
    intro c hc
    rcases List.mem_append.mp hc with hc | hc
    · exact (ih c hc).trans hlt.le
    · rw [List.mem_singleton.mp hc]

lemma not_mem_of_select {object m : ExprId} {n : Name} {line : Line}
    (h : p.SelectorChain links object) (hp : p.Allocated)
    (hm : p.expr? m = some (.select object (.free n) line)) : m ∉ links := by
  intro hmem
  have hlt : object.index < m.index := Script.operand_lt hp (by simp [Program.operands_select hm])
  have hle := h.index_le hp m hmem
  omega

lemma getLast? (h : p.SelectorChain links e) : links[links.length - 1]? = some e := by
  cases h <;> simp

end Program.SelectorChain

namespace Pass

variable {p : Program} {st st' : Pass} {links : List ExprId} {e e' object : ExprId} {n : Name}
  {line : Line} {scope : ScopeId}

/-! ### One link -/

lemma expr_ident (hp : p.Allocated) (he : p.expr? e = some (.ident (.free n) line)) :
    expr p scope st e = (st.note (.expr e)).settle e (st.lexical p scope (.free n) line) := by
  have hoperands : p.operands e = [] := by simp [Program.operands, he, Expr.children]
  rw [← Script.run_expr, Script.expr_eq hp, hoperands]
  exact bindOwn_ident he scope _

lemma expr_select (hp : p.Allocated) (he : p.expr? e = some (.select object (.free n) line)) :
    expr p scope st e = (expr p scope (st.note (.expr e)) object).settle e
      ((expr p scope (st.note (.expr e)) object).selected p object (.free n) line) := by
  rw [← Script.run_expr, Script.expr_eq hp, Program.operands_select he]
  simp only [Script.run, Script.exprs, Script.each, Script.run_expr]
  exact bindOwn_select he scope _

lemma bound?_settle_of_ne (b : Binding) (h : e' ≠ e) :
    (st.settle e b).bound? p e' = st.bound? p e' := by
  simp [bound?, references_settle, Entry.target?, h.symm]

lemma bound?_settle_self (b : Binding) (he : p.reference? e = some (.free n)) :
    (st.settle e b).bound? p e = b.target?.or (st.bound? p e) := by
  simp [bound?, references_settle, Entry.target?, he, Reference.target?]

lemma lexical_settles (he : p.expr? e = some (.ident (.free n) line)) :
    (st.lexical p scope (.free n) line).target?.isSome ∨
      ∃ f, st.lexical p scope (.free n) line = .failed f ∧ f.IsOf p e := by
  unfold lexical
  simp only [Reference.isBound, Reference.target?, Option.isSome_none, Bool.false_eq_true, if_false]
  cases st.scopes.lookup scope (Reference.free n).name with
  | some t => exact .inl rfl
  | none => exact .inr ⟨_, rfl, .name _ he⟩

lemma selected_settles (he : p.expr? e = some (.select object (.free n) line)) :
    st.selected p object (.free n) line = .skipped ∨
      (st.selected p object (.free n) line).target?.isSome ∨
      ∃ f, st.selected p object (.free n) line = .failed f ∧ f.IsOf p e := by
  unfold selected
  simp only [Reference.isBound, Reference.target?, Option.isSome_none, Bool.false_eq_true, if_false]
  cases st.owner p object with
  | unknown => exact .inl rfl
  | nothing what => exact .inr (.inr ⟨_, rfl, .object what he⟩)
  | type t =>
    simp only
    split
    · exact .inr (.inl rfl)
    · exact .inr (.inr ⟨_, rfl, .member t _ he⟩)

/-- A member of an object that is not bound is passed over. -/
lemma selected_of_unbound (hname : (p.reference? object).isSome)
    (hobject : st.bound? p object = none) :
    st.selected p object (.free n) line = .skipped := by
  have howner : st.owner p object = .unknown := by simp [owner, hobject, hname]
  simp [selected, Reference.isBound, Reference.target?, howner]

/-! ### All links -/

/-- From `st` to `st'` the first `i` links have been bound and no other expression; nothing has been
reported, or one fault, of the link at `i`. -/
structure BindsFirst (p : Program) (st st' : Pass) (links : List ExprId) (i : Nat) : Prop where
  le : i ≤ links.length
  bound : ∀ j e, links[j]? = some e → ((st'.bound? p e).isSome ↔ j < i)
  rest : ∀ e ∉ links, st'.bound? p e = st.bound? p e
  faults : st'.faults = st.faults ∨ ∃ e f, links[i]? = some e ∧
    st'.faults = st.faults ++ [f] ∧ .name e (.failed f) ∈ st'.journal.toList ∧ f.IsOf p e

lemma faults_note_expr (st : Pass) (e : ExprId) : (st.note (.expr e)).faults = st.faults := by
  simp [faults, note, Entry.fault?]

lemma BindsFirst.nil (st : Pass) (e : ExprId) : BindsFirst p st (st.note (.expr e)) [] 0 where
  le := le_rfl
  bound := by simp
  rest _ _ := rfl
  faults := .inl (faults_note_expr st e)

lemma BindsFirst.of_note {i : Nat} (h : BindsFirst p (st.note (.expr e)) st' links i) :
    BindsFirst p st st' links i where
  le := h.le
  bound := h.bound
  rest := h.rest
  faults := faults_note_expr st e ▸ h.faults

/-- If all links have been bound, nothing has been reported. -/
lemma BindsFirst.faults_eq (h : BindsFirst p st st' links links.length) : st'.faults = st.faults := by
  obtain heq | ⟨e, f, he, -⟩ := h.faults
  · exact heq
  · simp at he

/-- One more link settled leaves the links before as they were. -/
lemma BindsFirst.settle {i k : Nat} (h : BindsFirst p st st' links i) {m : ExprId} (hm : m ∉ links)
    {b : Binding} (hk : k ≤ links.length + 1) (hsame : ∀ j < links.length, (j < i ↔ j < k))
    (hself : ((st'.settle m b).bound? p m).isSome ↔ links.length < k)
    (hfaults : (st'.settle m b).faults = st.faults ∨ ∃ e f, (links ++ [m])[k]? = some e ∧
      (st'.settle m b).faults = st.faults ++ [f] ∧
      .name e (.failed f) ∈ (st'.settle m b).journal.toList ∧ f.IsOf p e) :
    BindsFirst p st (st'.settle m b) (links ++ [m]) k where
  le := by simpa using hk
  bound j e he := by
    rcases Nat.lt_or_ge j links.length with hj | hj
    · rw [List.getElem?_append_left hj] at he
      have hne : e ≠ m := fun heq => hm (heq ▸ List.mem_of_getElem? he)
      rw [bound?_settle_of_ne b hne, h.bound j e he, hsame j hj]
    · obtain ⟨hj', -⟩ := List.getElem?_eq_some_iff.mp he
      have hlen : j < links.length + 1 := by simpa using hj'
      obtain rfl : j = links.length := by omega
      obtain rfl : m = e := by simpa using he
      exact hself
  rest e he := by
    obtain ⟨hlinks, hne⟩ : e ∉ links ∧ e ≠ m := by simpa using he
    rw [bound?_settle_of_ne b hne, h.rest e hlinks]
  faults := hfaults

/-- One more link is passed over, or all links before it are bound and it is bound or reported. -/
lemma BindsFirst.next {i : Nat} (h : BindsFirst p st st' links i) {m : ExprId} (hm : m ∉ links)
    (href : p.reference? m = some (.free n)) (hfree : st.bound? p m = none) {b : Binding}
    (hb : b = .skipped ∨ i = links.length ∧
      (b.target?.isSome ∨ ∃ f, b = .failed f ∧ f.IsOf p m)) :
    ∃ k, BindsFirst p st (st'.settle m b) (links ++ [m]) k := by
  have hself : (st'.settle m b).bound? p m = b.target? := by
    rw [bound?_settle_self b href, h.rest m hm, hfree, Option.or_none]
  obtain rfl | ⟨rfl, hbound | ⟨f, rfl, hf⟩⟩ := hb
  · refine ⟨i, h.settle hm (h.le.trans (Nat.le_succ _)) (fun _ _ => Iff.rfl) ?_ ?_⟩
    · simpa [hself, Binding.target?] using h.le
    · obtain heq | ⟨e, f, he, hfaults, hmem, hf⟩ := h.faults
      · exact .inl (by simpa [Entry.fault?] using heq)
      · refine .inr ⟨e, f, ?_, by simpa [Entry.fault?] using hfaults, by simp [hmem], hf⟩
        rw [List.getElem?_append_left (List.getElem?_eq_some_iff.mp he).1, he]
  · refine ⟨links.length + 1, h.settle hm le_rfl (fun j hj => by omega) ?_ (.inl ?_)⟩
    · simp [hself, hbound]
    · have hquiet : (Entry.name m b).fault? = none := by
        cases b <;> simp [Binding.target?, Entry.fault?] at hbound ⊢
      simp [hquiet, h.faults_eq]
  · refine ⟨links.length, h.settle hm (Nat.le_succ _) (fun _ _ => Iff.rfl) ?_ (.inr ⟨m, f, ?_⟩)⟩
    · simp [hself, Binding.target?]
    · simp [Entry.fault?, h.faults_eq, hf]

lemma exists_bindsFirst (hp : p.Allocated) (hchain : p.SelectorChain links e) (scope : ScopeId)
    (hfree : ∀ c ∈ links, st.bound? p c = none) :
    ∃ i, BindsFirst p st (expr p scope st e) links i := by
  induction hchain generalizing st with
  | @root r n line hr =>
    obtain ⟨_, href⟩ := (Program.SelectorChain.root hr).reference?
    rw [expr_ident hp hr]
    exact (BindsFirst.nil st r).next List.not_mem_nil href (hfree r (by simp))
      (.inr ⟨rfl, lexical_settles hr⟩)
  | @select links object m n line hlinks hm ih =>
    obtain ⟨_, href⟩ := (hlinks.select hm).reference?
    have hobjects : ∀ c ∈ links, (st.note (.expr m)).bound? p c = none :=
      fun c hc => hfree c (List.mem_append_left _ hc)
    obtain ⟨i, hi⟩ := ih hobjects
    rw [expr_select hp hm]
    refine hi.of_note.next (hlinks.not_mem_of_select hp hm) href (hfree m (by simp)) ?_
    -- the object is the last of the links before
    have hobject := hi.bound _ _ hlinks.getLast?
    rcases hi.le.lt_or_eq with hlt | rfl
    · left
      obtain ⟨_, hname⟩ := hlinks.reference?
      refine selected_of_unbound (by simp [hname]) (Option.not_isSome_iff_eq_none.mp ?_)
      rw [hobject]
      omega
    · rcases selected_settles hm with hskip | hsettles
      · exact .inl hskip
      · exact .inr ⟨rfl, hsettles⟩

/-- A link that has not been looked up is not bound. -/
lemma Reached.bound?_of_not_looked (h : Reached p st) (href : p.reference? e = some (.free n))
    (hnew : e ∉ st.journal.toList.filterMap Entry.looked?) : st.bound? p e = none := by
  rw [h.bound?, ← List.nil_append st.journal.toList, Program.boundBy_append hnew]
  simp [Program.boundBy, href, Reference.target?]

end Pass

/-- **Selections report no cascading errors**. If none of the links of `r.m₁.….mₖ` has been looked up
so far, then resolving the selection binds the first `i` links, for some `i`, and none after. It
reports nothing, or a single fault, which is of the link at `i`. -/
theorem selections_report_once {p : Program} (hp : p.Allocated) {st : Pass}
    (hst : Pass.Steps p (Pass.start p) st) {links : List ExprId} {e : ExprId}
    (hchain : p.SelectorChain links e)
    (hnew : ∀ c ∈ links, c ∉ st.journal.toList.filterMap Entry.looked?) (scope : ScopeId) :
    ∃ i : Nat, (∀ j c, links[j]? = some c →
        (((Pass.expr p scope st e).bound? p c).isSome ↔ j < i)) ∧
      ((Pass.expr p scope st e).faults = st.faults ∨
        ∃ c f, links[i]? = some c ∧ (Pass.expr p scope st e).faults = st.faults ++ [f] ∧
          .name c (.failed f) ∈ (Pass.expr p scope st e).journal.toList ∧ f.IsOf p c) := by
  have hfree : ∀ c ∈ links, st.bound? p c = none := fun c hc => by
    obtain ⟨n, href⟩ := hchain.reference?_of_mem hc
    exact hst.reached.bound?_of_not_looked href (hnew c hc)
  obtain ⟨i, hi⟩ := Pass.exists_bindsFirst hp hchain scope hfree
  exact ⟨i, hi.bound, hi.faults⟩

/-- The selection `A.q.x.x` from a class `A` without members. -/
def brokenSelectionSteps : List Operation :=
  [.declareClass "A" ⟨1⟩ {}, .intern "q", .intern "x", .addExpr (.ident (.free ⟨7⟩) ⟨2⟩),
    .addExpr (.select ⟨0⟩ (.free ⟨8⟩) ⟨3⟩), .addExpr (.select ⟨1⟩ (.free ⟨9⟩) ⟨4⟩),
    .addExpr (.select ⟨2⟩ (.free ⟨9⟩) ⟨5⟩)]

def brokenSelection : Program := (Program.new.build? brokenSelectionSteps).getD .new

/-- The pass after the selection. -/
def brokenPass : Pass :=
  Pass.expr brokenSelection ScopeTree.global (Pass.start brokenSelection) ⟨3⟩

theorem broken_selection_reports_once :
    Program.new.build? brokenSelectionSteps = some brokenSelection ∧
    brokenSelection.SelectorChain [⟨0⟩, ⟨1⟩, ⟨2⟩, ⟨3⟩] ⟨3⟩ ∧
    brokenPass.faults = [⟨.unknownMember "A" "q", ⟨3⟩, []⟩] ∧
    ∀ j c, [(⟨0⟩ : ExprId), ⟨1⟩, ⟨2⟩, ⟨3⟩][j]? = some c →
      ((brokenPass.bound? brokenSelection c).isSome ↔ j < 1) := by
  have hbuild : Program.new.build? brokenSelectionSteps = some brokenSelection := by decide
  have hchain : brokenSelection.SelectorChain [⟨0⟩, ⟨1⟩, ⟨2⟩, ⟨3⟩] ⟨3⟩ :=
    (((Program.SelectorChain.root rfl).select rfl).select rfl).select rfl
  obtain ⟨i, hbound, -⟩ :=
    selections_report_once (Program.Built.new.build? hbuild).wellFormed.allocated .refl hchain
      (by decide) ScopeTree.global
  have hfirst : 0 < i := (hbound 0 ⟨0⟩ rfl).mp (by decide)
  have hsecond : ¬ 1 < i := fun h => by
    have hsome := (hbound 1 ⟨1⟩ rfl).mpr h
    revert hsome
    decide
  obtain rfl : i = 1 := by omega
  exact ⟨hbuild, hchain, by decide, hbound⟩

end NameBinding
