import NameBinding.Proofs.LookupMoments
import NameBinding.Proofs.NamePreservation
import NameBinding.Proofs.NearestNames
import NameBinding.Proofs.Refusals
import NameBinding.Proofs.ReportedErrors
import NameBinding.Proofs.ScopeChains
import NameBinding.Proofs.ScopeLayers

/-!
The names that are offered for one that was not found can be used instead of it. They are texts, but
no two names of a program have the same text, so that each is the text of one name; and when the
fault is reported, that name is declared where the other one was sought.
-/

namespace NameBinding

/-! ### Texts and names -/

namespace NameTable

variable {t : NameTable} {n : Name} {text : String}

/-- No text is entered twice. -/
def Distinct (t : NameTable) : Prop := t.texts.toList.Nodup

lemma Distinct.intern (h : t.Distinct) (text : String) : (t.intern text).2.Distinct := by
  unfold NameTable.intern
  split
  · exact h
  · next hnone =>
    have hnew : text ∉ t.texts.toList :=
      List.idxOf?_eq_none_iff.mp (Option.map_eq_none_iff.mp hnone)
    have hpush : (t.texts.push text).toList = t.texts.toList ++ [text] := Array.toList_push
    rw [Distinct, hpush, ← List.concat_eq_append]
    exact h.concat hnew

/-- The text of a name leads back to it. -/
lemma Distinct.find?_of_text? (h : t.Distinct) (hn : t.text? n = some text) :
    t.find? text = some n := by
  have hget : t.texts.toList[n.key]? = some text := by simpa [text?] using hn
  obtain ⟨hlt, heq⟩ := List.getElem?_eq_some_iff.mp hget
  -- a place before that of the name with the same text would be the same place
  have hidx : t.texts.toList.idxOf? text = some n.key := by
    refine List.findIdx?_eq_some_iff_getElem.mpr ⟨hlt, beq_iff_eq.mpr heq, fun j hj hjtext => ?_⟩
    have hsame := (beq_iff_eq.mp hjtext).trans heq.symm
    exact hj.ne (h.getElem_inj_iff.mp hsame)
  rw [find?, hidx]
  rfl

end NameTable

namespace Program

variable {p q : Program} {n : Name} {v : SymbolId}

lemma names_enter (p : Program) (s : ScopeId) (n : Name) (v : SymbolId) :
    (p.enter s n v).names = p.names := by
  unfold enter
  split <;> rfl

lemma names_declare (p : Program) (s : ScopeId) (x : Symbol) :
    (p.declare s x).2.names = p.names := by
  unfold declare
  split
  · rfl
  · exact names_enter ..

lemma names_declareType (p : Program) (n : Name) (line : Line) (kind : ScopeId → SymbolKind) :
    (p.declareType n line kind).2.names = p.names :=
  names_enter ..

lemma distinct_declareClass (hp : p.names.Distinct) (text : String) (line : Line)
    (head : ClassHead) : (p.declareClass text line head).2.names.Distinct := by
  have htext := hp.intern text
  unfold declareClass
  simp only
  split
  · exact htext
  · cases head.baseClass with
    | none => exact (names_declareType (p.intern text).2 ..).symm ▸ htext
    | some base =>
      exact (names_declareType ((p.intern text).2.intern base).2 ..).symm ▸ htext.intern base

lemma distinct_declareEnum (hp : p.names.Distinct) (text : String) (line : Line)
    (head : EnumHead) : (p.declareEnum text line head).2.names.Distinct := by
  have htext := hp.intern text
  unfold declareEnum
  simp only
  split
  · exact htext
  · exact (names_declareType (p.intern text).2 ..).symm ▸ htext

/-- Operations enter texts one by one, if at all. -/
lemma distinct_perform (hp : p.names.Distinct) (op : Operation) :
    (p.perform op).names.Distinct := by
  cases op with
  | intern text => exact hp.intern text
  | addExpr e => exact hp
  | addStmt s => exact hp
  | addVar text line value => exact hp.intern text
  | declare scope x => exact (p.names_declare scope x).symm ▸ hp
  | declareClass text line head => exact distinct_declareClass hp text line head
  | declareEnum text line head => exact distinct_declareEnum hp text line head
  | declareMember owner x =>
    obtain h | ⟨_, scope, -, -, -, -, h⟩ := p.declareMember_cases owner x
    · rwa [perform, h]
    · rw [perform, h]
      exact (p.names_declare scope x).symm ▸ hp
  | defineConstructor s line c =>
    obtain h | ⟨_, -, h⟩ := p.defineConstructor_cases s line c
    · rwa [perform, h]
    · rw [perform, h]
      exact hp
  | defineDestructor s body =>
    obtain h | ⟨-, h⟩ := p.defineDestructor_cases s body
    · rwa [perform, h]
    · rw [perform, h]
      exact hp

lemma Built.distinct (hp : p.Built) : p.names.Distinct := by
  induction hp with
  | new =>
    unfold NameTable.Distinct
    decide
  | perform _ _ ih => exact distinct_perform ih _

lemma Built.find?_text (hp : p.Built) (hn : n.key < p.names.size) :
    p.names.find? (p.text n) = some n := by
  apply hp.distinct.find?_of_text?
  have htext : p.names.text? n = some p.names.texts[n.key] := Array.getElem?_eq_getElem hn
  rw [text, htext]
  rfl

/-! ### Listed classes -/

/-- Every class that is listed stands at the top under its name. -/
def ClassesAtTop (p : Program) : Prop := ∀ v ∈ p.classes, ∃ n, p.IsBase v n

lemma Grows.classesAtTop (hg : p.Grows q) (hp : p.ClassesAtTop)
    (h : ∀ v ∈ q.classes, v ∈ p.classes ∨ ∃ n, q.IsBase v n) : q.ClassesAtTop := by
  intro v hv
  rcases h v hv with hold | hnew
  · obtain ⟨n, hn⟩ := hp v hold
    exact ⟨n, hg.isBase hn⟩
  · exact hnew

lemma ClassesAtTop.intern (hp : p.ClassesAtTop) (text : String) : (p.intern text).2.ClassesAtTop :=
  (p.grows_intern text).classesAtTop hp fun _ hv => .inl hv

lemma ClassesAtTop.newClass (hp : p.ClassesAtTop) (hlt : ScopeTree.global.index < p.scopes.size)
    (hfree : p.scopes.declared? ScopeTree.global n = none) (line : Line) (head : ClassHead)
    (base : Option BaseClass) :
    ({ (p.declareType n line fun scope => .classType (newClass head base scope)).2 with
      classes := (p.declareType n line fun scope => .classType (newClass head base scope)).2.classes
        ++ [⟨p.symbols.size⟩] } : Program).ClassesAtTop := by
  have hnew := (addsSymbol_declareType (p := p) n line
    fun scope => .classType (Program.newClass head base scope)).new
  refine (p.grows_newClass n line head base).classesAtTop hp fun v hv => ?_
  rcases List.mem_append.mp hv with hv | hv
  · exact .inl (classes_declareType (p := p) .. ▸ hv)
  · obtain rfl := List.mem_singleton.mp hv
    refine .inr ⟨n, (global_declareType line _ hlt hfree).2, ⟨_, hnew, rfl⟩, ?_⟩
    change ((p.declareType n line _).2.class? _).isSome
    rw [class?, hnew]
    rfl

lemma ClassesAtTop.declareClass (hp : p.ClassesAtTop) (hlt : ScopeTree.global.index < p.scopes.size)
    (text : String) (line : Line) (head : ClassHead) :
    (p.declareClass text line head).2.ClassesAtTop := by
  have hp₁ := hp.intern text
  unfold Program.declareClass
  simp only
  split
  · exact hp₁
  · next hfree =>
    cases head.baseClass with
    | none => exact hp₁.newClass hlt hfree line head none
    | some base => exact (hp₁.intern base).newClass hlt hfree line head _

lemma classes_declare (p : Program) (s : ScopeId) (x : Symbol) :
    (p.declare s x).2.classes = p.classes := by
  unfold declare
  split
  · rfl
  · exact (enter_lists ..).1

lemma ClassesAtTop.perform (hp : p.ClassesAtTop) (hlt : ScopeTree.global.index < p.scopes.size)
    (op : Operation) : (p.perform op).ClassesAtTop := by
  have hsame : (p.perform op).classes = p.classes → (p.perform op).ClassesAtTop := fun h =>
    (p.grows_perform op).classesAtTop hp fun v hv => .inl (h ▸ hv)
  cases op with
  | intern text => exact hsame rfl
  | addExpr e => exact hsame rfl
  | addStmt s => exact hsame rfl
  | addVar text line value => exact hsame rfl
  | declare scope x => exact hsame (p.classes_declare scope x)
  | declareClass text line head => exact hp.declareClass hlt text line head
  | declareEnum text line head => exact hsame (p.sameBases_declareEnum text line head).classes
  | declareMember owner x => exact hsame (p.sameBases_declareMember owner x).classes
  | defineConstructor s line c => exact hsame (p.sameBases_defineConstructor s line c).classes
  | defineDestructor s body => exact hsame (p.sameBases_defineDestructor s body).classes

lemma Built.classesAtTop (hp : p.Built) : p.ClassesAtTop := by
  induction hp with
  | new =>
    intro v hv
    have hnone : Program.new.classes = [] := by decide
    rw [hnone] at hv
    cases hv
  | perform hbuilt _ ih =>
    obtain ⟨sc, hsc, -⟩ := hbuilt.wellFormed.listed.root
    exact ih.perform (ScopeTree.lt_of_scope? hsc) _

/-- The text is that of a listed class, which is found under it in the global scope. -/
def NamesClass (p : Program) (text : String) : Prop :=
  ∃ v ∈ p.classes, p.symbolText v = text ∧ (p.class? v).isSome ∧
    ∃ n, p.names.find? text = some n ∧ p.scopes.declared? ScopeTree.global n = some v

lemma Built.namesClass_of_mem (hp : p.Built) {text : String}
    (h : text ∈ p.classes.map p.symbolText) : p.NamesClass text := by
  obtain ⟨v, hv, rfl⟩ := List.mem_map.mp h
  obtain ⟨n, hdeclared, ⟨sym, hsym, rfl⟩, hclass⟩ := hp.classesAtTop v hv
  have htext : p.symbolText v = p.text sym.name := by
    rw [symbolText, hsym]
    rfl
  have hlt := (hp.wellFormed.allocated.symbols v sym hsym).1
  exact ⟨v, hv, rfl, hclass, sym.name, htext ▸ hp.find?_text hlt, hdeclared⟩

end Program

/-! ### Names in scopes -/

namespace Pass

variable {p : Program} {st st' : Pass} {s : ScopeId} {n : Name} {v : SymbolId}

/-- Only symbols are entered into scopes, each under its own name. -/
lemma Step.declared? (h : Step p st st') (hd : st'.scopes.declared? s n = some v) :
    st.scopes.declared? s n = some v ∨ p.Named v n := by
  cases h with
  | meet e => exact .inl hd
  | bind scope e =>
    rw [scopes_bindOwn] at hd
    exact .inl hd
  | @declare scope u hnew hlt =>
    obtain ⟨-, h⟩ | ⟨sym, hu, ⟨t, ht, h⟩ | ⟨w, -, h⟩⟩ := declare_cases p scope st u
    · rw [h] at hd
      exact .inl hd
    · rw [h] at hd
      rw [ScopeTree.declared?_add ht hlt] at hd
      split at hd
      · next heq =>
        obtain rfl := Option.some.inj hd
        exact .inr ⟨sym, hu, heq.2.symm⟩
      · exact .inl hd
    · rw [h] at hd
      exact .inl hd
  | @opened scope key hlt =>
    rw [scopes_openFor, ScopeTree.declared?_addChild] at hd
    exact .inl hd
  | closed key =>
    rw [scopes_closeFor] at hd
    exact .inl hd

lemma Steps.declared? (h : Steps p (start p) st) (hd : st.scopes.declared? s n = some v) :
    p.scopes.declared? s n = some v ∨ p.Named v n := by
  refine h.keep (I := fun st => ∀ v, st.scopes.declared? s n = some v →
    p.scopes.declared? s n = some v ∨ p.Named v n) ?_ ?_ v hd
  · intro st st' hstep ih v hv
    exact (hstep.declared? hv).elim (ih v) .inr
  · intro v hv
    rw [scopes_start] at hv
    exact .inl hv

/-- At any time of the pass, the names of a scope are found by their texts. -/
lemma Steps.find?_text (h : Steps p (start p) st) (hp : p.Built) (hn : n ∈ st.scopes.names s) :
    p.names.find? (p.text n) = some n := by
  apply hp.find?_text
  obtain ⟨v, hv⟩ := Option.isSome_iff_exists.mp (ScopeTree.isSome_declared?_iff.mpr hn)
  have hall := hp.wellFormed.allocated
  rcases h.declared? hv with hdeclared | ⟨sym, hsym, rfl⟩
  · exact (hall.declared hdeclared).1
  · exact (hall.symbols v sym hsym).1

end Pass

/-! ### What is offered -/

lemma Fault.mem_suggestions {f : Fault} {o : Options} {text : String}
    (h : text ∈ (f.report o).suggestions) :
    ∃ name, f.cause.missing? = some name ∧ text ∈ f.inReach ∧ text ≠ name := by
  unfold Fault.report at h
  cases hname : f.cause.missing? with
  | none => simp [hname] at h
  | some name =>
    simp only [hname] at h
    have heligible := Suggestion.mem_ranked.mp (List.mem_of_mem_take h)
    exact ⟨name, rfl, heligible.mem, heligible.ne⟩

namespace Moment

variable {p : Program} {m : Moment} {text : String}

/-- The text is that of a name which means something in the scope of the moment. -/
def Finds (p : Program) (m : Moment) (text : String) : Prop :=
  ∃ n, p.names.find? text = some n ∧ (m.pass.scopes.lookup m.scope n).isSome

/-- The text is that of a name which the type or one of its ancestors declares itself. -/
def FindsIn (p : Program) (m : Moment) (t : SymbolId) (text : String) : Prop :=
  ∃ u n, p.Above m.pass.bindings t u ∧ p.names.find? text = some n ∧ (m.pass.own? p u n).isSome

/-- The name looked up is a member selected from the type. -/
def SelectsFrom (p : Program) (m : Moment) (t : SymbolId) : Prop :=
  ∃ object r line, p.expr? m.expr = some (.select object r line) ∧ m.pass.owner p object = .type t

lemma finds_of_mem (hp : p.Built) (hm : m ∈ p.moments)
    (h : text ∈ (m.pass.scopes.namesInReach m.scope).map p.text) : m.Finds p text := by
  obtain ⟨n, hn, rfl⟩ := List.mem_map.mp h
  obtain ⟨s, -, hs⟩ := List.mem_flatMap.mp hn
  have hsteps := hp.wellFormed.listed.steps_of_mem_moments hm
  exact ⟨n, hsteps.find?_text hp hs, ScopeTree.isSome_lookup_iff.mpr hn⟩

lemma findsIn_of_mem (hp : p.Built) (hm : m ∈ p.moments) {t : SymbolId}
    (h : text ∈ ((m.pass.lineageScopes p t).flatMap m.pass.scopes.names).map p.text) :
    m.FindsIn p t text := by
  obtain ⟨n, hn, rfl⟩ := List.mem_map.mp h
  obtain ⟨s, hs, hns⟩ := List.mem_flatMap.mp hn
  obtain ⟨u, hu, hscope⟩ := List.mem_filterMap.mp hs
  have hsteps := hp.wellFormed.listed.steps_of_mem_moments hm
  refine ⟨u, n, (p.mem_lineage_iff _ t u).mp hu, hsteps.find?_text hp hns, ?_⟩
  rw [Pass.own?, hscope, Option.bind_some, ScopeTree.isSome_declared?_iff]
  exact hns

end Moment

namespace Pass

variable {p : Program} {st : Pass}

/-- For a base class that is not found, the classes at the top were in reach. -/
def OffersClasses (p : Program) (st : Pass) : Prop :=
  ∀ f ∈ st.faults, ∀ derived name, f.cause = .unknownBase derived name →
    f.inReach = p.classes.map p.symbolText

lemma OffersClasses.note (h : OffersClasses p st) {x : Entry}
    (hx : ∀ f, x.fault? = some f → ∀ derived name, f.cause = .unknownBase derived name →
      f.inReach = p.classes.map p.symbolText) : OffersClasses p (st.note x) := by
  intro f hf
  rw [faults_note, List.mem_append, Option.mem_toList] at hf
  exact hf.elim (h f) (hx f)

lemma OffersClasses.bindBase (h : OffersClasses p st) (s : SymbolId) :
    OffersClasses p (st.bindBase p s) := by
  unfold Pass.bindBase
  split
  · exact h
  · split
    · exact h
    · simp only
      split
      · next t ht =>
        have hbound : OffersClasses p
          { st with bindings.baseClasses := st.bindings.baseClasses.insert s t } := h
        split
        · exact hbound.note (by simp [Entry.fault?])
        · exact h.note (by simp [Entry.fault?])
      · exact h.note (by simp [Entry.fault?])

lemma OffersClasses.checkCycle (h : OffersClasses p st) (s : SymbolId) :
    OffersClasses p (st.checkCycle p s) := by
  unfold Pass.checkCycle
  split
  · exact h.note (by simp [Entry.fault?])
  · exact h

lemma offersClasses_start (p : Program) : OffersClasses p (start p) := by
  have hempty : OffersClasses p { scopes := p.scopes } := by
    intro f hf
    cases hf
  have hbases : OffersClasses p (p.classes.foldl (Pass.bindBase p) { scopes := p.scopes }) :=
    List.foldlRecOn p.classes _ hempty fun _ h s _ => h.bindBase s
  have hcycles : OffersClasses p (p.classes.foldl (Pass.checkCycle p) _) :=
    List.foldlRecOn p.classes _ hbases fun _ h s _ => h.checkCycle s
  exact hcycles.note (by simp [Entry.fault?])

variable {f : Fault}

/-- A name or a member that is not found is reported when it is looked up. -/
lemma exists_moment (hf : f ∈ (run p).faults) (hcause : (∃ name, f.cause = .unknownName name) ∨
    ∃ owner name, f.cause = .unknownMember owner name) : ∃ m ∈ p.moments, m.Reports p f := by
  rcases accounts_run hf with hstart | ⟨e, hbuild⟩ | hmoment
  · have hbase := ofBase_of_mem_faults hstart
    obtain ⟨name, h⟩ | ⟨owner, name, h⟩ := hcause
    · rw [h] at hbase
      exact hbase.elim
    · rw [h] at hbase
      exact hbase.elim
  · simp [hbuild] at hcause
  · exact hmoment

lemma inReach_of_unknownBase (hf : f ∈ (run p).faults) {derived name : String}
    (hcause : f.cause = .unknownBase derived name) : f.inReach = p.classes.map p.symbolText := by
  rcases accounts_run hf with hstart | ⟨e, hbuild⟩ | ⟨m, -, hreports⟩
  · exact offersClasses_start p f hstart derived name hcause
  · simp [hbuild] at hcause
  · obtain ⟨_, _, -, rfl⟩ | ⟨_, _, _, -, ⟨_, rfl⟩ | ⟨_, -, rfl⟩⟩ := hreports.cases
    · cases hcause
    · cases hcause
    · cases hcause

end Pass

namespace Program

variable {p : Program} {o : Options} {d : Diagnostic}

lemma exists_fault_of_mem (hd : d ∈ (p.bindings o).2) :
    ∃ f ∈ p.faults o.validateSwitches, d = f.report o := by
  rw [errors_eq_keep] at hd
  have hmem : d ∈ (p.faults o.validateSwitches).map (Fault.report o) := by
    unfold Options.keep at hd
    split at hd
    · exact hd
    · exact List.mem_of_mem_take hd
  obtain ⟨f, hf, rfl⟩ := List.mem_map.mp hmem
  exact ⟨f, hf, rfl⟩

/-- An error for which names may be offered is a fault of the pass. -/
lemma exists_fault_of_missing (hd : d ∈ (p.bindings o).2) (hmissing : d.cause.missing?.isSome) :
    ∃ f ∈ (Pass.run p).faults, d = f.report o := by
  obtain ⟨f, hf, rfl⟩ := exists_fault_of_mem hd
  rcases List.mem_append.mp hf with hf | hf
  · exact ⟨f, hf, rfl⟩
  · split at hf
    · have hswitch := ofSwitch_of_mem hf
      have hcause : f.cause.missing?.isSome := hmissing
      cases hc : f.cause <;> simp_all [Cause.OfSwitch, Cause.missing?]
    · cases hf

end Program

/-- **What is offered can be used.** Names are offered only for a name, a member or a base class
that was not found, and never that name itself. The errors for names and members are reported at
moments of the pass. At the moment when a name is not found, every text that is offered is interned
and a look-up in the scope of that moment finds it; for a member it is declared by the type that the
member was selected from, or by an ancestor of that type. For a base class, every text that is
offered is the name of a listed class, which is found under it in the global scope. -/
theorem suggestions_can_be_used {p : Program} (hp : p.Built) (o : Options) :
    (∀ d ∈ (p.bindings o).2, ∀ text ∈ d.suggestions,
      ∃ name, d.cause.missing? = some name ∧ text ≠ name) ∧
    (∀ d ∈ (p.bindings o).2, ((∃ name, d.cause = .unknownName name) ∨
      ∃ owner name, d.cause = .unknownMember owner name) →
      ∃ m ∈ p.moments, ∃ f, m.Reports p f ∧ d = f.report o) ∧
    (∀ m ∈ p.moments,
      (m.pass.bindOwn p m.scope m.expr).journal.toList <+: (Pass.run p).journal.toList ∧
      ∀ f, m.Reports p f → ∀ text ∈ (f.report o).suggestions,
        (∀ name, f.cause = .unknownName name → text ≠ name ∧ m.Finds p text) ∧
        ∀ owner name, f.cause = .unknownMember owner name → text ≠ name ∧
          ∃ t, m.SelectsFrom p t ∧ p.symbolText t = owner ∧ m.FindsIn p t text) ∧
    ∀ d ∈ (p.bindings o).2, ∀ derived name, d.cause = .unknownBase derived name →
      ∀ text ∈ d.suggestions, text ≠ name ∧ p.NamesClass text := by
  refine ⟨fun d hd text htext => ?_, fun d hd hcause => ?_,
    fun m hm => ⟨Program.journal_of_mem_moments hm, fun f hf text htext => ?_⟩,
    fun d hd derived name hcause text htext => ?_⟩
  · obtain ⟨f, -, rfl⟩ := Program.exists_fault_of_mem hd
    obtain ⟨name, hname, -, hne⟩ := Fault.mem_suggestions htext
    exact ⟨name, hname, hne⟩
  · have hmissing : d.cause.missing?.isSome := by
      obtain ⟨name, h⟩ | ⟨owner, name, h⟩ := hcause
      · rw [h]
        rfl
      · rw [h]
        rfl
    obtain ⟨f, hf, rfl⟩ := Program.exists_fault_of_missing hd hmissing
    obtain ⟨m, hm, hreports⟩ := Pass.exists_moment hf hcause
    exact ⟨m, hm, f, hreports, rfl⟩
  · obtain ⟨name, hname, hreach, hne⟩ := Fault.mem_suggestions htext
    obtain ⟨r, line, -, rfl⟩ | ⟨object, r, line, he, ⟨what, rfl⟩ | ⟨t, howner, rfl⟩⟩ := hf.cases
    · obtain rfl := Option.some.inj hname
      refine ⟨fun name hcause => ?_, fun owner name hcause => by cases hcause⟩
      obtain rfl := Cause.unknownName.inj hcause
      exact ⟨hne, Moment.finds_of_mem hp hm hreach⟩
    · cases hname
    · obtain rfl := Option.some.inj hname
      refine ⟨fun name hcause => (by cases hcause), fun owner name hcause => ?_⟩
      obtain ⟨rfl, rfl⟩ := Cause.unknownMember.inj hcause
      exact ⟨hne, t, ⟨object, r, line, he, howner⟩, rfl, Moment.findsIn_of_mem hp hm hreach⟩
  · have hmissing : d.cause.missing? = some name := by
      rw [hcause]
      rfl
    obtain ⟨f, hf, rfl⟩ := Program.exists_fault_of_missing hd (by rw [hmissing]; rfl)
    obtain ⟨name', hname, hreach, hne⟩ := Fault.mem_suggestions htext
    obtain rfl : name' = name := Option.some.inj (hname.symm.trans hmissing)
    rw [Pass.inReach_of_unknownBase hf hcause] at hreach
    exact ⟨hne, hp.namesClass_of_mem hreach⟩

/-- Class `Cube` inherits the field `width` of `Shape`, but says `Cube.widht` and `Shap`; and class
`Die` asks for a base `Cub`. -/
def misnamedSteps : List Operation :=
  [.declareClass "Shape" ⟨1⟩ {}, .intern "width", .addExpr (.ident (.free ⟨0⟩) ⟨2⟩),
    .declareMember ⟨7⟩ ⟨⟨8⟩, ⟨2⟩, .field ⟨.pub, ⟨⟨0⟩, none⟩⟩⟩,
    .declareClass "Cube" ⟨3⟩ { baseClass := some "Shape" },
    .declareClass "Die" ⟨4⟩ { baseClass := some "Cub" }, .intern "widht", .intern "Shap",
    .intern "m", .addExpr (.ident (.free ⟨9⟩) ⟨5⟩), .addExpr (.select ⟨1⟩ (.free ⟨12⟩) ⟨5⟩),
    .addExpr (.ident (.free ⟨13⟩) ⟨6⟩), .addStmt (.expr ⟨2⟩ ⟨5⟩), .addStmt (.expr ⟨3⟩ ⟨6⟩),
    .addStmt (.block ⟨[⟨0⟩, ⟨1⟩], ⟨5⟩⟩),
    .declareMember ⟨9⟩ ⟨⟨14⟩, ⟨5⟩, .method ⟨⟨.pub, some ⟨2⟩⟩, none, .normal, false, []⟩⟩]

def misnamed : Program := (Program.new.build? misnamedSteps).getD .new

theorem misnamed_suggestions_can_be_used :
    misnamed.Built ∧
    (misnamed.bindings {}).2 = [⟨.unknownBase "Die" "Cub", ⟨4⟩, ["Cube"]⟩,
      ⟨.unknownMember "Cube" "widht", ⟨5⟩, ["width"]⟩, ⟨.unknownName "Shap", ⟨6⟩, ["Shape"]⟩] ∧
    misnamed.NamesClass "Cube" ∧
    (∃ m ∈ misnamed.moments, ∃ t, m.SelectsFrom misnamed t ∧ m.FindsIn misnamed t "width") ∧
    ∃ m ∈ misnamed.moments, m.Finds misnamed "Shape" := by
  have hbuild : Program.new.build? misnamedSteps = some misnamed := by decide
  have hbuilt := Program.Built.new.build? hbuild
  have herrors : (misnamed.bindings {}).2 = [⟨.unknownBase "Die" "Cub", ⟨4⟩, ["Cube"]⟩,
      ⟨.unknownMember "Cube" "widht", ⟨5⟩, ["width"]⟩,
      ⟨.unknownName "Shap", ⟨6⟩, ["Shape"]⟩] := by decide
  obtain ⟨-, hmoment, hoffered, hbase⟩ := suggestions_can_be_used hbuilt {}
  rw [herrors] at hmoment hbase
  refine ⟨hbuilt, herrors, ?_, ?_, ?_⟩
  · exact (hbase ⟨.unknownBase "Die" "Cub", ⟨4⟩, ["Cube"]⟩ (by simp) "Die" "Cub" rfl "Cube"
      (by simp)).2
  · obtain ⟨m, hm, f, hf, hd⟩ := hmoment ⟨.unknownMember "Cube" "widht", ⟨5⟩, ["width"]⟩ (by simp)
      (.inr ⟨"Cube", "widht", rfl⟩)
    have htext : "width" ∈ (f.report {}).suggestions := by
      rw [← hd]
      simp
    have hcause : f.cause = .unknownMember "Cube" "widht" := (congrArg Diagnostic.cause hd).symm
    obtain ⟨-, t, hselects, -, hfinds⟩ := ((hoffered m hm).2 f hf "width" htext).2 _ _ hcause
    exact ⟨m, hm, t, hselects, hfinds⟩
  · obtain ⟨m, hm, f, hf, hd⟩ := hmoment ⟨.unknownName "Shap", ⟨6⟩, ["Shape"]⟩ (by simp)
      (.inl ⟨"Shap", rfl⟩)
    have htext : "Shape" ∈ (f.report {}).suggestions := by
      rw [← hd]
      simp
    have hcause : f.cause = .unknownName "Shap" := (congrArg Diagnostic.cause hd).symm
    exact ⟨m, hm, (((hoffered m hm).2 f hf "Shape" htext).1 _ hcause).2⟩

end NameBinding
