import NameBinding.Proofs.TypeTables

/-!
Operations that are refused. An operation has an answer and leads to a program; if the answer is an
error, the program is the one before, the names included: whatever a scope declares was interned, so
a text that is found taken is not a new one. The conditions under which an operation is refused are
stated apart from the operations.
-/

namespace NameBinding

/-- What a type holds: a class constants, fields and methods, an enum constants. -/
def SymbolKind.holds (owner member : SymbolKind) : Bool :=
  owner.isClass && member.isMember || owner.isEnum && member.isConst

namespace Program

open SymbolKind (isConst isField isMethod isClass isEnum isMember)

variable {p : Program}

/-- What an operation answers: an error, or the symbol that it made if it made one. -/
def answer (p : Program) : Operation → Except BuildError (Option SymbolId)
  | .intern _ | .addExpr _ | .addStmt _ => .ok none
  | .addVar text line value => .ok (some (p.addVar text line value).1)
  | .declare scope x => (p.declare scope x).1.map some
  | .declareClass text line head => (p.declareClass text line head).1.map some
  | .declareEnum text line head => (p.declareEnum text line head).1.map some
  | .declareMember owner x => (p.declareMember owner x).1.map some
  | .defineConstructor s line c => (p.defineConstructor s line c).1.map some
  | .defineDestructor s body => (p.defineDestructor s body).1.map fun _ => none

/-- The scope in which an operation declares a name. -/
def entersAt? (p : Program) : Operation → Option (ScopeId × Name)
  | .declare scope x => some (scope, x.name)
  | .declareClass text _ _ | .declareEnum text _ _ =>
    some (ScopeTree.global, (p.intern text).1)
  | .declareMember owner x => ((p.symbol? owner).bind Symbol.scope?).map fun s => (s, x.name)
  | _ => none

/-- The scope itself declares the name, as the symbol `kept`. -/
def Taken (p : Program) (scope : ScopeId) (n : Name) (kept : Symbol) : Prop :=
  ∃ v, p.scopes.declared? scope n = some v ∧ p.symbol? v = some kept

/-- The operations that are refused, each with its error. -/
inductive Refuses (p : Program) : Operation → BuildError → Prop
  | declare {scope : ScopeId} {x kept : Symbol} : p.Taken scope x.name kept →
      Refuses p (.declare scope x) (.duplicate (p.text x.name) x.line kept.line)
  | declareClass {text : String} {line : Line} {head : ClassHead} {n : Name} {kept : Symbol} :
      p.names.find? text = some n → p.Taken ScopeTree.global n kept →
      Refuses p (.declareClass text line head) (.duplicate text line kept.line)
  | declareEnum {text : String} {line : Line} {head : EnumHead} {n : Name} {kept : Symbol} :
      p.names.find? text = some n → p.Taken ScopeTree.global n kept →
      Refuses p (.declareEnum text line head) (.duplicate text line kept.line)
  | noType {owner : SymbolId} {o x : Symbol} : p.symbol? owner = some o →
      o.kind.isClass = false → o.kind.isEnum = false →
      Refuses p (.declareMember owner x) (.notAType (p.text o.name) o.kind.display o.line)
  | misplaced {owner : SymbolId} {o x : Symbol} : p.symbol? owner = some o →
      (o.kind.isClass || o.kind.isEnum) = true → o.kind.holds x.kind = false →
      Refuses p (.declareMember owner x)
        (.misplacedMember (p.text o.name) o.kind.display x.kind.display x.line)
  | member {owner : SymbolId} {o x kept : Symbol} {scope : ScopeId} : p.symbol? owner = some o →
      o.scope? = some scope → o.kind.holds x.kind = true → p.Taken scope x.name kept →
      Refuses p (.declareMember owner x) (.duplicate (p.text x.name) x.line kept.line)
  | constructorOfOther {s : SymbolId} {o : Symbol} {line : Line} {c : Callable} :
      p.symbol? s = some o → o.kind.isClass = false →
      Refuses p (.defineConstructor s line c) (.notAType (p.text o.name) o.kind.display o.line)
  | secondConstructor {s : SymbolId} {o : Symbol} {cls : ClassInfo} {line : Line} {c : Callable} :
      p.symbol? s = some o → o.kind = .classType cls → cls.constructor.isSome = true →
      Refuses p (.defineConstructor s line c) (.secondConstructor (p.text o.name) line)
  | destructorOfOther {s : SymbolId} {o : Symbol} {body : Block} :
      p.symbol? s = some o → o.kind.isClass = false →
      Refuses p (.defineDestructor s body) (.notAType (p.text o.name) o.kind.display o.line)
  | secondDestructor {s : SymbolId} {o : Symbol} {cls : ClassInfo} {body : Block} :
      p.symbol? s = some o → o.kind = .classType cls → cls.destructor.isSome = true →
      Refuses p (.defineDestructor s body) (.secondDestructor (p.text o.name) body.line)

/-! ### Names that are taken -/

lemma accepts_eq_holds (o k : SymbolKind) : accepts o k = o.holds k := by
  cases o <;> cases k <;> rfl

/-- What a scope declares is a symbol with an interned name. -/
lemma Allocated.declared (hp : p.Allocated) {scope : ScopeId} {n : Name} {v : SymbolId}
    (h : p.scopes.declared? scope n = some v) :
    n.key < p.names.size ∧ ∃ kept, p.symbol? v = some kept := by
  obtain ⟨hname, hlt⟩ := ScopeTree.within_of_declared? hp.scopes h
  exact ⟨hname, _, Array.getElem?_eq_getElem hlt⟩

lemma duplicate_of_symbol? {n : Name} {line : Line} {v : SymbolId} {kept : Symbol}
    (h : p.symbol? v = some kept) :
    p.duplicate n line v = .duplicate (p.text n) line kept.line := by
  simp only [duplicate, symbolLine, h, Option.map_some, Option.getD_some]

lemma notAType_of_symbol? {s : SymbolId} {o : Symbol} (h : p.symbol? s = some o) :
    p.notAType s = .notAType (p.text o.name) o.kind.display o.line := by
  simp only [notAType, symbolText, symbolLine, h, Option.map_some, Option.getD_some]

lemma intern_of_find? {text : String} {n : Name} (h : p.names.find? text = some n) :
    p.intern text = (n, p) := by
  simp only [intern, NameTable.intern, h]

/-- A text that gets an old name was interned before. -/
lemma find?_of_key_lt {text : String} (h : (p.intern text).1.key < p.names.size) :
    p.names.find? text = some (p.intern text).1 := by
  cases hf : p.names.find? text with
  | some n => rw [intern_of_find? hf]
  | none =>
    have hkey : (p.intern text).1.key = p.names.size := by
      simp only [intern, NameTable.intern, hf]
      rfl
    omega

lemma text_of_find? {text : String} {n : Name} (h : p.names.find? text = some n) :
    p.text n = text := by
  rw [Program.text, NameTable.text?_of_find? h, Option.getD_some]

/-- A type whose name is declared at the top has a text that was interned before. -/
lemma Allocated.find?_of_declared (hp : p.Allocated) {text : String} {v : SymbolId}
    (h : p.scopes.declared? ScopeTree.global (p.intern text).1 = some v) :
    p.names.find? text = some (p.intern text).1 :=
  find?_of_key_lt (hp.declared h).1

/-! ### Operations one by one -/

section

variable {text : String} {line : Line} {n : Name} {v : SymbolId}

lemma declareClass_of_taken (head : ClassHead) (hn : p.names.find? text = some n)
    (hv : p.scopes.declared? ScopeTree.global n = some v) :
    p.declareClass text line head = (.error (p.duplicate n line v), p) := by
  simp only [declareClass, intern_of_find? hn, hv]

lemma declareEnum_of_taken (head : EnumHead) (hn : p.names.find? text = some n)
    (hv : p.scopes.declared? ScopeTree.global n = some v) :
    p.declareEnum text line head = (.error (p.duplicate n line v), p) := by
  simp only [declareEnum, intern_of_find? hn, hv]

/-- A class with a free name is declared at the top. -/
lemma declareClass_of_free (line : Line) (head : ClassHead)
    (hlt : ScopeTree.global.index < p.scopes.size)
    (hfree : p.scopes.declared? ScopeTree.global (p.intern text).1 = none) :
    (p.declareClass text line head).1 = .ok ⟨p.symbols.size⟩ ∧
      (p.declareClass text line head).2.scopes.declared? ScopeTree.global (p.intern text).1 =
        some ⟨p.symbols.size⟩ := by
  have hfree' : (p.intern text).2.scopes.declared? ScopeTree.global (p.intern text).1 = none :=
    hfree
  have hentered := fun (r : Program) (hr : r.scopes = p.scopes) (base : Option BaseClass) =>
    (global_declareType (p := r) (n := (p.intern text).1) line
      (fun scope => .classType (newClass head base scope)) (hr ▸ hlt) (hr ▸ hfree)).2
  unfold declareClass
  simp only [hfree']
  cases head.baseClass with
  | none => exact ⟨rfl, hentered (p.intern text).2 rfl none⟩
  | some base => exact ⟨rfl, hentered ((p.intern text).2.intern base).2 rfl _⟩

lemma declareEnum_of_free (line : Line) (head : EnumHead)
    (hlt : ScopeTree.global.index < p.scopes.size)
    (hfree : p.scopes.declared? ScopeTree.global (p.intern text).1 = none) :
    (p.declareEnum text line head).1 = .ok ⟨p.symbols.size⟩ ∧
      (p.declareEnum text line head).2.scopes.declared? ScopeTree.global (p.intern text).1 =
        some ⟨p.symbols.size⟩ := by
  have hfree' : (p.intern text).2.scopes.declared? ScopeTree.global (p.intern text).1 = none :=
    hfree
  have hentered := (global_declareType (p := (p.intern text).2) line
    (fun scope => .enumType ⟨head.origin, head.isFlags, scope⟩) hlt hfree').2
  unfold declareEnum
  simp only [hfree']
  exact ⟨rfl, hentered⟩

end

/-- What is declared in a scope that has the name free is found there. -/
lemma declared?_declare {scope : ScopeId} {x : Symbol} (hlt : scope.index < p.scopes.size)
    (hfree : p.scopes.declared? scope x.name = none) :
    (p.declare scope x).2.scopes.declared? scope x.name = some ⟨p.symbols.size⟩ := by
  obtain ⟨t, ht⟩ := ScopeTree.exists_add ⟨p.symbols.size⟩ hfree
  have hadd : (p.addSymbol x).2.scopes.add scope x.name ⟨p.symbols.size⟩ = .ok t := ht
  rw [declare_of_none hfree]
  simp only [enter, hadd]
  exact (ScopeTree.declared?_add ht hlt _ _).trans (if_pos ⟨rfl, rfl⟩)

lemma declareMember_of_none {owner : SymbolId} {o : Symbol} (ho : p.symbol? owner = some o)
    (hs : o.scope? = none) (x : Symbol) :
    p.declareMember owner x = (.error (p.notAType owner), p) := by
  simp only [declareMember, ho, hs]

section

variable {owner : SymbolId} {o x : Symbol} {scope : ScopeId} (ho : p.symbol? owner = some o)
  (hs : o.scope? = some scope)
include ho hs

lemma declareMember_of_misplaced (hx : o.kind.holds x.kind = false) :
    p.declareMember owner x = (.error (.misplacedMember (p.text o.name) o.kind.display
      x.kind.display x.line), p) := by
  rw [← accepts_eq_holds] at hx
  simp [declareMember, ho, hs, hx, symbolText]

lemma declareMember_of_taken (hx : o.kind.holds x.kind = true) {v : SymbolId}
    (hv : p.scopes.declared? scope x.name = some v) :
    p.declareMember owner x = (.error (p.duplicate x.name x.line v), p) := by
  rw [← accepts_eq_holds] at hx
  simp only [declareMember, ho, hs, hx, declare_of_some hv, if_true]

lemma declareMember_of_free (hx : o.kind.holds x.kind = true)
    (hfree : p.scopes.declared? scope x.name = none) :
    p.declareMember owner x = (.ok ⟨p.symbols.size⟩,
      (p.declare scope x).2.modifyClass owner (listMember x.kind ⟨p.symbols.size⟩)) := by
  rw [← accepts_eq_holds] at hx
  simp only [declareMember, ho, hs, hx, declare_of_none hfree, if_true]

end

/-! ### Refusals -/

/-- Classes and enums are the symbols that have a scope for their members. -/
lemma scope?_isSome (x : Symbol) : x.scope?.isSome = (x.kind.isClass || x.kind.isEnum) := by
  obtain ⟨n, l, k⟩ := x
  cases k <;> rfl

lemma class?_eq_none_iff {x : Symbol} : x.class? = none ↔ x.kind.isClass = false := by
  obtain ⟨n, l, k⟩ := x
  cases k <;> simp [Symbol.class?, isClass]

lemma class?_eq_some_iff {x : Symbol} {c : ClassInfo} :
    x.class? = some c ↔ x.kind = .classType c := by
  obtain ⟨n, l, k⟩ := x
  cases k <;> simp [Symbol.class?]

/-- A refused operation answers with the error and leaves the program as it was. -/
lemma Refuses.answer {op : Operation} {e : BuildError} (h : p.Refuses op e) :
    p.answer op = .error e ∧ p.perform op = p := by
  unfold Program.answer Program.perform
  cases h with
  | declare htaken =>
    obtain ⟨v, hv, hkept⟩ := htaken
    simp only [declare_of_some hv, duplicate_of_symbol? hkept]
    exact ⟨rfl, trivial⟩
  | declareClass hn htaken =>
    obtain ⟨v, hv, hkept⟩ := htaken
    simp only [declareClass_of_taken _ hn hv, duplicate_of_symbol? hkept, text_of_find? hn]
    exact ⟨rfl, trivial⟩
  | declareEnum hn htaken =>
    obtain ⟨v, hv, hkept⟩ := htaken
    simp only [declareEnum_of_taken _ hn hv, duplicate_of_symbol? hkept, text_of_find? hn]
    exact ⟨rfl, trivial⟩
  | noType ho hclass henum =>
    have hs := scope?_eq_none_iff.mpr ⟨hclass, henum⟩
    simp only [declareMember_of_none ho hs, notAType_of_symbol? ho]
    exact ⟨rfl, trivial⟩
  | @misplaced _ o _ ho htype hx =>
    rw [← scope?_isSome] at htype
    obtain ⟨scope, hs⟩ := Option.isSome_iff_exists.mp htype
    simp only [declareMember_of_misplaced ho hs hx]
    exact ⟨rfl, trivial⟩
  | member ho hs hx htaken =>
    obtain ⟨v, hv, hkept⟩ := htaken
    simp only [declareMember_of_taken ho hs hx hv, duplicate_of_symbol? hkept]
    exact ⟨rfl, trivial⟩
  | constructorOfOther ho hclass =>
    simp only [defineConstructor, ho, class?_eq_none_iff.mpr hclass, notAType_of_symbol? ho]
    exact ⟨rfl, trivial⟩
  | @secondConstructor _ o cls _ _ ho hkind hsome =>
    have hcls := class?_eq_some_iff.mpr hkind
    simp only [defineConstructor, ho, hcls, hsome, if_true, symbolText, Option.map_some,
      Option.getD_some]
    exact ⟨rfl, trivial⟩
  | destructorOfOther ho hclass =>
    simp only [defineDestructor, Program.class?, ho, Option.bind_some,
      class?_eq_none_iff.mpr hclass, notAType_of_symbol? ho]
    exact ⟨rfl, trivial⟩
  | @secondDestructor _ o cls _ ho hkind hsome =>
    have hcls := class?_eq_some_iff.mpr hkind
    simp only [defineDestructor, Program.class?, ho, Option.bind_some, hcls, hsome, if_true,
      symbolText, Option.map_some, Option.getD_some]
    exact ⟨rfl, trivial⟩

/-- The operation is accepted: what it declares is a new symbol, found in its scope. -/
def Accepts (p : Program) (op : Operation) : Prop :=
  ∃ made, p.answer op = .ok made ∧ ∀ scope n, p.entersAt? op = some (scope, n) →
    made = some ⟨p.symbols.size⟩ ∧ (p.perform op).scopes.declared? scope n = made

lemma WellFormed.refuses_or_accepts_member (hp : p.WellFormed) {owner : SymbolId} {x : Symbol}
    (howner : owner.index < p.symbols.size) :
    (∃ e, p.Refuses (.declareMember owner x) e) ∨ p.Accepts (.declareMember owner x) := by
  obtain ⟨o, ho⟩ : ∃ o, p.symbol? owner = some o := ⟨_, Array.getElem?_eq_getElem howner⟩
  cases hs : o.scope? with
  | none =>
    obtain ⟨hclass, henum⟩ := scope?_eq_none_iff.mp hs
    exact .inl ⟨_, .noType ho hclass henum⟩
  | some scope =>
    cases hx : o.kind.holds x.kind with
    | false => exact .inl ⟨_, .misplaced ho (by rw [← scope?_isSome, hs]; rfl) hx⟩
    | true =>
      cases hd : p.scopes.declared? scope x.name with
      | some v =>
        obtain ⟨-, kept, hkept⟩ := hp.allocated.declared hd
        exact .inl ⟨_, .member ho hs hx ⟨v, hd, hkept⟩⟩
      | none =>
        have hlt : scope.index < p.scopes.size :=
          (hp.allocated.symbols owner o ho).2.2.2.2.1 scope (by simp [hs])
        have hfree := declareMember_of_free ho hs hx hd
        refine .inr ⟨some ⟨p.symbols.size⟩, ?_, fun scope' n hentry => ⟨rfl, ?_⟩⟩
        · simp only [Program.answer, hfree]
          rfl
        · obtain ⟨rfl, rfl⟩ : scope = scope' ∧ x.name = n := by
            simpa [entersAt?, ho, hs] using hentry
          simp only [Program.perform, hfree]
          exact declared?_declare hlt hd

lemma WellFormed.refuses_or_accepts (hp : p.WellFormed) {op : Operation}
    (hop : op.Within p.extent) : (∃ e, p.Refuses op e) ∨ p.Accepts op := by
  have hglobal : ScopeTree.global.index < p.scopes.size := by
    obtain ⟨sc, hsc, -⟩ := hp.listed.root
    exact ScopeTree.lt_of_scope? hsc
  cases op with
  | intern text => exact .inr ⟨none, rfl, by simp [entersAt?]⟩
  | addExpr e => exact .inr ⟨none, rfl, by simp [entersAt?]⟩
  | addStmt s => exact .inr ⟨none, rfl, by simp [entersAt?]⟩
  | addVar text line value => exact .inr ⟨_, rfl, by simp [entersAt?]⟩
  | declare scope x =>
    cases hd : p.scopes.declared? scope x.name with
    | some v =>
      obtain ⟨-, kept, hkept⟩ := hp.allocated.declared hd
      exact .inl ⟨_, .declare ⟨v, hd, hkept⟩⟩
    | none =>
      refine .inr ⟨some ⟨p.symbols.size⟩, ?_, fun scope' n hentry => ⟨rfl, ?_⟩⟩
      · simp only [Program.answer, declare_of_none hd]
        rfl
      · obtain ⟨rfl, rfl⟩ : scope = scope' ∧ x.name = n := by simpa [entersAt?] using hentry
        exact declared?_declare hop.1 hd
  | declareClass text line head =>
    cases hd : p.scopes.declared? ScopeTree.global (p.intern text).1 with
    | some v =>
      obtain ⟨-, kept, hkept⟩ := hp.allocated.declared hd
      exact .inl ⟨_, .declareClass (hp.allocated.find?_of_declared hd) ⟨v, hd, hkept⟩⟩
    | none =>
      obtain ⟨hanswer, hentered⟩ := declareClass_of_free line head hglobal hd
      refine .inr ⟨some ⟨p.symbols.size⟩, ?_, fun scope n hentry => ⟨rfl, ?_⟩⟩
      · simp only [Program.answer, hanswer]
        rfl
      · obtain ⟨rfl, rfl⟩ : ScopeTree.global = scope ∧ (p.intern text).1 = n := by
          simpa [entersAt?] using hentry
        exact hentered
  | declareEnum text line head =>
    cases hd : p.scopes.declared? ScopeTree.global (p.intern text).1 with
    | some v =>
      obtain ⟨-, kept, hkept⟩ := hp.allocated.declared hd
      exact .inl ⟨_, .declareEnum (hp.allocated.find?_of_declared hd) ⟨v, hd, hkept⟩⟩
    | none =>
      obtain ⟨hanswer, hentered⟩ := declareEnum_of_free line head hglobal hd
      refine .inr ⟨some ⟨p.symbols.size⟩, ?_, fun scope n hentry => ⟨rfl, ?_⟩⟩
      · simp only [Program.answer, hanswer]
        rfl
      · obtain ⟨rfl, rfl⟩ : ScopeTree.global = scope ∧ (p.intern text).1 = n := by
          simpa [entersAt?] using hentry
        exact hentered
  | declareMember owner x => exact hp.refuses_or_accepts_member hop.1
  | defineConstructor s line c =>
    obtain ⟨o, ho⟩ : ∃ o, p.symbol? s = some o := ⟨_, Array.getElem?_eq_getElem hop.1⟩
    cases hcls : o.class? with
    | none => exact .inl ⟨_, .constructorOfOther ho (class?_eq_none_iff.mp hcls)⟩
    | some cls =>
      have hkind := class?_eq_some_iff.mp hcls
      by_cases hsome : cls.constructor.isSome = true
      · exact .inl ⟨_, .secondConstructor ho hkind hsome⟩
      · refine .inr ⟨some ⟨p.symbols.size⟩, ?_, by simp [entersAt?]⟩
        simp only [Program.answer, Program.defineConstructor, ho, hcls, if_neg hsome]
        rfl
  | defineDestructor s body =>
    obtain ⟨o, ho⟩ : ∃ o, p.symbol? s = some o := ⟨_, Array.getElem?_eq_getElem hop.1⟩
    cases hcls : o.class? with
    | none => exact .inl ⟨_, .destructorOfOther ho (class?_eq_none_iff.mp hcls)⟩
    | some cls =>
      have hkind := class?_eq_some_iff.mp hcls
      by_cases hsome : cls.destructor.isSome = true
      · exact .inl ⟨_, .secondDestructor ho hkind hsome⟩
      · refine .inr ⟨none, ?_, by simp [entersAt?]⟩
        simp only [Program.answer, Program.defineDestructor, Program.class?, ho, Option.bind_some,
          hcls, if_neg hsome]
        rfl

end Program

/-- **Refusals are exact and leave no trace.** Let an operation on a built program name allocated
nodes only. It answers an error exactly when it is to be refused, and with that error; the program
is then the one before in all its tables. Else what it declares is a new symbol, and the scope that
it goes into declares it under its name. -/
theorem refused_exactly_without_trace {p : Program} (hp : p.Built) {op : Operation}
    (hop : op.Within p.extent) :
    (∀ e, p.answer op = .error e ↔ p.Refuses op e) ∧
    (∀ e, p.answer op = .error e → p.perform op = p) ∧
    ∀ made, p.answer op = .ok made → ∀ scope n, p.entersAt? op = some (scope, n) →
      made = some ⟨p.symbols.size⟩ ∧ (p.perform op).scopes.declared? scope n = made := by
  obtain ⟨e, hrefused⟩ | ⟨made, hmade, hentered⟩ := hp.wellFormed.refuses_or_accepts hop
  · obtain ⟨hanswer, hsame⟩ := hrefused.answer
    refine ⟨fun e' => ⟨fun h => ?_, fun h => h.answer.1⟩, fun _ _ => hsame, fun made h => ?_⟩
    · obtain rfl : e = e' := by simpa [hanswer] using h
      exact hrefused
    · simp [hanswer] at h
  · refine ⟨fun e => ⟨fun h => ?_, fun h => h.answer.1⟩, fun e h => ?_, fun made' h => ?_⟩
    · simp [hmade] at h
    · simp [hmade] at h
    · obtain rfl : made = made' := by simpa [hmade] using h
      exact hentered

/-- Class `A` has a field `x`, a constructor and a destructor; enum `E` is empty. -/
def furnishedSteps : List Operation :=
  [.declareClass "A" ⟨1⟩ {}, .declareEnum "E" ⟨2⟩ {}, .intern "x",
    .addExpr (.ident (.free ⟨2⟩) ⟨3⟩), .declareMember ⟨7⟩ ⟨⟨9⟩, ⟨3⟩, .field ⟨.pub, ⟨⟨0⟩, none⟩⟩⟩,
    .defineConstructor ⟨7⟩ ⟨4⟩ ⟨.pub, none⟩, .defineDestructor ⟨7⟩ ⟨[], ⟨5⟩⟩]

def furnished : Program := (Program.new.build? furnishedSteps).getD .new

/-- Operations on `furnished`, one for each way of being refused. -/
def furnishedRefusals : List (Operation × BuildError) :=
  [(.declare ⟨1⟩ ⟨⟨9⟩, ⟨6⟩, .var ⟨⟨0⟩, none⟩⟩, .duplicate "x" ⟨6⟩ ⟨3⟩),
    (.declareClass "E" ⟨6⟩ { baseClass := some "Fresh" }, .duplicate "E" ⟨6⟩ ⟨2⟩),
    (.declareEnum "int" ⟨6⟩ {}, .duplicate "int" ⟨6⟩ {}),
    (.declareMember ⟨2⟩ ⟨⟨9⟩, ⟨6⟩, .const ⟨.pub, ⟨⟨0⟩, none⟩⟩⟩, .notAType "int" "builtin type" {}),
    (.declareMember ⟨8⟩ ⟨⟨9⟩, ⟨6⟩, .field ⟨.pub, ⟨⟨0⟩, none⟩⟩⟩,
      .misplacedMember "E" "enum" "field" ⟨6⟩),
    (.declareMember ⟨7⟩ ⟨⟨9⟩, ⟨6⟩, .const ⟨.pub, ⟨⟨0⟩, none⟩⟩⟩, .duplicate "x" ⟨6⟩ ⟨3⟩),
    (.defineConstructor ⟨8⟩ ⟨6⟩ ⟨.pub, none⟩, .notAType "E" "enum" ⟨2⟩),
    (.defineConstructor ⟨7⟩ ⟨6⟩ ⟨.pub, none⟩, .secondConstructor "A" ⟨6⟩),
    (.defineDestructor ⟨9⟩ ⟨[], ⟨6⟩⟩, .notAType "x" "field" ⟨3⟩),
    (.defineDestructor ⟨7⟩ ⟨[], ⟨6⟩⟩, .secondDestructor "A" ⟨6⟩)]

theorem furnished_refusals : Program.new.build? furnishedSteps = some furnished ∧
    (∀ x ∈ furnishedRefusals, x.1.Within furnished.extent ∧ furnished.answer x.1 = .error x.2 ∧
      furnished.Refuses x.1 x.2 ∧ furnished.perform x.1 = furnished) ∧
    (furnished.perform (.declare ScopeTree.global ⟨⟨9⟩, ⟨6⟩, .var ⟨⟨0⟩, none⟩⟩)).scopes.declared?
      ScopeTree.global ⟨9⟩ = some ⟨furnished.symbols.size⟩ := by
  have hbuild : Program.new.build? furnishedSteps = some furnished := by decide
  have hbuilt := Program.Built.new.build? hbuild
  have hwithin : ∀ x ∈ furnishedRefusals, x.1.Within furnished.extent := by decide
  have hanswer : ∀ x ∈ furnishedRefusals, furnished.answer x.1 = .error x.2 := by decide
  refine ⟨hbuild, fun x hx => ?_, ?_⟩
  · obtain ⟨hexact, hsame, -⟩ := refused_exactly_without_trace hbuilt (hwithin x hx)
    exact ⟨hwithin x hx, hanswer x hx, (hexact _).mp (hanswer x hx), hsame _ (hanswer x hx)⟩
  · have hop : (Operation.declare ScopeTree.global ⟨⟨9⟩, ⟨6⟩, .var ⟨⟨0⟩, none⟩⟩).Within
        furnished.extent := by decide
    obtain ⟨-, -, hentered⟩ := refused_exactly_without_trace hbuilt hop
    exact (hentered (some ⟨furnished.symbols.size⟩) (by decide) _ _ rfl).2

end NameBinding
