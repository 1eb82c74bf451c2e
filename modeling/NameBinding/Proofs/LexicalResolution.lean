import NameBinding.Proofs.FrameRefinement
import NameBinding.Proofs.WellFormed.Operations

/-!
Names in scopes are resolved as frames say. Over the whole pass the names bound in scopes, the names
not found there and the names declared twice are those of the resolution with frames, in the same
order.
-/

namespace NameBinding

namespace FrameStack

variable {p : Program} {depth : Nat}

/-- What a script finds among the members of a type. -/
def runType (p : Program) (events : List LexicalEvent) (x : ScopeId × Script) : List LexicalEvent :=
  (x.2.onFrames p (atType p events x.1)).events

lemma onFrames_value (hp : p.Allocated) (he : p.exprs.size ≤ depth) (v : SymbolId)
    (st : FrameStack) : (Script.value p v).onFrames p st = value p depth st v :=
  Script.onFrames_exprs hp he _ st

lemma classType_eq (hp : p.Allocated) (he : p.exprs.size ≤ depth) (hs : p.stmts.size ≤ depth)
    (events : List LexicalEvent) {s : SymbolId} {c : ClassInfo} (hc : p.class? s = some c) :
    classType p depth events s = runType p events (c.scope, Script.classType p s c) := by
  have hvalue := onFrames_value hp he
  have hbody : ∀ (key : SymbolId) (body : List StmtId) st,
      (Script.plainBody p key body).onFrames p st =
      st.withFrame fun st => body.foldl (stmt p depth) st := by
    intro key body st
    simp only [Script.plainBody, Script.onFrames]
    congr 1
    exact funext (Script.onFrames_each _ _ body (Script.onFrames_stmt hp he hs))
  have hconstructor : ∀ v st,
      (Script.constructor p v).onFrames p st = constructor p depth st v := by
    intro v st
    unfold Script.constructor constructor
    cases (p.symbol? v).bind (·.constructor?) with
    | none => rfl
    | some m => exact hbody v _ st
  have hmethod : ∀ v st, (Script.method p v).onFrames p st = method p depth st v := by
    intro v st
    unfold Script.method method
    cases (p.symbol? v).bind (·.method?) with
    | none => rfl
    | some m =>
      simp only [Script.onFrames, Script.onFrames_exprs hp he]
      congr 1
      funext st
      rw [Script.onFrames_each _ _ _ (Script.onFrames_stmt hp he hs),
        Script.onFrames_each _ _ _ (Script.onFrames_localVar hp he)]
  simp only [classType, hc, runType, Script.classType, Script.onFrames]
  rw [Script.onFrames_each _ _ _ hvalue, Script.onFrames_each _ _ _ hconstructor,
    Script.onFrames_each _ (destructor p depth) _ fun b st => hbody s b.statements st,
    Script.onFrames_each _ _ _ hmethod]

lemma enumType_eq (hp : p.Allocated) (he : p.exprs.size ≤ depth) (events : List LexicalEvent)
    {s : SymbolId} {t : EnumInfo} (ht : p.enum? s = some t) :
    enumType p depth events s = runType p events (t.scope, Script.enumType p t) := by
  have ht' : (p.symbol? s).bind (·.enum?) = some t := ht
  simp only [enumType, ht', runType, Script.enumType]
  rw [Script.onFrames_each _ _ _ (onFrames_value hp he)]

/-- Resolution with frames runs the scripts of the program. -/
lemma run_eq (hp : p.Allocated) (he : p.exprs.size ≤ depth) (hs : p.stmts.size ≤ depth) :
    run p depth = p.scripts.foldl (runType p) [] := by
  unfold run Program.scripts
  rw [List.foldl_append, Script.foldl_filterMap_eq (g := enumType p depth),
    Script.foldl_filterMap_eq (g := classType p depth)]
  · intro s events hc
    simp only [classType, Option.map_eq_none_iff.mp hc]
  · intro s x events hmap
    obtain ⟨c, hc, rfl⟩ := Option.map_eq_some_iff.mp hmap
    exact (classType_eq hp he hs events hc).symm
  · intro s events ht
    have ht' : (p.symbol? s).bind (·.enum?) = none := Option.map_eq_none_iff.mp ht
    simp only [enumType, ht']
  · intro s x events hmap
    obtain ⟨t, ht, rfl⟩ := Option.map_eq_some_iff.mp hmap
    exact (enumType_eq hp he events ht).symm

end FrameStack

namespace Pass

variable {p : Program}

/-- From the scope of a type one sees its members and the global names. -/
lemma frames_type (hp : p.WellFormed) {t : ScopeTree} (hroot : t.Rooted)
    (hsame : ∀ r : ScopeId, r.index < p.scopes.size → t.scope? r = p.scopes.scope? r)
    {x : ScopeId × Script} (hx : x ∈ p.scripts) :
    t.frames x.1 = [p.scopes.frame x.1, p.scopes.frame ScopeTree.global] := by
  obtain ⟨sc, hsc, hpar⟩ := Option.bind_eq_some_iff.mp (hp.listed.parent_of_mem_scripts hx)
  obtain ⟨g, hg, hgpar⟩ := hp.listed.root
  have hsc' := (hsame x.1 (ScopeTree.lt_of_scope? hsc)).trans hsc
  have hg' := (hsame _ (ScopeTree.lt_of_scope? hg)).trans hg
  rw [ScopeTree.frames_eq hroot hsc', hpar, Option.map_some, Option.getD_some,
    ScopeTree.frames_eq hroot hg', hgpar]
  simp [ScopeTree.frame, hsc, hg]

/-- The scripts of types tell the events that they tell on frames. -/
lemma lexicalEvents_runAll (hp : p.WellFormed) (scripts : List (ScopeId × Script))
    (hscripts : ∀ x ∈ scripts, x ∈ p.scripts) {st : Pass} (hroot : st.scopes.Rooted)
    (hsize : p.scopes.size ≤ st.scopes.size)
    (hsame : ∀ r : ScopeId, r.index < p.scopes.size → st.scopes.scope? r = p.scopes.scope? r) :
    (Script.runAll p scripts st).lexicalEvents =
      scripts.foldl (FrameStack.runType p) st.lexicalEvents := by
  induction scripts generalizing st with
  | nil => rfl
  | cons x xs ih =>
    have hx := hscripts x (by simp)
    have hlt := hp.listed.lt_of_mem_scripts hx
    have hsteps := x.2.run_steps (p := p) hsize (hlt.trans_le hsize)
      (.inr (Script.entered_of_mem_scripts hx))
    obtain ⟨hstack, hgrows⟩ := stackAt_run (p := p) x.2 hroot (hlt.trans_le hsize)
    have hhead : (x.2.run p x.1 st).lexicalEvents = FrameStack.runType p st.lexicalEvents x := by
      have hview : st.stackAt x.1 = FrameStack.atType p st.lexicalEvents x.1 := by
        unfold stackAt FrameStack.atType
        rw [frames_type hp hroot hsame hx]
      rw [hview] at hstack
      exact congrArg FrameStack.events hstack
    rw [Script.runAll_cons, List.foldl_cons, ← hhead]
    refine ih (fun y hy => hscripts y (by simp [hy])) hgrows.rooted (hsize.trans hgrows.size) ?_
    intro r hr
    rw [hsteps.scope?_of_lt hsize hr, hsame r hr]

lemma lexicalEvents_start (p : Program) : (start p).lexicalEvents = [] := by
  refine List.filterMap_eq_nil_iff.mpr fun x hx => ?_
  have h := (onlyBases_start p).journal x hx
  cases x with
  | name e b => exact h.elim
  | fault f =>
    obtain ⟨cause, line, names⟩ := f
    cases cause with
    | unknownBase => rfl
    | baseNotAClass => rfl
    | cyclicInheritance => rfl
    | _ => exact h.elim
  | _ => rfl

/-- **The pass tells the events of resolution with frames**, one by one and in the same order. -/
theorem lexicalEvents_finish (hp : p.WellFormed) {depth : Nat} (he : p.exprs.size ≤ depth)
    (hs : p.stmts.size ≤ depth) : (finish p).lexicalEvents = FrameStack.run p depth := by
  rw [FrameStack.run_eq hp.allocated he hs, finish, ← lexicalEvents_start p]
  refine lexicalEvents_runAll hp _ (fun _ hx => hx) ?_ (by simp) (by simp)
  rw [scopes_start]
  exact hp.allocated.rooted

end Pass

/-! ### Bindings and errors -/

/-- The error of a name not found in scope or declared twice, with its line. -/
def Diagnostic.lexical? (d : Diagnostic) : Option (Cause × Line) :=
  if d.cause.isLexical then some (d.cause, d.line) else none

variable {p : Program}

/-- An error is lexical if the event of its entry is an error. -/
lemma Entry.report_lexical? (o : Options) (x : Entry) :
    ((x.fault?.map (Fault.report o)).bind Diagnostic.lexical?) =
      x.lexical?.bind LexicalEvent.error? := by
  have hfault : ∀ f : Fault, (f.report o).lexical? = f.lexical?.bind LexicalEvent.error? := by
    intro f
    by_cases h : f.cause.isLexical <;>
      simp [Diagnostic.lexical?, Fault.report, Fault.lexical?, LexicalEvent.error?, h]
  cases x with
  | fault f => exact hfault f
  | name e b =>
    cases b with
    | failed f => exact hfault f
    | _ => rfl
  | _ => rfl

/-- Switches give no lexical errors, nor does the end of a pass. -/
lemma lexical?_of_mem_switchEntries {x : Entry} (hx : x ∈ Report.switchEntries p) :
    x.lexical? = none := by
  rcases List.mem_cons.mp hx with rfl | hx
  · rfl
  · obtain ⟨f, hf, rfl⟩ := List.mem_map.mp hx
    have h := Program.ofSwitch_of_mem hf
    obtain ⟨cause, line, names⟩ := f
    cases cause with
    | jumpOutsideCase => rfl
    | jumpWithoutDefault => rfl
    | fallFromLastCase => rfl
    | _ => exact h.elim

lemma lexical?_entries (o : Options) :
    (Report.entries p o (Pass.run p)).filterMap Entry.lexical? = (Pass.finish p).lexicalEvents := by
  have hjournal : (Pass.run p).journal.toList.filterMap Entry.lexical? =
      (Pass.finish p).lexicalEvents := by
    change (Pass.run p).lexicalEvents = _
    rw [Pass.run_eq, Pass.lexicalEvents_note]
    exact List.append_nil _
  unfold Report.entries
  rw [List.filterMap_append, hjournal]
  have hswitches : (if o.validateSwitches then Report.switchEntries p else []).filterMap
      Entry.lexical? = [] := by
    split
    · exact List.filterMap_eq_nil_iff.mpr fun x hx => lexical?_of_mem_switchEntries hx
    · rfl
  rw [hswitches, List.append_nil]

/-- For a plain name, what the journal has last is what the events have last. -/
lemma lastTarget?_lexicalEvents {st : Pass} (hfits : ∀ x ∈ st.journal.toList, x.Fits p) {e : ExprId}
    {r : Reference} {line : Line} (he : p.expr? e = some (.ident r line)) :
    LexicalEvent.lastTarget? st.lexicalEvents e =
      (st.journal.toList.filterMap (Entry.target? e)).getLast? := by
  unfold LexicalEvent.lastTarget? Pass.lexicalEvents
  rw [List.filterMap_filterMap]
  congr 1
  refine List.filterMap_congr fun x hx => ?_
  have hfault : ∀ f : Fault, f.lexical?.bind (LexicalEvent.target? e) = none := by
    intro f
    unfold Fault.lexical?
    split <;> rfl
  cases x with
  | fault f => exact hfault f
  | name e' b =>
    cases b with
    | lexical t => rfl
    | failed f =>
      simp only [Entry.target?, Binding.target?, ite_self]
      exact hfault f
    | member o t =>
      -- a member is never the binding of a plain name
      have hne : ¬ e' = e := by
        rintro rfl
        rcases hfits _ hx with ⟨_, _, -, h⟩ | ⟨_, _, _, h, -⟩
        · exact h o t rfl
        · simp [he] at h
      simp only [Entry.target?, if_neg hne]
      rfl
    | _ =>
      simp only [Entry.target?, Binding.target?, ite_self]
      rfl
  | _ => rfl

/-- **Resolution in a tree of scopes is resolution with frames**. For every program that can be
built, the plain names are bound as a resolution with frames binds them, and the names not found in
scope and the names declared twice are reported in the same order, with the same lines. -/
theorem lexical_resolution_refines_frames (hp : p.Built) {o : Options} (ho : o.maxErrors = 0)
    (depth : Nat) (he : p.exprs.size ≤ depth) (hs : p.stmts.size ≤ depth) :
    (∀ e r line, p.expr? e = some (.ident r line) → (p.bindings o).1.references.get? e =
      LexicalEvent.lastTarget? (FrameStack.run p depth) e) ∧
    (p.bindings o).2.filterMap Diagnostic.lexical? =
      (FrameStack.run p depth).filterMap LexicalEvent.error? := by
  have hwf := hp.wellFormed
  have hevents := Pass.lexicalEvents_finish hwf he hs
  refine ⟨fun e r line hident => ?_, ?_⟩
  · have hreferences : (p.bindings o).1.references = (Pass.finish p).bindings.references := by
      simp only [Program.bindings, Pass.run_eq]
      rfl
    rw [hreferences, Pass.recorded_finish hwf.listed e,
      ← lastTarget?_lexicalEvents (Pass.fits_finish hwf.listed) hident, hevents]
  · have herrors : (p.bindings o).2 = (Report.of p o (Pass.run p)).errors := rfl
    rw [herrors, Report.errors_of_unlimited ho, List.filterMap_filterMap]
    calc (Report.entries p o (Pass.run p)).filterMap
          (fun x => (x.fault?.map (Fault.report o)).bind Diagnostic.lexical?)
        = (Report.entries p o (Pass.run p)).filterMap
            (fun x => x.lexical?.bind LexicalEvent.error?) :=
          List.filterMap_congr fun x _ => Entry.report_lexical? o x
      _ = ((Report.entries p o (Pass.run p)).filterMap Entry.lexical?).filterMap
            LexicalEvent.error? := List.filterMap_filterMap.symm
      _ = (FrameStack.run p depth).filterMap LexicalEvent.error? := by
          rw [lexical?_entries, hevents]

open Operation in
/-- A class with a field `x` and a method that declares the local `x` twice by one variable, and
that returns a local of a branch after the branch. -/
def shadowingSteps : List Operation :=
  let int : Expr := .ident (.free ⟨2⟩) {}
  let x : Expr := .ident (.free ⟨8⟩) ⟨3⟩
  [declareClass "C" ⟨1⟩ {}, intern "x", intern "m",
    addExpr int, declareMember ⟨7⟩ ⟨⟨8⟩, ⟨2⟩, .field ⟨.pub, ⟨⟨0⟩, none⟩⟩⟩,
    addExpr int, addVar "a" ⟨3⟩ ⟨⟨1⟩, none⟩,
    -- the initializer of the local sees the field first, and the local itself the second time
    addExpr int, addExpr x, addVar "x" ⟨4⟩ ⟨⟨2⟩, some ⟨3⟩⟩, addStmt (.var ⟨10⟩ ⟨4⟩),
    addExpr x, addExpr int, addVar "y" ⟨5⟩ ⟨⟨5⟩, none⟩, addStmt (.var ⟨11⟩ ⟨5⟩),
    addStmt (.branch ⟨4⟩ ⟨1⟩ none ⟨5⟩),
    addExpr (.ident (.free ⟨11⟩) ⟨6⟩), addStmt (.returnValue (some ⟨6⟩) ⟨6⟩),
    addStmt (.var ⟨10⟩ ⟨7⟩), addStmt (.block ⟨[⟨0⟩, ⟨2⟩, ⟨3⟩, ⟨4⟩], ⟨4⟩⟩),
    declareMember ⟨7⟩ ⟨⟨9⟩, ⟨3⟩, .method ⟨⟨.pub, some ⟨5⟩⟩, none, .normal, false, [⟨9⟩]⟩⟩]

def shadowing : Program := (Program.new.build? shadowingSteps).getD .new

theorem shadowing_refines_frames :
    shadowing.Built ∧
    (shadowing.bindings { maxErrors := 0 }).1.references.get? ⟨3⟩ =
      LexicalEvent.lastTarget? (FrameStack.run shadowing 7) ⟨3⟩ ∧
    LexicalEvent.lastTarget? (FrameStack.run shadowing 7) ⟨3⟩ = some ⟨10⟩ ∧
    (shadowing.bindings { maxErrors := 0 }).2.filterMap Diagnostic.lexical? =
      (FrameStack.run shadowing 7).filterMap LexicalEvent.error? ∧
    (FrameStack.run shadowing 7).filterMap LexicalEvent.error? =
      [(.unknownName "y", ⟨6⟩), (.build (.duplicate "x" ⟨4⟩ ⟨4⟩), ⟨4⟩)] := by
  have hsteps : Program.new.build? shadowingSteps = some shadowing := by decide
  have hbuilt : shadowing.Built := Program.Built.new.build? hsteps
  have h := lexical_resolution_refines_frames (o := { maxErrors := 0 }) hbuilt rfl 7 (by decide)
    (by decide)
  exact ⟨hbuilt, h.1 ⟨3⟩ (.free ⟨8⟩) ⟨3⟩ (by decide), by decide, h.2, by decide⟩

end NameBinding
