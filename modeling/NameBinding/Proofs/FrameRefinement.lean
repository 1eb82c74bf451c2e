import NameBinding.Proofs.BaseClasses
import NameBinding.Proofs.Frames
import NameBinding.Proofs.Reports

/-!
A tree of scopes that only grows and a list of frames that are dropped on the way out resolve names
alike. Both run the same script; from the scope at hand the tree looks like the list of frames, and
the journal tells the same events.
-/

namespace NameBinding

/-! ### Scripts on frames -/

namespace Script

variable {p : Program} {depth : Nat}

/-- Runs a script on a list of frames. -/
def onFrames (p : Program) : Script → FrameStack → FrameStack
  | skip, st => st
  | seq a b, st => b.onFrames p (a.onFrames p st)
  | meet _, st => st
  | bind e, st =>
    { st with events :=
        st.events ++ ((p.expr? e).map (FrameStack.nameEvents p st.frames e)).getD [] }
  | enter v, st => st.declare p v
  | within _ body, st => st.withFrame (body.onFrames p)

lemma onFrames_each {α : Type} (f : α → Script) (g : FrameStack → α → FrameStack) (xs : List α)
    (h : ∀ x st, (f x).onFrames p st = g st x) (st : FrameStack) :
    (each f xs).onFrames p st = xs.foldl g st := by
  induction xs generalizing st with
  | nil => rfl
  | cons x xs ih =>
    simp only [each, onFrames, List.foldl_cons]
    rw [h, ih]

/-- An expression leaves the frames as they are. -/
lemma onFrames_exprWithin (n : Nat) (e : ExprId) (st : FrameStack) :
    (exprWithin p n e).onFrames p st =
      { st with events := st.events ++ FrameStack.exprEvents p st.frames n e } := by
  have heach : ∀ (n : Nat) (_ : ∀ e st, (exprWithin p n e).onFrames p st =
      { st with events := st.events ++ FrameStack.exprEvents p st.frames n e }) (es : List ExprId)
      (st : FrameStack), (each (exprWithin p n) es).onFrames p st =
        { st with events := st.events ++ es.flatMap (FrameStack.exprEvents p st.frames n) } := by
    intro n h es
    induction es with
    | nil => simp [each, onFrames]
    | cons e es ih => simp [each, onFrames, h, ih]
  induction n generalizing e st with
  | zero => simp [exprWithin, onFrames, FrameStack.exprEvents]
  | succ n ih =>
    simp only [exprWithin, onFrames, heach n ih, FrameStack.exprEvents, Program.operands]
    cases p.expr? e <;> simp

/-- All depths that reach the bottom give the same events. -/
lemma onFrames_expr (hp : p.Allocated) (hd : p.exprs.size ≤ depth) (e : ExprId)
    (st : FrameStack) : (expr p e).onFrames p st =
      { st with events := st.events ++ FrameStack.exprEvents p st.frames depth e } := by
  by_cases he : e.index < depth
  · rw [← exprWithin_eq hp he, onFrames_exprWithin]
  · have hnone : p.expr? e = none := Array.getElem?_eq_none (by omega)
    have hevents : ∀ n, FrameStack.exprEvents p st.frames n e = [] := by
      intro n
      cases n <;> simp [FrameStack.exprEvents, hnone]
    rw [expr, onFrames_exprWithin, hevents, hevents]

lemma onFrames_exprs (hp : p.Allocated) (hd : p.exprs.size ≤ depth) (es : List ExprId)
    (st : FrameStack) : (exprs p es).onFrames p st = st.exprs p depth es := by
  induction es generalizing st with
  | nil => simp [exprs, each, onFrames, FrameStack.exprs]
  | cons e es ih =>
    have hcons : (exprs p (e :: es)).onFrames p st =
        (exprs p es).onFrames p ((expr p e).onFrames p st) := rfl
    rw [hcons, ih, onFrames_expr hp hd]
    simp [FrameStack.exprs]

lemma onFrames_localVar (hp : p.Allocated) (hd : p.exprs.size ≤ depth) (v : SymbolId)
    (st : FrameStack) : (localVar p v).onFrames p st = st.localVar p depth v := by
  simp only [localVar, value, onFrames, onFrames_exprs hp hd]
  rfl

section Statements

variable {f : StmtId → Script} {g : FrameStack → StmtId → FrameStack}

lemma onFrames_nested (h : ∀ s st, (f s).onFrames p st = g st s) (s : StmtId) (st : FrameStack) :
    (nested p f s).onFrames p st = FrameStack.nested p g st s := by
  unfold nested FrameStack.nested
  split
  · exact h s st
  · simp only [onFrames]
    congr 1
    exact funext (h s)

lemma onFrames_clauseBody (h : ∀ s st, (f s).onFrames p st = g st s) (s : StmtId)
    (c : SwitchClause) (body : List StmtId) (st : FrameStack) :
    (clauseBody f s c body).onFrames p st = st.withFrame fun st => body.foldl g st := by
  simp only [clauseBody, onFrames]
  congr 1
  exact funext (onFrames_each f g body h)

lemma onFrames_case (hp : p.Allocated) (hd : p.exprs.size ≤ depth)
    (h : ∀ s st, (f s).onFrames p st = g st s) (s : StmtId) (c : Case × Nat) (st : FrameStack) :
    (case p f s c).onFrames p st = FrameStack.case p depth g st c.1 := by
  simp only [case, onFrames, onFrames_exprs hp hd, onFrames_clauseBody h]
  rfl

lemma onFrames_stmtStep (hp : p.Allocated) (hd : p.exprs.size ≤ depth)
    (h : ∀ s st, (f s).onFrames p st = g st s) (s : StmtId) (x : Stmt) (st : FrameStack) :
    (stmtStep p f s x).onFrames p st = FrameStack.stmtStep p depth g st x := by
  have hexpr : ∀ e st, (expr p e).onFrames p st = FrameStack.exprs p depth st [e] := by
    intro e st
    rw [onFrames_expr hp hd]
    simp [FrameStack.exprs]
  cases x with
  | block b =>
    simp only [stmtStep, onFrames, FrameStack.stmtStep]
    congr 1
    exact funext (onFrames_each f g b.statements h)
  | branch cond onTrue onFalse line =>
    simp only [stmtStep, onFrames, hexpr]
    exact onFrames_each _ _ _ (onFrames_nested h) _
  | whileLoop cond body line =>
    simp only [stmtStep, onFrames, hexpr]
    exact onFrames_nested h body _
  | doWhile body cond line =>
    simp only [stmtStep, onFrames, hexpr, onFrames_nested h]
    rfl
  | forLoop init cond advance body line =>
    simp only [stmtStep, onFrames, FrameStack.stmtStep]
    congr 1
    funext st
    rw [onFrames_nested h, onFrames_exprs hp hd, onFrames_each f g init.toList h]
  | breakLoop line => rfl
  | continueLoop line => rfl
  | returnValue value line => exact onFrames_exprs hp hd _ st
  | throwMessage e line => exact hexpr e st
  | deleteTarget e line => exact hexpr e st
  | switch value cases defaultBody line =>
    simp only [stmtStep, onFrames, hexpr]
    have hcases : (each (case p f s) cases.zipIdx).onFrames p (st.exprs p depth [value]) =
        cases.foldl (FrameStack.case p depth g) (st.exprs p depth [value]) := by
      rw [onFrames_each _ (fun st c => FrameStack.case p depth g st c.1) _
        fun c st => onFrames_case hp hd h s c st]
      rw [← List.foldl_map (f := Prod.fst) (g := FrameStack.case p depth g), List.zipIdx_map_fst]
    rw [hcases]
    cases defaultBody with
    | none => rfl
    | some body => exact onFrames_clauseBody h s .default body _
  | expr e line => exact hexpr e st
  | var v line => exact onFrames_localVar hp hd v st

end Statements

lemma onFrames_stmtWithin (hp : p.Allocated) (hd : p.exprs.size ≤ depth) (n : Nat) (s : StmtId)
    (st : FrameStack) :
    (stmtWithin p n s).onFrames p st = FrameStack.stmtWithin p depth n st s := by
  induction n generalizing s st with
  | zero => rfl
  | succ n ih =>
    simp only [stmtWithin, FrameStack.stmtWithin]
    cases p.stmt? s with
    | none => rfl
    | some x => exact onFrames_stmtStep hp hd ih s x st

lemma onFrames_stmt (hp : p.Allocated) (hd : p.exprs.size ≤ depth) (hs : p.stmts.size ≤ depth)
    (s : StmtId) (st : FrameStack) : (stmt p s).onFrames p st = st.stmt p depth s := by
  unfold FrameStack.stmt
  rw [← onFrames_stmtWithin hp hd]
  by_cases hlt : s.index < depth
  · rw [stmtWithin_eq hp hlt]
  · have hnone : p.stmt? s = none := Array.getElem?_eq_none (by omega)
    rw [stmt_of_none hnone]
    cases depth <;> simp [stmtWithin, hnone]

end Script

/-! ### The tree seen as frames -/

/-- Whether a name was not found in scope, or was declared twice. -/
def Cause.isLexical : Cause → Bool
  | .unknownName _ | .build (.duplicate ..) => true
  | _ => false

def Fault.lexical? (f : Fault) : Option LexicalEvent :=
  if f.cause.isLexical then some (.failed f.cause f.line) else none

/-- What an entry tells of a name that is looked up or declared in a scope. -/
def Entry.lexical? : Entry → Option LexicalEvent
  | .name e (.lexical t) => some (.bound e t)
  | x => x.fault?.bind Fault.lexical?

namespace Pass

variable {p : Program} {st : Pass} {s : ScopeId}

def lexicalEvents (st : Pass) : List LexicalEvent := st.journal.toList.filterMap Entry.lexical?

/-- The pass as it looks from a scope. -/
def stackAt (st : Pass) (s : ScopeId) : FrameStack := ⟨st.scopes.frames s, st.lexicalEvents⟩

lemma lexicalEvents_note (st : Pass) (x : Entry) :
    (st.note x).lexicalEvents = st.lexicalEvents ++ x.lexical?.toList := by
  have hnote : (st.note x).journal.toList = st.journal.toList ++ [x] := Array.toList_push
  unfold lexicalEvents
  rw [hnote, List.filterMap_append]
  cases hx : x.lexical? <;> simp [hx]

lemma stackAt_settle (st : Pass) (s : ScopeId) (e : ExprId) (b : Binding) :
    (st.settle e b).stackAt s =
      ⟨st.scopes.frames s, st.lexicalEvents ++ (Entry.name e b).lexical?.toList⟩ := by
  have hevents : (st.settle e b).lexicalEvents = (st.note (.name e b)).lexicalEvents := by
    unfold lexicalEvents
    rw [journal_settle]
    rfl
  unfold stackAt
  rw [scopes_settle, hevents, lexicalEvents_note]

/-- What becomes of a member is no lexical event. -/
lemma lexical?_selected (st : Pass) (e object : ExprId) (r : Reference) (line : Line) :
    (Entry.name e (st.selected p object r line)).lexical? = none := by
  unfold selected
  split
  · rfl
  · split
    · rfl
    · rfl
    · split <;> rfl

lemma stackAt_bind (st : Pass) (s : ScopeId) (e : ExprId) :
    (st.bindOwn p s e).stackAt s = (Script.bind e).onFrames p (st.stackAt s) := by
  obtain ⟨r, line, he, h⟩ | ⟨object, r, line, he, h⟩ | ⟨he, h⟩ := bindOwn_cases p s st e
  · rw [h, stackAt_settle]
    simp only [Script.onFrames, he, Option.map_some, Option.getD_some, stackAt]
    cases r with
    | bound n t => rfl
    | free n =>
      simp only [lexical, FrameStack.nameEvents, ScopeTree.lookup_eq, Reference.isBound,
        Reference.target?, Reference.name, Option.isSome_none, Bool.false_eq_true, if_false]
      cases (st.scopes.frames s).findSome? (·.get? n) <;> rfl
  · rw [h, stackAt_settle, lexical?_selected]
    simp only [Script.onFrames, he, Option.map_some, Option.getD_some, stackAt]
    rfl
  · have hnil :
        ((p.expr? e).map (FrameStack.nameEvents p (st.stackAt s).frames e)).getD [] = [] := by
      cases hx : p.expr? e with
      | none => rfl
      | some x =>
        rw [Program.reference?, hx] at he
        cases x with
        | ident r line => simp [Expr.reference?] at he
        | _ => rfl
    simp only [h, Script.onFrames, hnil, List.append_nil]

lemma stackAt_declare (hroot : st.scopes.Rooted) (hs : s.index < st.scopes.size) (v : SymbolId) :
    (st.declare p s v).stackAt s = (st.stackAt s).declare p v ∧
      ScopeTree.GrowsAt s st.scopes (st.declare p s v).scopes := by
  obtain ⟨sc, hsc⟩ := ScopeTree.scope?_of_lt hs
  have htop : st.scopes.frames s = st.scopes.frame s :: (st.scopes.frames s).tail :=
    (ScopeTree.GrowsAt.refl hroot).frames hroot hs
  obtain ⟨hv, h⟩ | ⟨sym, hv, ⟨t, ht, h⟩ | ⟨w, hw, h⟩⟩ := declare_cases p s st v
  · rw [h]
    refine ⟨?_, .refl hroot⟩
    simp only [FrameStack.declare, hv]
  · have hgrow := ScopeTree.GrowsAt.add hroot ht
    have hnone : (st.scopes.frame s).get? sym.name = none := by
      rw [← ScopeTree.declared?_eq]
      cases hd : st.scopes.declared? s sym.name with
      | none => rfl
      | some w =>
        rw [ScopeTree.add_eq_error_iff.mpr hd] at ht
        simp at ht
    rw [h]
    refine ⟨?_, hgrow⟩
    have hframes := hgrow.frames hroot hs
    rw [ScopeTree.frame_add ht hs] at hframes
    simp only [stackAt, FrameStack.declare, hv]
    rw [hframes, htop]
    simp only [hnone, List.tail_cons]
    rfl
  · rw [ScopeTree.declared?_eq] at hw
    rw [h]
    refine ⟨?_, .refl hroot⟩
    have hevents := lexicalEvents_note st
      (.fault ⟨.build (p.duplicate sym.name sym.line w), sym.line, []⟩)
    simp only [stackAt, FrameStack.declare, hv, hevents]
    have hscopes :
        (st.note (.fault ⟨.build (p.duplicate sym.name sym.line w), sym.line, []⟩)).scopes =
      st.scopes := rfl
    rw [hscopes, htop]
    simp only [hw]
    rfl

/-- **Simulation**. From the scope in which a script is run, the pass looks as if the script had
been run on the frames that are in reach; and no scope further out has changed. -/
theorem stackAt_run (c : Script) (hroot : st.scopes.Rooted) (hs : s.index < st.scopes.size) :
    (c.run p s st).stackAt s = c.onFrames p (st.stackAt s) ∧
      ScopeTree.GrowsAt s st.scopes (c.run p s st).scopes := by
  induction c generalizing st s with
  | skip => exact ⟨rfl, .refl hroot⟩
  | seq a b iha ihb =>
    obtain ⟨ha, hga⟩ := iha hroot hs
    obtain ⟨hb, hgb⟩ := ihb hga.rooted (hs.trans_le hga.size)
    exact ⟨by rw [Script.run, hb, ha]; rfl, hga.trans hgb⟩
  | meet e =>
    have hevents : (st.note (.expr e)).lexicalEvents = st.lexicalEvents := by
      rw [lexicalEvents_note]
      exact List.append_nil _
    refine ⟨?_, .refl hroot⟩
    simp only [Script.run, Script.onFrames, stackAt, hevents]
    rfl
  | bind e =>
    refine ⟨stackAt_bind st s e, ?_⟩
    obtain ⟨r, l, -, h⟩ | ⟨o, r, l, -, h⟩ | ⟨-, h⟩ := bindOwn_cases p s st e <;>
      simp only [Script.run, h, scopes_settle] <;> exact .refl hroot
  | enter v => exact stackAt_declare hroot hs v
  | within key body ih =>
    have hopened : (st.openFor s key).scopes = (st.scopes.addChild s key.kind).2 :=
      scopes_openFor st s key
    have hlt : st.scopes.size < (st.openFor s key).scopes.size := by
      rw [hopened, ScopeTree.size_addChild]
      omega
    have hinner := ih (s := ⟨st.scopes.size⟩) (hopened ▸ hroot.addChild hs key.kind) hlt
    obtain ⟨hstack, hgrow⟩ := hinner
    rw [hopened] at hgrow
    obtain ⟨hgrows, hframes⟩ := hgrow.close hroot hs
    have hbefore : (st.openFor s key).stackAt ⟨st.scopes.size⟩ =
        ⟨.empty :: st.scopes.frames s, st.lexicalEvents⟩ := by
      simp only [stackAt, lexicalEvents, hopened, ScopeTree.frames_addChild hroot hs,
        journal_openFor]
    rw [hbefore] at hstack
    refine ⟨?_, by simpa only [Script.run, scopes_closeFor] using hgrows⟩
    have hevents := congrArg FrameStack.events hstack
    simp only [Script.run, Script.onFrames, FrameStack.withFrame, stackAt, lexicalEvents,
      scopes_closeFor, journal_closeFor, hframes] at hevents ⊢
    rw [hevents]

end Pass

end NameBinding
