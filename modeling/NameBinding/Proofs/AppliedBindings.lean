import NameBinding.Proofs.BoundTables
import NameBinding.Proofs.FreeBases

/-!
What applying bindings does, exactly. It fails for the names and the listed bases that are left
unbound, with an error for each, and gives the program back. Else every free name and every free
base with an entry is bound to it, in whatever order the entries are gone through, and nothing else
changes but the tree of scopes, if another one is given.
-/

namespace NameBinding

/-! ### What is left unbound -/

namespace Program

variable {p : Program} {b : Bindings} {r : BoundProgram}

/-- Whether an expression uses a name that is not bound. -/
def hasFreeName (p : Program) (e : ExprId) : Bool := (p.reference? e).any fun ref => !ref.isBound

/-- Whether the name of an expression is bound neither in the program nor by the bindings. -/
def leavesName (p : Program) (b : Bindings) (e : ExprId) : Bool :=
  p.hasFreeName e && !b.references.contains e

/-- Whether the base of a class is bound neither in the program nor by the bindings. -/
def leavesBase (p : Program) (b : Bindings) (s : SymbolId) : Bool :=
  p.hasFreeBase s && !b.baseClasses.contains s

/-- The line on which a class names its base. -/
def baseLine (p : Program) (s : SymbolId) : Line :=
  (((p.symbol? s).bind (·.baseClass?)).map (·.line)).getD {}

lemma unboundExpr?_eq (e : ExprId) : p.unboundExpr? b e =
    if p.leavesName b e then some (.unbound (Report.usedText p e) (p.exprLine e)) else none := by
  cases he : p.expr? e with
  | none => simp [unboundExpr?, leavesName, hasFreeName, reference?, he]
  | some x =>
    cases href : x.reference? with
    | none => simp [unboundExpr?, leavesName, hasFreeName, reference?, he, href]
    | some ref =>
      have hname : Report.usedText p e = p.text ref.name := by
        simp [Report.usedText, reference?, he, href]
      have hline : p.exprLine e = x.line := by simp [exprLine, he]
      rw [hname, hline]
      cases hb : ref.isBound <;> cases hc : b.references.contains e <;>
        simp [unboundExpr?, leavesName, hasFreeName, reference?, he, href, hb, hc]

lemma unboundBase?_eq (s : SymbolId) : p.unboundBase? b s =
    if p.leavesBase b s then some (.unbound (Report.baseText p s) (p.baseLine s)) else none := by
  cases hs : p.symbol? s with
  | none => simp [unboundBase?, leavesBase, hasFreeBase, hs]
  | some x =>
    cases hbase : x.baseClass? with
    | none => simp [unboundBase?, leavesBase, hasFreeBase, Symbol.hasFreeBase, hs, hbase]
    | some base =>
      have hname : Report.baseText p s = p.text base.reference.name := by
        simp [Report.baseText, hs, hbase]
      have hline : p.baseLine s = base.line := by simp [baseLine, hs, hbase]
      rw [hname, hline]
      cases hb : base.reference.isBound <;> cases hc : b.baseClasses.contains s <;>
        simp [unboundBase?, leavesBase, hasFreeBase, Symbol.hasFreeBase, hs, hbase, hb, hc]

/-- There is one error for each base and each name that is left, with its text and its line. -/
lemma unbound_eq : p.unbound b =
    ((p.classes.filter (p.leavesBase b)).map fun s =>
      .unbound (Report.baseText p s) (p.baseLine s)) ++
    (p.exprIds.filter (p.leavesName b)).map fun e =>
      .unbound (Report.usedText p e) (p.exprLine e) := by
  rw [unbound, ← List.filterMap_eq_map, ← List.filterMap_eq_map, List.filterMap_filter,
    List.filterMap_filter]
  congr 1
  · exact List.filterMap_congr fun s _ => unboundBase?_eq s
  · exact List.filterMap_congr fun e _ => unboundExpr?_eq e

lemma mem_exprIds_of_leavesName {e : ExprId} (h : p.leavesName b e = true) : e ∈ p.exprIds := by
  cases he : p.expr? e with
  | none => simp [leavesName, hasFreeName, reference?, he] at h
  | some x =>
    have hlt : e.index < p.exprs.size := (Array.getElem?_eq_some_iff.mp he).1
    exact List.mem_map.mpr ⟨e.index, List.mem_range.mpr hlt, rfl⟩

lemma unbound_ne_nil_iff : p.unbound b ≠ [] ↔
    (∃ e, p.leavesName b e = true) ∨ ∃ s ∈ p.classes, p.leavesBase b s = true := by
  simp only [unbound_eq, ne_eq, List.append_eq_nil_iff, List.map_eq_nil_iff,
    List.filter_eq_nil_iff, not_and_or, not_forall, not_not, exists_prop]
  rw [or_comm]
  refine or_congr ⟨fun ⟨e, _, he⟩ => ⟨e, he⟩, fun ⟨e, he⟩ => ?_⟩ Iff.rfl
  exact ⟨e, mem_exprIds_of_leavesName he, he⟩

lemma applyBindings_eq_error_iff {u : Unbound} :
    p.applyBindings b = .error u ↔ p.unbound b ≠ [] ∧ u = ⟨p, p.unbound b⟩ := by
  cases hu : p.unbound b with
  | nil => simp [applyBindings, hu]
  | cons e es => simp [applyBindings, hu, eq_comm]

end Program

/-! ### Entries one after the other -/

section Entries

variable {κ ν α : Type} [DecidableEq κ]

/-- The entries of a map in some order. -/
def OrderedMap.Lists (m : OrderedMap κ ν) (entries : List (κ × ν)) : Prop :=
  ∀ k v, (k, v) ∈ entries ↔ m.get? k = some v

lemma OrderedMap.Lists.lookup_eq {m : OrderedMap κ ν} {entries : List (κ × ν)}
    (h : m.Lists entries) (k : κ) : entries.lookup k = m.get? k := by
  have hmem : ∀ v, entries.lookup k = some v → m.get? k = some v := fun v hv =>
    (h k v).mp (OrderedMap.mem_entries_of_get? (m := ⟨entries⟩) hv)
  cases hk : entries.lookup k with
  | some v => exact (hmem v hk).symm
  | none =>
    symm
    refine Option.eq_none_iff_forall_ne_some.mpr fun v hv => ?_
    have hne := List.lookup_eq_none_iff.mp hk (k, v) ((h k v).mpr hv)
    simp at hne

lemma mem_iff_lookup_of_nodup {entries : List (κ × ν)} (h : (entries.map (·.1)).Nodup) (k : κ)
    (v : ν) : (k, v) ∈ entries ↔ entries.lookup k = some v := by
  induction entries with
  | nil => simp
  | cons entry entries ih =>
    obtain ⟨key, w⟩ := entry
    obtain ⟨hfresh, hrest⟩ := List.nodup_cons.mp h
    rw [OrderedMap.lookup_cons_ite, List.mem_cons, ih hrest]
    by_cases hk : k = key
    · subst hk
      have hother : entries.lookup k ≠ some v := fun hv =>
        hfresh (List.mem_map.mpr ⟨(k, v), (ih hrest).mpr hv, rfl⟩)
      simp [hother, eq_comm]
    · simp [hk]

/-- Where every key has one entry, the entries can be gone through in any order. -/
lemma OrderedMap.lists_of_perm {m : OrderedMap κ ν} (hm : m.keys.Nodup) {entries : List (κ × ν)}
    (h : entries.Perm m.entries) : m.Lists entries := by
  intro k v
  rw [h.mem_iff]
  exact mem_iff_lookup_of_nodup hm k v

/-- The table after entries have been written into it, one after the other. -/
def writeAll (index : κ → Nat) (write : α → ν → α) (entries : List (κ × ν)) (table : Array α) :
    Array α :=
  entries.foldl (fun table x => table.modify (index x.1) (write · x.2)) table

/-- Where what is written is final, the first entry for a place is the one that counts. -/
lemma getElem?_writeAll {index : κ → Nat} (hindex : Function.Injective index) {write : α → ν → α}
    (hfinal : ∀ x v w, write (write x v) w = write x v) (entries : List (κ × ν)) (table : Array α)
    (k : κ) : (writeAll index write entries table)[index k]? =
      table[index k]?.map fun x => ((entries.lookup k).map (write x)).getD x := by
  induction entries generalizing table with
  | nil => simp [writeAll]
  | cons entry entries ih =>
    obtain ⟨key, v⟩ := entry
    have hstep : writeAll index write ((key, v) :: entries) table =
        writeAll index write entries (table.modify (index key) (write · v)) := rfl
    rw [hstep, ih, Array.getElem?_modify, OrderedMap.lookup_cons_ite]
    by_cases hk : k = key
    · subst hk
      cases entries.lookup k <;> simp [Function.comp_def, hfinal]
    · have hne : ¬ index key = index k := fun heq => hk (hindex heq).symm
      simp [hk, hne]

end Entries

lemma Expr.bind_bind (x : Expr) (t u : SymbolId) : (x.bind t).bind u = x.bind t := by
  cases x with
  | ident ref line => cases ref <;> rfl
  | select object ref line => cases ref <;> rfl
  | _ => rfl

/-- A symbol with the base bound, if it is a class that has one. -/
def Symbol.bindBase (x : Symbol) (t : SymbolId) : Symbol := x.mapClass (·.bindBase t)

lemma Symbol.bindBase_bindBase (x : Symbol) (t u : SymbolId) :
    (x.bindBase t).bindBase u = x.bindBase t := by
  obtain ⟨name, line, kind⟩ := x
  cases kind with
  | classType c =>
    obtain ⟨origin, modifier, base, rest⟩ := c
    cases base with
    | none => rfl
    | some base => obtain ⟨ref, line⟩ := base; cases ref <;> rfl
  | _ => rfl

namespace Program

variable {p : Program} {b : Bindings} {r : BoundProgram}

/-- The tables do not depend on the order in which the entries of the bindings are written. -/
lemma bind_eq_writeAll {names : List (ExprId × SymbolId)} {bases : List (SymbolId × SymbolId)}
    (hnames : b.references.Lists names) (hbases : b.baseClasses.Lists bases) :
    p.bind b = { p with
      exprs := writeAll ExprId.index Expr.bind names p.exprs
      symbols := writeAll SymbolId.index Symbol.bindBase bases p.symbols
      scopes := b.scopes.getD p.scopes } := by
  have hexprs : (p.bind b).exprs = writeAll ExprId.index Expr.bind names p.exprs := by
    refine Array.ext_getElem? fun i => ?_
    have hwrite := getElem?_writeAll ExprId.index_injective Expr.bind_bind names p.exprs ⟨i⟩
    rw [hwrite, hnames.lookup_eq]
    exact expr?_bind ⟨i⟩
  have hsymbols : (p.bind b).symbols =
      writeAll SymbolId.index Symbol.bindBase bases p.symbols := by
    refine Array.ext_getElem? fun i => ?_
    have hwrite := getElem?_writeAll SymbolId.index_injective Symbol.bindBase_bindBase bases
      p.symbols ⟨i⟩
    rw [hwrite, hbases.lookup_eq]
    exact symbol?_bind ⟨i⟩
  rw [← hexprs, ← hsymbols]
  rfl

end Program

/-! ### What is bound -/

/-- Only a free name can be bound. -/
lemma Expr.bind_of_not_free {x : Expr} (h : (x.reference?.any fun ref => !ref.isBound) = false)
    (t : SymbolId) : x.bind t = x := by
  cases x with
  | ident ref line => cases ref with
    | free n => simp [reference?, Reference.isBound, Reference.target?] at h
    | bound n u => rfl
  | select object ref line => cases ref with
    | free n => simp [reference?, Reference.isBound, Reference.target?] at h
    | bound n u => rfl
  | _ => rfl

/-- Only a free base can be bound. -/
lemma Symbol.bindBase_of_not_free {x : Symbol} (h : x.hasFreeBase = false) (t : SymbolId) :
    x.bindBase t = x := by
  obtain ⟨name, line, kind⟩ := x
  cases kind with
  | classType c =>
    obtain ⟨origin, modifier, base, rest⟩ := c
    cases base with
    | none => rfl
    | some base =>
      obtain ⟨ref, line⟩ := base
      cases ref with
      | free n => simp [hasFreeBase, baseClass?, class?, Reference.isBound, Reference.target?] at h
      | bound n u => rfl
  | _ => rfl

/-- The result of bindings that leave nothing unbound. -/
structure Program.Applied (p : Program) (b : Bindings) (r : BoundProgram) : Prop where
  ident : ∀ e n line, p.expr? e = some (.ident (.free n) line) →
    ∃ t, b.references.get? e = some t ∧ r.program.expr? e = some (.ident (.bound n t) line)
  select : ∀ e object n line, p.expr? e = some (.select object (.free n) line) →
    ∃ t, b.references.get? e = some t ∧
      r.program.expr? e = some (.select object (.bound n t) line)
  /-- Other expressions stay as they are, with or without an entry. -/
  expr : ∀ e, p.hasFreeName e = false → r.program.expr? e = p.expr? e
  /-- A class need not be listed for its base to be bound. -/
  base : ∀ s name line c n baseLine t, p.symbol? s = some ⟨name, line, .classType c⟩ →
    c.baseClass = some ⟨.free n, baseLine⟩ → b.baseClasses.get? s = some t →
    r.program.symbol? s =
      some ⟨name, line, .classType { c with baseClass := some ⟨.bound n t, baseLine⟩ }⟩
  /-- Other symbols stay as they are, with or without an entry. -/
  symbol : ∀ s, p.hasFreeBase s = false ∨ b.baseClasses.get? s = none →
    r.program.symbol? s = p.symbol? s
  scopes : ∀ t, b.scopes = some t → r.program.scopes = t
  ownScopes : b.scopes = none → r.program.scopes = p.scopes
  names : r.program.names = p.names
  stmts : r.program.stmts = p.stmts
  classes : r.program.classes = p.classes
  enums : r.program.enums = p.enums
  methodScopes : r.methodScopes = b.methodScopes
  blockScopes : r.blockScopes = b.blockScopes
  clauseScopes : r.clauseScopes = b.clauseScopes

namespace Program

variable {p : Program} {b : Bindings} {r : BoundProgram}

lemma hasFreeName_of_free {e : ExprId} {x : Expr} {n : Name} (he : p.expr? e = some x)
    (hx : x.reference? = some (.free n)) : p.hasFreeName e = true := by
  rw [hasFreeName, reference?, he, Option.bind_some, hx]
  rfl

lemma exists_entry_of_unbound (h : p.unbound b = []) {e : ExprId} (he : p.hasFreeName e = true) :
    ∃ t, b.references.get? e = some t := by
  by_contra hnone
  have hcontains : b.references.contains e = false := by
    simpa [OrderedMap.contains, Option.eq_none_iff_forall_ne_some] using hnone
  exact unbound_ne_nil_iff.mpr (.inl ⟨e, by simp [leavesName, he, hcontains]⟩) h

lemma applied_of_unbound (h : p.unbound b = []) : p.Applied b (applied p b) where
  ident e n line he := by
    obtain ⟨t, ht⟩ := exists_entry_of_unbound h (hasFreeName_of_free he rfl)
    exact ⟨t, ht, by simp [applied, expr?_bind, he, ht, Expr.bind, Reference.bind]⟩
  select e object n line he := by
    obtain ⟨t, ht⟩ := exists_entry_of_unbound h (hasFreeName_of_free he rfl)
    exact ⟨t, ht, by simp [applied, expr?_bind, he, ht, Expr.bind, Reference.bind]⟩
  expr e hfree := by
    rw [applied, expr?_bind]
    cases he : p.expr? e with
    | none => rfl
    | some x =>
      have hx : (x.reference?.any fun ref => !ref.isBound) = false := by
        simpa [hasFreeName, reference?, he] using hfree
      cases b.references.get? e with
      | none => rfl
      | some t => exact congrArg some (Expr.bind_of_not_free hx t)
  base s name line c n baseLine t hs hbase ht := by
    simp [applied, symbol?_bind, hs, ht, Symbol.mapClass, ClassInfo.bindBase, hbase, Reference.bind]
  symbol s hfree := by
    rw [applied, symbol?_bind]
    cases hs : p.symbol? s with
    | none => rfl
    | some x =>
      cases hget : b.baseClasses.get? s with
      | none => rfl
      | some t =>
        have hx : x.hasFreeBase = false := by simpa [hasFreeBase, hs, hget] using hfree
        exact congrArg some (Symbol.bindBase_of_not_free hx t)
  scopes t ht := by simp [applied, bind, ht]
  ownScopes hnone := by simp [applied, bind, hnone]
  names := rfl
  stmts := rfl
  classes := rfl
  enums := rfl
  methodScopes := rfl
  blockScopes := rfl
  clauseScopes := rfl

end Program

/-- **Bindings are applied exactly.** They fail just when a name or the base of a listed class is
left unbound, and then the program is given back with an error for each such base, in the order of
the classes, and for each such name, in the order of the expressions. Else all free names, and all
free bases with an entry, are bound, and nothing else changes; the result is the same in whatever
order the entries are written. -/
theorem bindings_applied_exactly (p : Program) (b : Bindings) :
    ((∃ u, p.applyBindings b = .error u) ↔
      (∃ e, p.leavesName b e = true) ∨ ∃ s ∈ p.classes, p.leavesBase b s = true) ∧
    (∀ u, p.applyBindings b = .error u → u.program = p ∧
      u.errors =
        ((p.classes.filter (p.leavesBase b)).map fun s =>
          .unbound (Report.baseText p s) (p.baseLine s)) ++
        (p.exprIds.filter (p.leavesName b)).map fun e =>
          .unbound (Report.usedText p e) (p.exprLine e)) ∧
    ∀ r, p.applyBindings b = .ok r → p.Applied b r ∧
      ∀ names bases, b.references.Lists names → b.baseClasses.Lists bases →
        r.program = { p with
          exprs := writeAll ExprId.index Expr.bind names p.exprs
          symbols := writeAll SymbolId.index Symbol.bindBase bases p.symbols
          scopes := b.scopes.getD p.scopes } := by
  refine ⟨?_, fun u hu => ?_, fun r hr => ?_⟩
  · rw [← Program.unbound_ne_nil_iff]
    simp only [Program.applyBindings_eq_error_iff, exists_and_left, exists_eq, and_true]
  · obtain ⟨-, rfl⟩ := Program.applyBindings_eq_error_iff.mp hu
    exact ⟨rfl, Program.unbound_eq⟩
  · obtain ⟨hunbound, rfl⟩ := Program.applyBindings_eq_ok_iff.mp hr
    exact ⟨Program.applied_of_unbound hunbound, fun names bases hnames hbases =>
      Program.bind_eq_writeAll hnames hbases⟩

/-- Classes `D` and `E` derive from `Base`, but `D` is not listed. There are two names that are free,
one that is bound to `int`, and a literal. -/
def mixedSteps : List Operation :=
  derivedSteps false ++ [.declareClass "E" ⟨3⟩ { baseClass := some "Base" },
    .addExpr (.ident (.free ⟨8⟩) ⟨4⟩), .addExpr (.ident (.bound ⟨2⟩ ⟨2⟩) ⟨5⟩),
    .addExpr (.literal .null ⟨6⟩), .addExpr (.select ⟨0⟩ (.free ⟨9⟩) ⟨7⟩)]

def mixed : Program := (Program.new.build? mixedSteps).getD .new

/-- Entries for all expressions and all classes, needed or not. -/
def mixedBindings : Bindings where
  references := ⟨[(⟨0⟩, ⟨8⟩), (⟨1⟩, ⟨0⟩), (⟨2⟩, ⟨0⟩), (⟨3⟩, ⟨9⟩)]⟩
  baseClasses := ⟨[(⟨7⟩, ⟨9⟩), (⟨8⟩, ⟨7⟩), (⟨9⟩, ⟨7⟩)]⟩

theorem mixed_bindings_applied :
    Program.new.build? mixedSteps = some mixed ∧
    mixed.applyBindings {} =
      .error ⟨mixed, [.unbound "Base" ⟨3⟩, .unbound "D" ⟨4⟩, .unbound "E" ⟨7⟩]⟩ ∧
    ((∃ e, mixed.leavesName {} e = true) ∨ ∃ s ∈ mixed.classes, mixed.leavesBase {} s = true) ∧
    ∃ r, mixed.applyBindings mixedBindings = .ok r ∧ mixed.Applied mixedBindings r ∧
      r.program = { mixed with
        exprs := writeAll ExprId.index Expr.bind mixedBindings.references.entries.reverse
          mixed.exprs
        symbols := writeAll SymbolId.index Symbol.bindBase
          mixedBindings.baseClasses.entries.reverse mixed.symbols } := by
  have hsteps : Program.new.build? mixedSteps = some mixed := by decide
  have hfails : mixed.applyBindings {} =
      .error ⟨mixed, [.unbound "Base" ⟨3⟩, .unbound "D" ⟨4⟩, .unbound "E" ⟨7⟩]⟩ := by decide
  have happly : mixed.applyBindings mixedBindings = .ok (applied mixed mixedBindings) := by decide
  have hleft := (bindings_applied_exactly mixed {}).1.mp ⟨_, hfails⟩
  obtain ⟨-, -, hdone⟩ := bindings_applied_exactly mixed mixedBindings
  obtain ⟨hexact, horder⟩ := hdone _ happly
  refine ⟨hsteps, hfails, hleft, _, happly, hexact, ?_⟩
  exact horder _ _ (OrderedMap.lists_of_perm (by decide) (List.reverse_perm _))
    (OrderedMap.lists_of_perm (by decide) (List.reverse_perm _))

end NameBinding
