import NameBinding.Proofs.Printing
import NameBinding.Proofs.SwitchRules

/-!
Indentation in the outline. An outline at some depth is the outline at the top, indented; a program
has the outlines of its classes and enums one after the other. What is nested in a block, a branch,
the body of a loop or a clause of a switch follows the line that opens it, and is further in.
-/

namespace NameBinding

/-! ### Constructs -/

/-- A part of a statement that other statements are nested in. -/
structure Construct where
  /-- The line that opens it, in the outline of the statement. -/
  opening : OutlineLine
  body : List StmtId

namespace Construct

open OutlineLine

/-- Blocks, branches, bodies of loops, and the clauses of a switch. -/
def ofStmt (p : Program) : Stmt → List Construct
  | .block b => [⟨node 0 "block" b.line, b.statements⟩]
  | .branch cond onTrue onFalse l => ⟨node 0 ("if " ++ p.exprText cond) l, [onTrue]⟩ ::
    onFalse.toList.map fun s => ⟨⟨0, "else"⟩, [s]⟩
  | .whileLoop cond body l => [⟨node 0 ("while " ++ p.exprText cond) l, [body]⟩]
  | .doWhile body _ l => [⟨node 0 "do" l, [body]⟩]
  | .forLoop init cond advance body l => [⟨node 0 (p.forText init cond advance) l, [body]⟩]
  | .switch _ cases defaultBody _ =>
    cases.map (fun c => ⟨node 1 (p.caseText c) c.line, c.body⟩) ++
      defaultBody.toList.map fun body => ⟨⟨1, "default"⟩, body⟩
  | _ => []

/-- The opening line, and the statements one level below. -/
def pieces (c : Construct) : List Piece :=
  ⟨c.opening.depth, .text c.opening.text⟩ ::
    c.body.map fun s => ⟨c.opening.depth + 1, .stmt s⟩

variable {p : Program} {c : Construct}

/-- The statements of a construct come right after the line that opens it. -/
lemma exists_ofStmt_eq {x : Stmt} (hc : c ∈ ofStmt p x) :
    ∃ before after, Piece.ofStmt p x = before ++ (c.pieces ++ after) := by
  cases x with
  | block b =>
    obtain rfl := List.mem_singleton.mp hc
    exact ⟨[], [], by simp [Piece.ofStmt, Piece.nested, Piece.line, Piece.label, Piece.stmt, pieces,
      node]⟩
  | branch cond onTrue onFalse l =>
    rcases List.mem_cons.mp hc with rfl | hc
    · exact ⟨[], _, rfl⟩
    · obtain ⟨s, hs, rfl⟩ := List.mem_map.mp hc
      obtain rfl : onFalse = some s := Option.mem_toList.mp hs
      exact ⟨.line ("if " ++ p.exprText cond) l :: Piece.nested [.stmt onTrue], [], rfl⟩
  | whileLoop cond body l =>
    obtain rfl := List.mem_singleton.mp hc
    exact ⟨[], [], rfl⟩
  | doWhile body cond l =>
    obtain rfl := List.mem_singleton.mp hc
    exact ⟨[], _, rfl⟩
  | forLoop init cond advance body l =>
    obtain rfl := List.mem_singleton.mp hc
    exact ⟨[], [], rfl⟩
  | switch value cases defaultBody l =>
    rcases List.mem_append.mp hc with hc | hc
    · -- the clauses before this one, and what follows its body
      obtain ⟨k, hk, rfl⟩ := List.mem_map.mp hc
      obtain ⟨first, rest, rfl⟩ := List.append_of_mem hk
      refine ⟨.line ("switch " ++ p.exprText value) l ::
          Piece.nested (first.flatMap (Piece.ofCase p)),
        Piece.nested (Piece.nested (k.fallthrough.toList.map fun e =>
          .label ("fallthrough " ++ p.exprText e)) ++ (rest.flatMap (Piece.ofCase p) ++
            defaultBody.toList.flatMap fun body =>
              .label "default" :: Piece.nested (body.map .stmt))), ?_⟩
      simp [Piece.ofStmt, Piece.ofCase, Piece.nested, Piece.line, Piece.label, Piece.stmt, pieces,
        node]
    · obtain ⟨body, hbody, rfl⟩ := List.mem_map.mp hc
      obtain rfl : defaultBody = some body := Option.mem_toList.mp hbody
      refine ⟨.line ("switch " ++ p.exprText value) l ::
        Piece.nested (cases.flatMap (Piece.ofCase p)), [], ?_⟩
      simp [Piece.ofStmt, Piece.nested, Piece.line, Piece.label, Piece.stmt, pieces]
  | _ => simp [ofStmt] at hc

/-- The opening line begins with a word. -/
lemma head?_opening {x : Stmt} (hc : c ∈ ofStmt p x) :
    c.opening.text.toList.head? ≠ some ' ' := by
  cases x with
  | block | whileLoop | doWhile =>
    obtain rfl := List.mem_singleton.mp hc
    simp [node]
  | forLoop =>
    obtain rfl := List.mem_singleton.mp hc
    simp [node, Program.forText]
  | branch cond onTrue onFalse l =>
    rcases List.mem_cons.mp hc with rfl | hc
    · simp [node]
    · obtain ⟨s, -, rfl⟩ := List.mem_map.mp hc
      simp
  | switch value cases defaultBody l =>
    rcases List.mem_append.mp hc with hc | hc
    · obtain ⟨k, -, rfl⟩ := List.mem_map.mp hc
      simp [node, Program.caseText]
    · obtain ⟨body, -, rfl⟩ := List.mem_map.mp hc
      simp
  | _ => simp [ofStmt] at hc

/-- Where the outline of a statement has those of the statements nested in it. -/
lemma exists_stmtLines_eq {s : StmtId} {x : Stmt} (hx : p.stmt? s = some x) (hc : c ∈ ofStmt p x)
    {fuel depth : Nat} {ls : List OutlineLine} (h : p.stmtLines fuel depth s = some ls) :
    ∃ before nested after, ls = before ++ c.opening.deeper depth :: (nested ++ after) ∧
      gather (p.stmtLines fuel (depth + c.opening.depth + 1)) c.body = some nested := by
  cases fuel with
  | zero => simp [Program.stmtLines] at h
  | succ fuel =>
    obtain ⟨before, after, hlayout⟩ := exists_ofStmt_eq hc
    rw [Program.stmtLines_succ, Program.layout, hx, Option.map_some, Option.getD_some, hlayout,
      Program.layoutLines, Piece.lines_append, Piece.lines_append] at h
    have hpieces : Piece.lines (p.symbolLines fuel) (p.stmtLines fuel) depth c.pieces =
        (gather (p.stmtLines fuel (depth + c.opening.depth + 1)) c.body).map
          (c.opening.deeper depth :: ·) := by
      rw [Piece.lines, pieces, gather_cons, gather_map]
      rfl
    rw [hpieces] at h
    obtain ⟨first, -, h⟩ := Option.bind_eq_some_iff.mp h
    obtain ⟨rest, hrest, rfl⟩ := Option.map_eq_some_iff.mp h
    obtain ⟨here, hhere, hrest⟩ := Option.bind_eq_some_iff.mp hrest
    obtain ⟨nested, hnested, rfl⟩ := Option.map_eq_some_iff.mp hhere
    obtain ⟨last, -, rfl⟩ := Option.map_eq_some_iff.mp hrest
    -- the statements end within one level less, and so within all the levels
    have hmore : gather (p.stmtLines (fuel + 1) (depth + c.opening.depth + 1)) c.body =
        some nested :=
      gather_mono (fun t _ _ => p.itemLines_succ_of_some (.stmt t)) hnested
    exact ⟨first, nested, last, rfl, hmore⟩

end Construct

/-! ### Indentation -/

namespace OutlineLine

/-- The number of spaces at the start of the line. -/
def indentation (l : OutlineLine) : Nat := (l.render.toList.takeWhile (· = ' ')).length

lemma indentation_eq_add (l : OutlineLine) :
    l.indentation = 2 * l.depth + ((l.text.toList ++ ['\n']).takeWhile (· = ' ')).length := by
  rw [indentation, toList_render, List.takeWhile_append_of_pos (by simp), List.length_append,
    List.length_replicate]

lemma indentation_eq {l : OutlineLine} (h : l.text.toList.head? ≠ some ' ') :
    l.indentation = 2 * l.depth := by
  rw [indentation_eq_add]
  cases htext : l.text.toList with
  | nil => simp
  | cons c cs =>
    have hc : c ≠ ' ' := fun heq => h (by rw [htext, heq]; rfl)
    simp [hc]

end OutlineLine

namespace Program

variable {p : Program}

lemma le_depth_of_mem_itemLines {fuel depth : Nat} (item : Item) {ls : List OutlineLine}
    (h : p.itemLines fuel depth item = some ls) {l : OutlineLine} (hl : l ∈ ls) :
    depth ≤ l.depth := by
  have hshift := p.itemLines_add fuel item depth 0
  rw [Nat.add_zero, h] at hshift
  obtain ⟨top, -, rfl⟩ := Option.map_eq_some_iff.mp hshift.symm
  obtain ⟨l', -, rfl⟩ := List.mem_map.mp hl
  exact Nat.le_add_right _ _

/-- Everything nested in a construct is further in than the line that opens it. -/
lemma indentation_lt_of_nested {x : Stmt} {c : Construct} (hc : c ∈ Construct.ofStmt p x)
    {fuel depth : Nat} {nested : List OutlineLine}
    (h : gather (p.stmtLines fuel (depth + c.opening.depth + 1)) c.body = some nested) :
    ∀ l ∈ nested, (c.opening.deeper depth).indentation < l.indentation := by
  intro l hl
  obtain ⟨t, -, ls, hls, hl⟩ := exists_of_mem_gather h hl
  have hle := le_depth_of_mem_itemLines (.stmt t) hls hl
  have hopening : (c.opening.deeper depth).indentation = 2 * (depth + c.opening.depth) :=
    OutlineLine.indentation_eq (Construct.head?_opening hc)
  rw [hopening, OutlineLine.indentation_eq_add]
  omega

/-! ### Outlines -/

/-- At any depth, the printer writes the outline of a statement, indented. -/
lemma NamesOnOneLine.stmt_eq (hp : p.NamesOnOneLine) {s : StmtId} {fuel : Nat}
    {ls : List OutlineLine} (h : p.stmtLines fuel 0 s = some ls) (out : String) (depth : Nat) :
    Printer.stmt p fuel s ⟨out, depth⟩ =
      some ⟨out ++ indent depth (OutlineLine.renderAll ls), depth⟩ := by
  have hlines : p.stmtLines fuel depth s = some (ls.map (OutlineLine.deeper depth)) := by
    have hshift := p.itemLines_add fuel (.stmt s) depth 0
    rwa [itemLines, Item.lines, Item.lines, h] at hshift
  have hone : ∀ l ∈ ls, '\n' ∉ l.text.toList :=
    not_mem_text_of_itemLines (fun item => hp.layout item) (.stmt s) h (by simp)
  rw [((Printer.prints_nodes fuel).2 s).run, layoutLines, Piece.lines_stmt, hlines,
    OutlineLine.indent_renderAll hone]
  rfl

lemma AcyclicFrom.stmtLines_isSome {s : StmtId} (h : p.AcyclicFrom (.stmt s)) (depth : Nat) :
    (p.stmtLines p.depth depth s).isSome :=
  (lines_isSome p.depth).2 s ⟨none, .plain, h.visit_depth_isSome⟩ depth

lemma map_renderAll_gather {α : Type} (f : α → Option (List OutlineLine)) (xs : List α) :
    (gather f xs).map OutlineLine.renderAll =
      (xs.mapM fun x => (f x).map OutlineLine.renderAll).map String.join := by
  induction xs with
  | nil => rfl
  | cons x xs ih =>
    rw [gather_cons, List.mapM_cons]
    cases f x with
    | none => rfl
    | some ls =>
      have hcons : (gather f xs).map (fun ms => OutlineLine.renderAll (ls ++ ms)) =
          ((gather f xs).map OutlineLine.renderAll).map (OutlineLine.renderAll ls ++ ·) := by
        simp only [Option.map_map, Function.comp_def, OutlineLine.renderAll_append]
      rw [Option.bind_some, Option.map_map]
      refine hcons.trans ?_
      rw [ih]
      cases xs.mapM fun x => (f x).map OutlineLine.renderAll <;> simp

/-- The outline of a program is made of those of its classes and enums. -/
lemma outline_eq_join : p.outline = ((p.classes ++ p.enums).mapM p.outlineSymbol).map String.join :=
  map_renderAll_gather ..

lemma printer_program_eq : Printer.program p ⟨"", 0⟩ = p.outline.map fun text => ⟨text, 0⟩ := by
  have hprints :=
    Printer.Prints.each_map (Printer.prints_nodes (p := p) p.depth).1 (p.classes ++ p.enums)
  rw [Printer.program, hprints.run, layoutLines, Piece.lines_symbols, outline, Option.map_map]
  simp [Function.comp_def]

end Program

/-- **The outline is compositional.** Let no name have a line break. If nothing at or below a
statement stands below itself, then the printer, called at any depth, writes the outline of the
statement with two spaces per level at the start of each line; it leaves what it wrote before, and
is at the same depth again. What is nested in a block, a branch, the body of a loop, a case or a
default clause follows right after the opening line, as the statements have it on their own, and is
further in. The outline of a program without cycles is made of the outlines of its classes and then
its enums, in the order of declaration. -/
theorem outline_indents_what_is_nested {p : Program} (hp : p.NamesOnOneLine) :
    (∀ s, p.AcyclicFrom (.stmt s) →
      (∃ text, p.outlineStmt s = some text ∧ ∀ out depth,
        Printer.stmt p p.depth s ⟨out, depth⟩ = some ⟨out ++ indent depth text, depth⟩) ∧
      ∀ x, p.stmt? s = some x → ∀ c ∈ Construct.ofStmt p x, ∀ depth, ∃ before nested after,
        p.stmtLines p.depth depth s =
          some (before ++ c.opening.deeper depth :: (nested ++ after)) ∧
        gather (p.stmtLines p.depth (depth + c.opening.depth + 1)) c.body = some nested ∧
        ∀ l ∈ nested, (c.opening.deeper depth).indentation < l.indentation) ∧
    (p.Acyclic → ∃ texts, (p.classes ++ p.enums).mapM p.outlineSymbol = some texts ∧
      p.outline = some (String.join texts) ∧
      Printer.program p ⟨"", 0⟩ = some ⟨String.join texts, 0⟩) := by
  refine ⟨fun s hs => ⟨?_, fun x hx c hc depth => ?_⟩, fun hacyclic => ?_⟩
  · obtain ⟨ls, hls⟩ := Option.isSome_iff_exists.mp (hs.stmtLines_isSome 0)
    exact ⟨_, by rw [Program.outlineStmt, hls, Option.map_some], hp.stmt_eq hls⟩
  · obtain ⟨ls, hls⟩ := Option.isSome_iff_exists.mp (hs.stmtLines_isSome depth)
    obtain ⟨before, nested, after, rfl, hnested⟩ := Construct.exists_stmtLines_eq hx hc hls
    exact ⟨before, nested, after, hls, hnested, Program.indentation_lt_of_nested hc hnested⟩
  · obtain ⟨text, htext⟩ :=
      Option.isSome_iff_exists.mp (Program.outline_isSome hacyclic.walk_isSome)
    obtain ⟨texts, htexts, rfl⟩ := Option.map_eq_some_iff.mp (p.outline_eq_join.symm.trans htext)
    exact ⟨texts, htexts, htext, by rw [Program.printer_program_eq, htext, Option.map_some]⟩

/-- The outer one of two switches, three levels down and after a line, and its default clause. -/
theorem nested_switches_indented : nestedSwitches.NamesOnOneLine ∧
    nestedSwitches.AcyclicFrom (.stmt ⟨4⟩) ∧
    (∃ text, nestedSwitches.outlineStmt ⟨4⟩ = some text ∧
      Printer.stmt nestedSwitches nestedSwitches.depth ⟨4⟩ ⟨"before\n", 3⟩ =
        some ⟨"before\n" ++ indent 3 text, 3⟩) ∧
    (∃ before nested after, nestedSwitches.stmtLines nestedSwitches.depth 3 ⟨4⟩ =
        some (before ++ ⟨4, "default"⟩ :: (nested ++ after)) ∧
      gather (nestedSwitches.stmtLines nestedSwitches.depth 5) [⟨3⟩] = some nested ∧
      ∀ l ∈ nested, (OutlineLine.mk 4 "default").indentation < l.indentation) ∧
    ∃ text, nestedSwitches.outlineSymbol ⟨7⟩ = some text ∧ nestedSwitches.outline = some text := by
  have hnames : nestedSwitches.NamesOnOneLine := by
    have htexts : nestedSwitches.names.texts = #["bool", "byte", "int", "long", "float", "double",
        "string", "C", "m", "x"] := by decide
    simp [Program.NamesOnOneLine, htexts]
  have hacyclic : nestedSwitches.Acyclic := Program.acyclic_of_rank nestedSwitchRank (by decide)
  have hbody : nestedSwitches.Reachable (.stmt ⟨4⟩) :=
    .part (.part (.top (v := ⟨7⟩) (by decide)) (b := .symbol ⟨9⟩) (by decide)) (by decide)
  have hswitch : nestedSwitches.stmt? ⟨4⟩ = some (.switch ⟨0⟩
      [⟨[⟨0⟩], [⟨1⟩, ⟨2⟩], some ⟨3⟩, ⟨4⟩⟩] (some [⟨3⟩]) ⟨3⟩) := by decide
  have hroots : nestedSwitches.classes ++ nestedSwitches.enums = [⟨7⟩] := by decide
  have hbelow := hacyclic.acyclicFrom hbody
  obtain ⟨hstmts, hprogram⟩ := outline_indents_what_is_nested hnames
  obtain ⟨⟨text, htext, hprints⟩, hnested⟩ := hstmts ⟨4⟩ hbelow
  have hdefault := hnested _ hswitch ⟨⟨1, "default"⟩, [⟨3⟩]⟩ (by simp [Construct.ofStmt]) 3
  obtain ⟨texts, htexts, houtline, -⟩ := hprogram hacyclic
  obtain ⟨whole, hwhole, rfl⟩ : ∃ whole, nestedSwitches.outlineSymbol ⟨7⟩ = some whole ∧
      [whole] = texts := by
    rw [hroots] at htexts
    simpa [Option.bind_eq_some_iff] using htexts
  exact ⟨hnames, hbelow, ⟨text, htext, hprints _ 3⟩, hdefault, whole, hwhole,
    by simpa using houtline⟩

end NameBinding
