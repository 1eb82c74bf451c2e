/-!
Suggestions for a name that is not found: the names in reach that differ from it by few edits.
-/

namespace NameBinding.Suggestion

/--
The rest of a row of the table of edit distances. `left` is the cell just written, and the two cells
at the head of the row above stand diagonally and straight above the next one.
-/
def fillRow (c : Char) : Nat → List Char → List Nat → List Nat
  | left, t :: ts, diagonal :: above :: rest =>
    let cell := min (min (above + 1) (left + 1)) (diagonal + if c = t then 0 else 1)
    cell :: fillRow c cell ts (above :: rest)
  | _, _, _ => []

/-- The row for one more character of the source. -/
def nextRow (target : List Char) (row : List Nat) (c : Char) : List Nat :=
  match row with
  | [] => []
  | first :: _ => (first + 1) :: fillRow c (first + 1) target row

/-- The least number of insertions, deletions and substitutions from one text to the other. -/
def distance (source target : String) : Nat :=
  let first := List.range (target.toList.length + 1)
  (source.toList.foldl (nextRow target.toList) first).getLastD 0

/-- The greatest distance at which a name is offered; it grows with the length of the one sought. -/
def reach (target : String) (maxDistance : Nat) : Nat :=
  min maxDistance (target.toList.length / 3 + 1)

/-- Near enough, and not a name that shares nothing with the one sought. -/
def eligible (target : String) (maxDistance : Nat) (candidate : String) : Bool :=
  candidate ≠ target && distance target candidate ≤ reach target maxDistance &&
    distance target candidate < target.toList.length

/-- The nearest of the candidates; those at the same distance keep their order. -/
def nearest (target : String) (candidates : List String) (maxDistance maxCount : Nat) :
    List String :=
  let close := candidates.eraseDups.filter (eligible target maxDistance)
  let ranked := (List.range (reach target maxDistance + 1)).flatMap fun d =>
    close.filter fun c => distance target c = d
  ranked.take maxCount

/-- The line of help that offers the names. -/
def help : List String → Option String
  | [] => none
  | names => some ("did you mean " ++ ", ".intercalate (names.map fun n => "`" ++ n ++ "`") ++ "?")

end NameBinding.Suggestion
