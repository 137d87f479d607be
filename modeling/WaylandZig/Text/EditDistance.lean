import WaylandZig.Text.Utf8

/-! # Edit distance

How many insertions, deletions and changes of single code points lead from one text to another.
-/
namespace WaylandZig.EditDistance

/-- The rest of a row. `row` holds the distances of the row before from the place to the left on, and
`left` is the distance just found. -/
def restOfRow (r : Rune) : List Rune → List Nat → Nat → List Nat
  | s :: target, corner :: above :: row, left =>
    let change := if s = r then corner else corner + 1
    let best := min (min (above + 1) (left + 1)) change
    best :: restOfRow r target (above :: row) best
  | _, _, _ => []

/-- The distances of one more code point from every beginning of the target. -/
def nextRow (target : List Rune) (row : List Nat) (r : Rune) : List Nat :=
  let first := row.headD 0 + 1
  first :: restOfRow r target row first

def distance (a b : Bytes) : Nat :=
  let target := Utf8.runes b
  (((Utf8.runes a).foldl (nextRow target) (List.range (target.length + 1))).getLast?).getD 0

end WaylandZig.EditDistance
