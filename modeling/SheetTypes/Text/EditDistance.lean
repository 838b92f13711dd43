set_option autoImplicit false

namespace SheetTypes.Text

/-- The rest of a row of the distance table: `columns` are the characters of the second text that
are still to come, `diagonal` and `above` stem from the row before, `left` is the entry just
computed. -/
def distanceRow (c : Char) : List Char → Nat → List Nat → Nat → List Nat
  | column :: columns, diagonal, up :: above, left =>
      let here := min (min (up + 1) (left + 1)) (diagonal + if c = column then 0 else 1)
      here :: distanceRow c columns up above here
  | _, _, _, _ => []

def nextDistanceRow (columns : List Char) (row : List Nat) (c : Char) : List Nat :=
  match row with
  | [] => []
  | first :: above => (first + 1) :: distanceRow c columns first above (first + 1)

/-- The edit distance of two texts. Row `i` and column `j` of the table hold the distance between
the first `i` characters of one and the first `j` characters of the other. -/
def editDistance (left right : String) : Nat :=
  let columns := right.toList
  let lastRow := left.toList.foldl (nextDistanceRow columns) (List.range (columns.length + 1))
  lastRow.getLast?.getD 0

def nearer (left right : String × Nat) : Bool :=
  if left.2 = right.2 then !decide (right.1 < left.1) else decide (left.2 < right.2)

/-- The candidates that differ from the target, but by no more than the given distance; near ones
first, names at one distance by code point. -/
def similarNames (target : String) (candidates : List String) (limit : Nat) : List String :=
  let measured := candidates.map fun name => (name, editDistance target name)
  let near := measured.filter fun entry => 0 < entry.2 && entry.2 ≤ limit
  (near.mergeSort nearer).map Prod.fst

end SheetTypes.Text
