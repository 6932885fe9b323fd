import MiniApp.Text.Lowercase

/-!
# Edit distance

The least number of insertions, deletions and substitutions of single characters that turn one text
into another, computed row by row, and the names of a list that come close to a given one.
-/

namespace MiniApp.Text

/-- One row of the distance table from the row above it. `left` is the entry to the left of the one
computed next, `above` the row above from the diagonal neighbour on. -/
def nextRow (c : Char) : Nat → List Nat → List Char → List Nat
  | left, diagonal :: up :: above, d :: ds =>
    let here := min (min (up + 1) (left + 1)) (diagonal + if c = d then 0 else 1)
    here :: nextRow c here (up :: above) ds
  | _, _, _ => []

/-- The table's rows for the characters of the first text, the last row being returned. The first
entry of row `i` is `i`. -/
def lastRow (ds : List Char) : Nat → List Nat → List Char → List Nat
  | _, row, [] => row
  | i, row, c :: cs => lastRow ds (i + 1) ((i + 1) :: nextRow c (i + 1) row ds) cs

/-- Edit distance by rows; the longer text runs down, the shorter across. -/
def editDistance (s t : List Char) : Nat :=
  let (long, short) := if s.length < t.length then (t, s) else (s, t)
  (lastRow short 0 (List.range (short.length + 1)) long).getLastD 0

/-- How far a name may be from another to be suggested in its place. -/
def closeness : Nat := 2

/-- The candidates close to a name, other than the name itself, nearest first; names equally near
keep their order. Case does not count. -/
def similarNames (target : String) (candidates : List String) : List String :=
  let scored := (candidates.filter (· != target)).map fun name =>
    (name, editDistance (lowercase target).toList (lowercase name).toList)
  ((scored.mergeSort fun a b => a.2 ≤ b.2).filter (·.2 ≤ closeness)).map (·.1)

end MiniApp.Text
