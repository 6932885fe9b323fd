/-!
# Sets of characters

Character classes of the Unicode standard are given as tables of closed ranges of code points.
`CharSet.contains` is the membership test shared by all of them.
-/

namespace MiniApp.Text

/-- A set of characters, listed as closed ranges of code points in increasing order. -/
structure CharSet where
  ranges : List (Nat × Nat)

/-- Membership of a character: its code point lies in one of the ranges. -/
def CharSet.contains (s : CharSet) (c : Char) : Bool :=
  s.ranges.any fun r => r.1 ≤ c.toNat && c.toNat ≤ r.2

end MiniApp.Text
