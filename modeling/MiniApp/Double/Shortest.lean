import MiniApp.Double.Basic

/-!
# Shortest decimals

The decimal of fewest digits that rounds to a given positive number of quanta. The reals that round
to a double form an interval, which includes its ends exactly when the significand is even. For one,
two, … digits the two neighbours of the value on that decimal grid are tested; the first grid with a
neighbour in the interval wins, of two neighbours the nearer one, and of two equally near the even.
-/

namespace MiniApp

/-- A positive decimal `digits · 10^exponent`. -/
structure Decimal where
  digits : Nat
  exponent : Int
  deriving DecidableEq, Repr

namespace Decimal

/-- Number of decimal digits of a natural number; zero has one. -/
def digitCount (n : Nat) : Nat := (Nat.toDigits 10 n).length

/-- The greatest `e` with `10^e ≤ num / den`, for positive `num` and `den`. -/
def magnitude (num den : Nat) : Int :=
  let e : Int := (digitCount num : Int) - digitCount den
  if Nat.pow 10 e.toNat * den ≤ num * Nat.pow 10 (-e).toNat then e else e - 1

/-- Remove trailing zeros, at most `fuel` of them. -/
def strip : Nat → Decimal → Decimal
  | 0, d => d
  | fuel + 1, d =>
    if d.digits % 10 = 0 ∧ d.digits ≠ 0 then strip fuel ⟨d.digits / 10, d.exponent + 1⟩ else d

end Decimal

namespace Double

/-- The reals that round to a double, as bounds over a common denominator. -/
structure Interval where
  low : Nat
  high : Nat
  closed : Bool

/-- The rounding interval of a positive double, in quarters of a quantum. Below a power of two the
doubles lie twice as dense. -/
def interval (quanta : Nat) : Interval where
  low := 4 * quanta -
    (if 1 < gap quanta ∧ quanta = Nat.pow 2 quanta.log2 then gap quanta else 2 * gap quanta)
  high := 4 * quanta + 2 * gap quanta
  closed := quanta / gap quanta % 2 = 0

/-- Whether the ratio `num / den` of quarter quanta lies in the interval. -/
def Interval.contains (i : Interval) (num den : Nat) : Bool :=
  if i.closed then i.low * den ≤ num && num ≤ i.high * den
  else i.low * den < num && num < i.high * den

/-- Try grids of increasing fineness, `remaining` of them, from `10^exponent` on. -/
def search (quanta : Nat) : Nat → Int → Decimal
  | 0, exponent => ⟨0, exponent⟩
  | remaining + 1, exponent =>
    -- one grid step and the value, as numbers of quarter quanta over a common denominator
    let step := 4 * unit * Nat.pow 10 exponent.toNat
    let den := Nat.pow 10 (-exponent).toNat
    let value := 4 * quanta * den
    let down := value / step
    let lower := (interval quanta).contains (down * step) den
    let upper := (interval quanta).contains ((down + 1) * step) den
    if lower && upper || remaining == 0 then ⟨roundDiv value step, exponent⟩
    else if lower then ⟨down, exponent⟩
    else if upper then ⟨down + 1, exponent⟩
    else search quanta remaining (exponent - 1)

/-- The shortest decimal that rounds to a positive number of quanta. -/
def shortest (quanta : Nat) : Decimal :=
  Decimal.strip 20 (search quanta 17 (Decimal.magnitude quanta unit))

end Double

end MiniApp
