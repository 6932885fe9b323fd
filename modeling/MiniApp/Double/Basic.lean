/-!
# Double precision numbers

A finite double is a sign together with a whole number of *quanta*, the quantum being the smallest
positive double `2⁻¹⁰⁷⁴`. A number of quanta is a double when it has at most 53 significant bits and
stays below `2²⁰⁹⁸`. Written this way every operation is exact arithmetic on natural numbers
followed by one rounding, to the nearest double and on a tie to the even one.

## Main definitions

* `Double`: not a number, the two infinities, and the finite doubles
* `Double.ofRatio`: the one rounding step, from an exact ratio of quanta
* `Double.add`, `Double.sub`, `Double.mul`, `Double.div`, `Double.fmod`: the operations
* `Extent`: exact extended values, in which doubles and integers are compared without rounding
-/

namespace MiniApp

/-- The whole number nearest to `num / den`; a tie goes to the even neighbour. -/
def roundDiv (num den : Nat) : Nat :=
  if 2 * (num % den) < den then num / den
  else if den < 2 * (num % den) then num / den + 1
  else num / den + num / den % 2

namespace Double

/-- Distance in quanta from a magnitude to the next double above it. -/
def gap (quanta : Nat) : Nat := Nat.pow 2 (quanta.log2 - 52)

/-- A number of quanta is a double: at most 53 significant bits, below the overflow threshold. -/
def Fits (quanta : Nat) : Prop := quanta < Nat.pow 2 2098 ∧ quanta % gap quanta = 0

instance (quanta : Nat) : Decidable (Fits quanta) := inferInstanceAs (Decidable (_ ∧ _))

/-- Quanta in one unit. -/
def unit : Nat := Nat.pow 2 1074

end Double

/-- A number in double precision. -/
inductive Double where
  | nan
  | infinite (negative : Bool)
  | finite (negative : Bool) (quanta : Nat) (fits : Double.Fits quanta)
  deriving DecidableEq

namespace Double

/-- The number of quanta with at most 53 significant bits that is nearest to `num / den`. -/
def nearest (num den : Nat) : Nat :=
  roundDiv num (den * gap (num / den)) * gap (num / den)

/-- Round `num / den` quanta to a double; what is too large becomes infinite. -/
def ofRatio (negative : Bool) (num den : Nat) : Double :=
  if h : Fits (nearest num den) then .finite negative (nearest num den) h else .infinite negative

/-- Zero with a sign. -/
def zero (negative : Bool) : Double :=
  .finite negative 0 ⟨Nat.two_pow_pos 2098, Nat.zero_mod _⟩

instance : Inhabited Double := ⟨zero false⟩

/-- The nearest double to an integer, or none when it would be infinite. -/
def ofInt? (i : Int) : Option Double :=
  match ofRatio (i < 0) (i.natAbs * unit) 1 with
  | .infinite _ => none
  | d => some d

/-- The nearest double to a quotient of integers with nonzero divisor, or none when infinite. -/
def ofQuotient? (a b : Int) : Option Double :=
  match ofRatio (xor (decide (a < 0)) (decide (b < 0))) (a.natAbs * unit) b.natAbs with
  | .infinite _ => none
  | d => some d

/-- The nearest double to `± digits · 10^exponent`. Exponents far outside the range are settled
without forming the power. -/
def ofDecimal (negative : Bool) (digits : Nat) (exponent : Int) : Double :=
  if digits = 0 then zero negative
  else if exponent > 400 then .infinite negative
  else if 0 ≤ exponent then ofRatio negative (digits * Nat.pow 10 exponent.toNat * unit) 1
  else if exponent + digits.log2 < -400 then zero negative
  else ofRatio negative (digits * unit) (Nat.pow 10 (-exponent).toNat)

/-- A finite double as a signed number of quanta. -/
def signed (negative : Bool) (quanta : Nat) : Int := if negative then -(quanta : Int) else quanta

/-- Opposite sign. -/
def neg : Double → Double
  | .nan => .nan
  | .infinite n => .infinite !n
  | .finite n q h => .finite (!n) q h

/-- Sum. A sum of zero is positive unless both terms are negative. -/
def add : Double → Double → Double
  | .nan, _ | _, .nan => .nan
  | .infinite m, .infinite n => if m = n then .infinite m else .nan
  | .infinite m, .finite .. => .infinite m
  | .finite .., .infinite n => .infinite n
  | .finite m a _, .finite n b _ =>
    let sum := signed m a + signed n b
    if sum = 0 then zero (m && n) else ofRatio (sum < 0) sum.natAbs 1

/-- Difference. -/
def sub (x y : Double) : Double := add x y.neg

/-- Product. -/
def mul : Double → Double → Double
  | .nan, _ | _, .nan => .nan
  | .infinite m, .infinite n => .infinite (xor m n)
  | .infinite m, .finite n b _ => if b = 0 then .nan else .infinite (xor m n)
  | .finite m a _, .infinite n => if a = 0 then .nan else .infinite (xor m n)
  | .finite m a _, .finite n b _ => ofRatio (xor m n) (a * b) unit

/-- Quotient. -/
def div : Double → Double → Double
  | .nan, _ | _, .nan => .nan
  | .infinite _, .infinite _ => .nan
  | .infinite m, .finite n _ _ => .infinite (xor m n)
  | .finite m _ _, .infinite n => zero (xor m n)
  | .finite m a _, .finite n b _ =>
    if b = 0 then (if a = 0 then .nan else .infinite (xor m n))
    else ofRatio (xor m n) (a * unit) b

/-- Remainder of the division rounded toward zero; it has the sign of the dividend. There is none
for an infinite dividend or a zero divisor. -/
def fmod? : Double → Double → Option Double
  | .nan, _ | _, .nan => some .nan
  | .infinite _, _ => none
  | x, .infinite _ => some x
  | .finite m a _, .finite _ b _ => if b = 0 then none else some (ofRatio m (a % b) 1)

/-- The integer that a double is, if it is one. -/
def toInt? : Double → Option Int
  | .finite n q _ => if q % unit = 0 then some (signed n (q / unit)) else none
  | _ => none

/-- The integer part of a finite double. -/
def truncate : Double → Int
  | .finite n q _ => signed n (q / unit)
  | _ => 0

end Double

/-- Exact extended values: the infinities and whole numbers of quanta. -/
inductive Extent where
  | bottom
  | quanta (q : Int)
  | top
  deriving DecidableEq

namespace Extent

/-- Strict order of extended values. -/
def below : Extent → Extent → Bool
  | .bottom, .bottom => false
  | .bottom, _ => true
  | _, .bottom => false
  | .top, _ => false
  | _, .top => true
  | .quanta p, .quanta q => p < q

end Extent

/-- The exact value of a double; none if it is not a number. -/
def Double.extent? : Double → Option Extent
  | .nan => none
  | .infinite n => some (if n then .bottom else .top)
  | .finite n q _ => some (.quanta (signed n q))

end MiniApp
