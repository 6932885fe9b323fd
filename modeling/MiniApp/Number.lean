import MiniApp.Double.Text
import MiniApp.Fault
import MiniApp.Text.Numeral

/-!
# Numbers

Numbers are unbounded integers or doubles. Arithmetic on two integers stays exact where it can;
as soon as a double takes part, the integer is first rounded to a double. Comparison never rounds.
-/

namespace MiniApp

/-- An unbounded integer or a double. -/
inductive Number where
  | int (value : Int)
  | double (value : Double)
  deriving DecidableEq

instance : Inhabited Number := ⟨.int 0⟩

namespace Number

/-- The number as a double; an integer is rounded. -/
def toDouble : Number → Except Fault Double
  | .int i => match Double.ofInt? i with
    | some d => .ok d
    | none => .error .integerTooLarge
  | .double d => .ok d

/-- Apply an operation on doubles to two numbers. -/
def viaDoubles (op : Double → Double → Double) (a b : Number) : Except Fault Number := do
  let x ← a.toDouble
  let y ← b.toDouble
  return .double (op x y)

/-- Sum. -/
def add : Number → Number → Except Fault Number
  | .int a, .int b => .ok (.int (a + b))
  | a, b => viaDoubles Double.add a b

/-- Difference. -/
def sub : Number → Number → Except Fault Number
  | .int a, .int b => .ok (.int (a - b))
  | a, b => viaDoubles Double.sub a b

/-- Product. -/
def mul : Number → Number → Except Fault Number
  | .int a, .int b => .ok (.int (a * b))
  | a, b => viaDoubles Double.mul a b

/-- Quotient by a nonzero number. Integers that divide exactly give an integer. -/
def div : Number → Number → Except Fault Number
  | .int a, .int b =>
    if b ∣ a then .ok (.int (a / b))
    else match Double.ofQuotient? a b with
      | some d => .ok (.double d)
      | none => .error .quotientTooLarge
  | a, b => viaDoubles Double.div a b

/-- Remainder by a nonzero number, computed on doubles; two integers give an integer. -/
def mod (a b : Number) : Except Fault Number := do
  let x ← a.toDouble
  let y ← b.toDouble
  match Double.fmod? x y with
  | none => .error .infiniteDividend
  | some r => match a, b with
    | .int _, .int _ => return .int r.truncate
    | _, _ => return .double r

/-- Opposite. -/
def neg : Number → Number
  | .int i => .int (-i)
  | .double d => .double d.neg

/-- The exact value; none if it is not a number. -/
def extent? : Number → Option Extent
  | .int i => some (.quanta (i * Double.unit))
  | .double d => d.extent?

/-- Numerical equality, exact between integers and doubles. -/
def equal : Number → Number → Bool
  | .int a, .int b => a == b
  | a, b => match a.extent?, b.extent? with
    | some x, some y => x == y
    | _, _ => false

/-- Numerical order, exact between integers and doubles. -/
def less : Number → Number → Bool
  | .int a, .int b => a < b
  | a, b => match a.extent?, b.extent? with
    | some x, some y => x.below y
    | _, _ => false

/-- Less or equal; false when either side is not a number. -/
def lessOrEqual (a b : Number) : Bool := a.less b || a.equal b

/-- Whether the number is a zero of either sign. -/
def isZero (a : Number) : Bool := a.equal (.int 0)

/-- Digits of an integer, if there are not too many of them. -/
def integerText (i : Int) : Except Fault String :=
  if Nat.pow 10 Text.digitLimit ≤ i.natAbs then .error (.digitLimit none)
  else .ok (Decimal.intText i)

/-- A number as programs show it: whole doubles are shown without a fraction. -/
def display : Number → Except Fault String
  | .int i => integerText i
  | .double d => match d.toInt? with
    | some i => integerText i
    | none => .ok d.text

/-- A number as source text spells it: whole doubles keep one decimal place. -/
def literal : Number → String
  | .int i => Decimal.intText i
  | .double d => match d.toInt? with
    | some i => Decimal.intText i ++ ".0"
    | none => d.text

/-- Read a numeral: one with a point is a double, any other an integer. -/
def read (text : String) : Except Fault Number :=
  if text.toList.contains '.' then
    match Text.readDouble? text.toList with
    | some d => .ok (.double d)
    | none => .error .malformedNumber
  else
    match Text.readInteger text.toList with
    | .ok i => .ok (.int i)
    | .error .malformed => .error .malformedNumber
    | .error (.tooManyDigits n) => .error (.digitLimit (some n))

end Number

end MiniApp
