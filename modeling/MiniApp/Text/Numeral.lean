import MiniApp.Double.Basic
import MiniApp.Text.Blank
import MiniApp.Text.Digit

/-!
# Reading numerals

Numerals may stand between white space, carry a sign, use the decimal digits of any script and hold
single low lines between digits. A fractional numeral may have a point, with digits on at least one
side, and an exponent; the words for infinity and for not a number are read too.
-/

namespace MiniApp.Text

/-- Integers of more digits than this are not converted from or to text. -/
def digitLimit : Nat := 4300

/-- White space that may stand around a numeral. The ASCII controls that separate files, groups,
records and units may not. -/
def isMargin (c : Char) : Bool := isBlank c && !(0x1C ≤ c.toNat && c.toNat ≤ 0x1F)

/-- Drop what may stand around a numeral. -/
def trimMargins (cs : List Char) : List Char :=
  ((cs.dropWhile isMargin).reverse.dropWhile isMargin).reverse

/-- A nonempty run of digits, in which single low lines may separate digits. -/
def digitRun? : List Char → Option (List Nat)
  | [] => none
  | [c] => (digitValue? c).map ([·])
  | c :: '_' :: cs => do
    let d ← digitValue? c
    let ds ← digitRun? cs
    return d :: ds
  | c :: cs => do
    let d ← digitValue? c
    let ds ← digitRun? cs
    return d :: ds

/-- Split off a sign; `true` stands for minus. -/
def splitSign : List Char → Bool × List Char
  | '-' :: cs => (true, cs)
  | '+' :: cs => (false, cs)
  | cs => (false, cs)

/-- How reading an integer can fail. -/
inductive IntegerIssue where
  | malformed
  | tooManyDigits (count : Nat)
  deriving DecidableEq, Repr

/-- Read an integer numeral. -/
def readInteger (cs : List Char) : Except IntegerIssue Int :=
  let (negative, body) := splitSign (trimMargins cs)
  match digitRun? body with
  | none => .error .malformed
  | some ds =>
    if digitLimit < ds.length then .error (.tooManyDigits ds.length)
    else .ok (if negative then -(ofDigits ds : Int) else ofDigits ds)

/-- A run of digits that may be missing. -/
def digitRunOrNone? (cs : List Char) : Option (List Nat) :=
  if cs.isEmpty then some [] else digitRun? cs

/-- The exponent part of a fractional numeral, without its letter. -/
def exponent? (cs : List Char) : Option Int :=
  let (negative, body) := splitSign cs
  (digitRun? body).map fun ds => if negative then -(ofDigits ds : Int) else ofDigits ds

/-- Read an unsigned fractional numeral. -/
def unsignedDouble? (negative : Bool) (cs : List Char) : Option Double := do
  let mantissa := cs.takeWhile fun c => c != 'e' && c != 'E'
  let exponent ← match cs.drop mantissa.length with
    | [] => some 0
    | _ :: rest => exponent? rest
  let whole := mantissa.takeWhile (· != '.')
  let fraction := (mantissa.drop whole.length).drop 1
  let wholeDigits ← digitRunOrNone? whole
  let fractionDigits ← digitRunOrNone? fraction
  if wholeDigits.isEmpty && fractionDigits.isEmpty then none
  else
    some (.ofDecimal negative (ofDigits (wholeDigits ++ fractionDigits))
      (exponent - fractionDigits.length))

/-- Read a fractional numeral. -/
def readDouble? (cs : List Char) : Option Double :=
  let (negative, body) := splitSign (trimMargins cs)
  let word := String.ofList (body.map Char.toLower)
  if word = "nan" then some .nan
  else if word = "inf" || word = "infinity" then some (.infinite negative)
  else unsignedDouble? negative body

end MiniApp.Text
