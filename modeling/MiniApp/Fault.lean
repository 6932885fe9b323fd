/-!
# Faults

Most failures are diagnostics that point into a program. The faults here are different: they come
from the limits of number conversion and arithmetic, from token lists that no text produces, or from
a function or table that is given what it has no use for, and carry no position. A report shows the
kind of a fault and says in words what happened.
-/

namespace MiniApp

/-- A failure without a place in the source. -/
inductive Fault where
  /-- An integer has too many digits to be written or, with its digit count, to be read. -/
  | digitLimit (read : Option Nat)
  /-- A numeral that is no number. -/
  | malformedNumber
  /-- A declaration keyword that is neither of the two binding keywords. -/
  | unknownDeclaration
  /-- A property, or a keyword for one, that a table has no entry for. -/
  | unknownProperty
  /-- A token list that does not end with the end marker. -/
  | missingEnd
  /-- The remainder of an infinite number. -/
  | infiniteDividend
  /-- An integer beyond the range of doubles. -/
  | integerTooLarge
  /-- A quotient of integers beyond the range of doubles. -/
  | quotientTooLarge
  /-- A builtin function that takes another number of arguments. -/
  | wrongArguments
  /-- An operation on values of another kind. -/
  | wrongOperands
  deriving DecidableEq, Repr

namespace Fault

/-- The kind of a fault, as reports name it. -/
def kind : Fault → String
  | .digitLimit _ | .malformedNumber | .unknownDeclaration | .missingEnd | .infiniteDividend =>
    "ValueError"
  | .unknownProperty => "KeyError"
  | .integerTooLarge | .quotientTooLarge => "OverflowError"
  | .wrongArguments | .wrongOperands => "TypeError"

/-- The fault in words. -/
def message : Fault → String
  | .digitLimit read =>
    "Exceeds the limit (4300 digits) for integer string conversion" ++
      (match read with
        | some count => ": value has " ++ toString count ++ " digits"
        | none => "") ++
      "; use sys.set_int_max_str_digits() to increase the limit"
  | .malformedNumber => "malformed number"
  | .unknownDeclaration => "unknown declaration"
  | .unknownProperty => "unknown property"
  | .missingEnd => "missing end of input"
  | .infiniteDividend => "math domain error"
  | .integerTooLarge => "int too large to convert to float"
  | .quotientTooLarge => "integer division result too large for a float"
  | .wrongArguments => "wrong number of arguments"
  | .wrongOperands => "unsupported operand types"

end Fault

end MiniApp
