import MiniApp.Double.Shortest

/-!
# Doubles as text

A double is written with the fewest digits that read back to it. Decimal exponents from -4 to 15 are
written positionally and always with a point; outside that range the exponent is written with its
sign and at least two digits.
-/

namespace MiniApp

namespace Decimal

/-- The digits of a natural number, as text. -/
def natText (n : Nat) : String := String.ofList (Nat.toDigits 10 n)

/-- The digits of an integer, as text. -/
def intText (i : Int) : String := if i < 0 then "-" ++ natText i.natAbs else natText i.natAbs

private def zeros (n : Nat) : List Char := List.replicate n '0'

/-- Positional layout: the point stands before, inside or behind the digits. -/
def positional (digits : List Char) (exponent : Int) : List Char :=
  if 0 ≤ exponent then digits ++ zeros exponent.toNat ++ ['.', '0']
  else
    let places := (-exponent).toNat
    if places < digits.length then
      digits.take (digits.length - places) ++ '.' :: digits.drop (digits.length - places)
    else '0' :: '.' :: (zeros (places - digits.length) ++ digits)

/-- Exponent layout: one digit before the point, the exponent signed and of two digits at least. -/
def scientific (digits : List Char) (exponent : Int) : List Char :=
  let lead := exponent + digits.length - 1
  let size := Nat.toDigits 10 lead.natAbs
  digits.take 1 ++ (if digits.length = 1 then [] else '.' :: digits.drop 1) ++
    'e' :: (if lead < 0 then '-' else '+') :: (zeros (2 - size.length) ++ size)

/-- Text of a decimal. Positional from `10^-4` up to below `10^16`. -/
def text (d : Decimal) : List Char :=
  let digits := Nat.toDigits 10 d.digits
  let lead := d.exponent + digits.length - 1
  if -4 ≤ lead ∧ lead < 16 then positional digits d.exponent else scientific digits d.exponent

end Decimal

namespace Double

/-- Text of a double, given the words for the values that are not finite. -/
def textWith (nanWord infinityWord : String) : Double → String
  | .nan => nanWord
  | .infinite negative => if negative then "-" ++ infinityWord else infinityWord
  | .finite negative q _ =>
    let size := if q = 0 then "0.0" else String.ofList (shortest q).text
    if negative then "-" ++ size else size

/-- Text of a double as the language shows it. -/
def text : Double → String := textWith "nan" "inf"

end Double

end MiniApp
