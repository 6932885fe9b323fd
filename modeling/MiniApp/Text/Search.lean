/-!
# Searching text

The first place where one text occurs in another, and the lines of a text.
-/

namespace MiniApp.Text

/-- The number of characters before the first occurrence of `needle`. -/
def find? (needle : List Char) : List Char → Option Nat
  | [] => if needle.isEmpty then some 0 else none
  | c :: cs =>
    if needle.isPrefixOf (c :: cs) then some 0 else (find? needle cs).map (· + 1)

/-- Whether a text occurs in another. -/
def occursIn (needle text : String) : Bool := (find? needle.toList text.toList).isSome

/-- The parts of a text between line feeds; a text without any is its only line. -/
def splitLines : List Char → List (List Char)
  | [] => [[]]
  | c :: cs =>
    match splitLines cs with
    | [] => [[c]]
    | line :: lines => if c = '\n' then [] :: line :: lines else (c :: line) :: lines

/-- The lines of a text. -/
def lines (s : String) : List String := (splitLines s.toList).map String.ofList

end MiniApp.Text
