import MiniApp.Data.Basic
import MiniApp.Fault
import MiniApp.Text.Numeral

/-!
# Data as JSON text

`Data.write` writes a tree of plain values as JSON in ASCII, on one line or indented, and
`Data.ofJson?` reads it back. Characters beyond ASCII are escaped, those beyond the basic plane as
a pair of surrogates. JSON has no moments; their text is written.

Integers of too many digits are refused by `Data.toJson`, as everywhere.
-/

namespace MiniApp

namespace Json

/-! ## Writing -/

/-- One UTF-16 unit as an escape. -/
def unitEscape (unit : Nat) : List Char := '\\' :: 'u' :: Text.hexDigits 4 unit

/-- One character between the quotes. -/
def escape (c : Char) : List Char :=
  if c = '"' then ['\\', '"']
  else if c = '\\' then ['\\', '\\']
  else if c = '\n' then ['\\', 'n']
  else if c = '\r' then ['\\', 'r']
  else if c = '\t' then ['\\', 't']
  else if c = Char.ofNat 8 then ['\\', 'b']
  else if c = Char.ofNat 12 then ['\\', 'f']
  else if 32 ≤ c.toNat ∧ c.toNat < 127 then [c]
  else if c.toNat < 0x10000 then unitEscape c.toNat
  else
    unitEscape (0xD800 + (c.toNat - 0x10000) / 0x400) ++
      unitEscape (0xDC00 + (c.toNat - 0x10000) % 0x400)

/-- A text between quotes. -/
def string (s : String) : List Char := '"' :: s.toList.flatMap escape ++ ['"']

/-- What stands between the bracket and the first item, and in front of the closing bracket, at a
given depth: nothing on one line, a line break and white space when indented. -/
def lineBreak : Option Nat → Nat → List Char
  | none, _ => []
  | some width, depth => '\n' :: List.replicate (width * depth) ' '

/-- What separates items: a comma, with a blank on one line and a line break when indented. -/
def separator (indent : Option Nat) (depth : Nat) : List Char :=
  ',' :: if indent.isNone then [' '] else lineBreak indent depth

end Json

namespace Data

mutual

/-- The JSON text of a value that stands at the given depth. -/
def write (indent : Option Nat) (depth : Nat) : Data → List Char
  | .null => "null".toList
  | .bool b => (if b then "true" else "false").toList
  | .int i => (Decimal.intText i).toList
  | .double d => (d.textWith "NaN" "Infinity").toList
  | .str s => Json.string s
  | .moment m => Json.string m.text
  | .list [] => ['[', ']']
  | .list (d :: ds) =>
    '[' :: Json.lineBreak indent (depth + 1) ++ d.write indent (depth + 1) ++
      writeItems indent (depth + 1) ds ++ Json.lineBreak indent depth ++ [']']
  | .table [] => ['\x7b', '\x7d']
  | .table ((k, v) :: rest) =>
    '\x7b' :: Json.lineBreak indent (depth + 1) ++ Json.string k ++ [':', ' '] ++
      v.write indent (depth + 1) ++
      writeEntries indent (depth + 1) rest ++ Json.lineBreak indent depth ++ ['\x7d']

/-- Further items of a list, each after a separator. -/
def writeItems (indent : Option Nat) (depth : Nat) : List Data → List Char
  | [] => []
  | d :: ds => Json.separator indent depth ++ d.write indent depth ++ writeItems indent depth ds

/-- Further entries of a table, each after a separator. -/
def writeEntries (indent : Option Nat) (depth : Nat) : List (String × Data) → List Char
  | [] => []
  | (k, v) :: rest =>
    Json.separator indent depth ++ Json.string k ++ [':', ' '] ++ v.write indent depth ++
      writeEntries indent depth rest

end

mutual

/-- Whether some integer has too many digits to be written. -/
def overlong : Data → Bool
  | .int i => Nat.pow 10 Text.digitLimit ≤ i.natAbs
  | .list items => anyOverlong items
  | .table entries => anyEntryOverlong entries
  | _ => false

/-- Whether some item holds an integer that is too long. -/
def anyOverlong : List Data → Bool
  | [] => false
  | d :: ds => d.overlong || anyOverlong ds

/-- Whether some entry holds an integer that is too long. -/
def anyEntryOverlong : List (String × Data) → Bool
  | [] => false
  | (_, v) :: rest => v.overlong || anyEntryOverlong rest

end

/-- JSON text, on one line or with the given width of indentation. -/
def toJson (indent : Option Nat) (d : Data) : Except Fault String :=
  if d.overlong then .error (.digitLimit none) else .ok (String.ofList (d.write indent 0))

end Data

namespace Json

/-! ## Reading -/

/-- White space between the parts of a JSON text. -/
def isSpace (c : Char) : Bool := c = ' ' || c = '\t' || c = '\r' || c = '\n'

/-- Drop white space. -/
def skipSpace (cs : List Char) : List Char := cs.dropWhile isSpace

/-- The value of a hexadecimal digit. -/
def hexValue? (c : Char) : Option Nat :=
  if '0' ≤ c ∧ c ≤ '9' then some (c.toNat - '0'.toNat)
  else if 'a' ≤ c ∧ c ≤ 'f' then some (c.toNat - 'a'.toNat + 10)
  else if 'A' ≤ c ∧ c ≤ 'F' then some (c.toNat - 'A'.toNat + 10)
  else none

/-- Four hexadecimal digits. -/
def unit? : List Char → Option (Nat × List Char)
  | a :: b :: c :: d :: rest => do
    let a ← hexValue? a
    let b ← hexValue? b
    let c ← hexValue? c
    let d ← hexValue? d
    return (((a * 16 + b) * 16 + c) * 16 + d, rest)
  | _ => none

/-- The character of an escape by UTF-16 units, after its first `\u`. -/
def unitChar? (cs : List Char) : Option (Char × List Char) := do
  let (high, rest) ← unit? cs
  if 0xD800 ≤ high ∧ high < 0xDC00 then
    match rest with
    | '\\' :: 'u' :: more =>
      let (low, rest) ← unit? more
      if 0xDC00 ≤ low ∧ low < 0xE000 then
        return (Char.ofNat (0x10000 + (high - 0xD800) * 0x400 + (low - 0xDC00)), rest)
      else none
    | _ => none
  else if 0xDC00 ≤ high ∧ high < 0xE000 then none
  else return (Char.ofNat high, rest)

/-- The character of a one-letter escape. -/
def letterChar? : Char → Option Char
  | '"' => some '"'
  | '\\' => some '\\'
  | '/' => some '/'
  | 'b' => some (Char.ofNat 8)
  | 'f' => some (Char.ofNat 12)
  | 'n' => some '\n'
  | 'r' => some '\r'
  | 't' => some '\t'
  | _ => none

/-- The rest of a text after its opening quote, and what follows the closing one. -/
def stringBody? : Nat → List Char → Option (List Char × List Char)
  | 0, _ => none
  | fuel + 1, cs =>
    match cs with
    | [] => none
    | '"' :: rest => some ([], rest)
    | '\\' :: 'u' :: rest => do
      let (c, rest) ← unitChar? rest
      let (s, rest) ← stringBody? fuel rest
      return (c :: s, rest)
    | '\\' :: e :: rest => do
      let c ← letterChar? e
      let (s, rest) ← stringBody? fuel rest
      return (c :: s, rest)
    | c :: rest =>
      if c.toNat < 32 ∨ c = '\\' then none
      else do
        let (s, rest) ← stringBody? fuel rest
        return (c :: s, rest)

/-- Characters that occur in numbers. -/
def isNumberChar (c : Char) : Bool :=
  Text.isAsciiDigit c || c = '-' || c = '+' || c = '.' || c = 'e' || c = 'E'

/-- A number: an integer unless it has a point or an exponent. -/
def number? (cs : List Char) : Option Data :=
  if cs.any fun c => c = '.' || c = 'e' || c = 'E' then (Text.readDouble? cs).map .double
  else
    match cs with
    | '-' :: ds =>
      if ds.isEmpty || !ds.all Text.isAsciiDigit then none
      else some (.int (-(Text.ofDigits (ds.map fun d => d.toNat - '0'.toNat) : Int)))
    | ds =>
      if ds.isEmpty || !ds.all Text.isAsciiDigit then none
      else some (.int (Text.ofDigits (ds.map fun d => d.toNat - '0'.toNat)))

/-- What follows a word, if the text starts with it. -/
def dropWord? (word : String) (cs : List Char) : Option (List Char) :=
  if word.toList.isPrefixOf cs then some (cs.drop word.length) else none

/-- The words that stand for values. Numbers that are not finite have words too. -/
def constants : List (String × Data) :=
  [("null", .null), ("true", .bool true), ("false", .bool false), ("NaN", .double .nan),
    ("Infinity", .double (.infinite false)), ("-Infinity", .double (.infinite true))]

/-- A word that stands for a value, and what follows it. -/
def constant? (cs : List Char) : Option (Data × List Char) :=
  constants.findSome? fun (word, d) => (dropWord? word cs).map fun rest => (d, rest)

mutual

/-- A value at the head of a text, and what follows it. -/
def value? : Nat → List Char → Option (Data × List Char)
  | 0, _ => none
  | fuel + 1, cs =>
    match skipSpace cs with
    | '"' :: rest => do
      let (s, rest) ← stringBody? (rest.length + 1) rest
      return (.str (String.ofList s), rest)
    | '[' :: rest =>
      match skipSpace rest with
      | ']' :: rest => some (.list [], rest)
      | rest => do
        let (d, rest) ← value? fuel rest
        let (ds, rest) ← items? fuel (skipSpace rest)
        return (.list (d :: ds), rest)
    | '\x7b' :: rest =>
      match skipSpace rest with
      | '\x7d' :: rest => some (.table [], rest)
      | rest => do
        let (e, rest) ← entry? fuel rest
        let (es, rest) ← entries? fuel (skipSpace rest)
        return (.table (e :: es), rest)
    | cs =>
      match constant? cs with
      | some result => some result
      | none => do
        let text := cs.takeWhile isNumberChar
        let d ← number? text
        return (d, cs.drop text.length)

/-- Further items of a list up to its closing bracket. -/
def items? : Nat → List Char → Option (List Data × List Char)
  | 0, _ => none
  | fuel + 1, cs =>
    match cs with
    | ']' :: rest => some ([], rest)
    | ',' :: rest => do
      let (d, rest) ← value? fuel rest
      let (ds, rest) ← items? fuel (skipSpace rest)
      return (d :: ds, rest)
    | _ => none

/-- An entry of a table. -/
def entry? : Nat → List Char → Option ((String × Data) × List Char)
  | 0, _ => none
  | fuel + 1, cs =>
    match skipSpace cs with
    | '"' :: rest => do
      let (k, rest) ← stringBody? (rest.length + 1) rest
      match skipSpace rest with
      | ':' :: rest =>
        let (v, rest) ← value? fuel rest
        return ((String.ofList k, v), rest)
      | _ => none
    | _ => none

/-- Further entries of a table up to its closing brace. -/
def entries? : Nat → List Char → Option (List (String × Data) × List Char)
  | 0, _ => none
  | fuel + 1, cs =>
    match cs with
    | '\x7d' :: rest => some ([], rest)
    | ',' :: rest => do
      let (e, rest) ← entry? fuel rest
      let (es, rest) ← entries? fuel (skipSpace rest)
      return (e :: es, rest)
    | _ => none

end

end Json

/-- The data that a JSON text holds. -/
def Data.ofJson? (s : String) : Option Data :=
  match Json.value? (s.length + 1) s.toList with
  | some (d, rest) => if (Json.skipSpace rest).isEmpty then some d else none
  | none => none

end MiniApp
