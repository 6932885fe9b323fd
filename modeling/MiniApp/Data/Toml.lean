import MiniApp.Data.Json
import MiniApp.Text.Search

/-!
# Data as TOML text

`Data.ofToml` reads a TOML document: comments, tables, arrays of tables, dotted keys, inline tables,
the four kinds of strings, integers, floats, booleans, days and times, and arrays.

A document is read statement by statement into a table. Beside it stand the paths that later
statements may not touch: a *declared* path may not be opened again by a header or by a dotted key,
and below a *frozen* path, the value of which was written out in full, nothing may be added.

## Main definitions

* `Toml.value`: a value at the head of a text
* `Toml.descend`: change the table at a path, making tables on the way
* `Toml.Document`, `Toml.statements`: the document read so far, and reading the rest
* `Data.ofToml`
-/

namespace MiniApp

/-- A table of plain data, in the order of entry. -/
abbrev Table := List (String × Data)

namespace Toml

/-- Why a text is no document. -/
inductive Issue where
  | malformed
  /-- A decimal integer of too many digits. -/
  | tooManyDigits (count : Nat)
  deriving DecidableEq, Repr

/-- What is missing makes a text malformed. -/
def required {α : Type} : Option α → Except Issue α
  | some a => .ok a
  | none => .error .malformed

/-! ## Blanks and comments -/

/-- Blanks within a line. -/
def isBlank (c : Char) : Bool := c = ' ' || c = '\t'

/-- Blanks and line feeds. -/
def isSpace (c : Char) : Bool := isBlank c || c = '\n'

/-- The control characters that may not stand for themselves. -/
def isControl (c : Char) : Bool := (c.toNat < 32 && c != '\t') || c.toNat = 127

/-- Drop blanks. -/
def skipBlanks (cs : List Char) : List Char := cs.dropWhile isBlank

/-- Drop a comment, up to the end of its line. -/
def skipComment : List Char → Except Issue (List Char)
  | '#' :: cs =>
    let body := cs.takeWhile (· != '\n')
    if body.any isControl then .error .malformed else .ok (cs.drop body.length)
  | cs => .ok cs

/-- Drop blanks, line feeds and comments. -/
def skipSpace : Nat → List Char → Except Issue (List Char)
  | 0, cs => .ok cs
  | fuel + 1, cs =>
    match cs.dropWhile isSpace with
    | '#' :: rest => do skipSpace fuel (← skipComment ('#' :: rest))
    | rest => .ok rest

/-- Drop blanks, line feeds and comments, as many as there are. -/
def skipAllSpace (cs : List Char) : Except Issue (List Char) := skipSpace (cs.length + 1) cs

/-! ## Strings -/

/-- The character of a one-letter escape. -/
def letterChar? : Char → Option Char
  | 'b' => some (Char.ofNat 8)
  | 't' => some '\t'
  | 'n' => some '\n'
  | 'f' => some (Char.ofNat 12)
  | 'r' => some '\r'
  | '"' => some '"'
  | '\\' => some '\\'
  | _ => none

/-- A character given by a number of hexadecimal digits. -/
def hexChar? (width : Nat) (cs : List Char) : Option (Char × List Char) := do
  let digits ← (cs.take width).mapM Json.hexValue?
  let code := digits.foldl (fun n d => 16 * n + d) 0
  if digits.length = width && code.isValidChar then
    return (Char.ofNat code, cs.drop width)
  else none

/-- What follows a backslash at the end of a line, blanks behind it allowed: the first character
that is neither blank nor line feed. -/
def continuation? (cs : List Char) : Option (List Char) :=
  match skipBlanks cs with
  | [] => some []
  | '\n' :: rest => some (rest.dropWhile isSpace)
  | _ => none

/-- The rest of a basic string after its opening quotes, and what follows the closing ones. -/
def basicBody (multiline : Bool) : Nat → List Char → Except Issue (List Char × List Char)
  | 0, _ => .error .malformed
  | fuel + 1, cs =>
    match cs with
    | [] => .error .malformed
    | '"' :: rest =>
      if !multiline then .ok ([], rest)
      -- one quote or two are part of a string of several lines, three end it
      else if "\"\"".toList.isPrefixOf rest then .ok ([], rest.drop 2)
      else do
        let (s, rest) ← basicBody multiline fuel rest
        return ('"' :: s, rest)
    | '\\' :: 'u' :: rest => do
      let (c, rest) ← required (hexChar? 4 rest)
      let (s, rest) ← basicBody multiline fuel rest
      return (c :: s, rest)
    | '\\' :: 'U' :: rest => do
      let (c, rest) ← required (hexChar? 8 rest)
      let (s, rest) ← basicBody multiline fuel rest
      return (c :: s, rest)
    | '\\' :: e :: rest =>
      -- a backslash at the end of a line takes the white space behind it away
      if multiline && isSpace e then do
        basicBody multiline fuel (← required (continuation? (e :: rest)))
      else do
        let c ← required (letterChar? e)
        let (s, rest) ← basicBody multiline fuel rest
        return (c :: s, rest)
    | c :: rest =>
      if c = '\\' || (isControl c && !(multiline && c = '\n')) then .error .malformed
      else do
        let (s, rest) ← basicBody multiline fuel rest
        return (c :: s, rest)

/-- A basic string after its opening quote. -/
def basic (cs : List Char) : Except Issue (String × List Char) := do
  let (s, rest) ← basicBody false (cs.length + 1) cs
  return (String.ofList s, rest)

/-- A literal string after its opening quote. -/
def literal (cs : List Char) : Except Issue (String × List Char) :=
  let body := cs.takeWhile (· != '\'')
  match cs.drop body.length with
  | [] => .error .malformed
  | _ :: rest => if body.any isControl then .error .malformed else .ok (String.ofList body, rest)

/-- Up to two quotes more than the three that close a string of several lines belong to it. -/
def extraQuotes (quote : Char) (s rest : List Char) : String × List Char :=
  let extra := (rest.takeWhile (· = quote)).take 2
  (String.ofList (s ++ extra), rest.drop extra.length)

/-- A line feed right behind the opening quotes does not count. -/
def dropFirstNewline : List Char → List Char
  | '\n' :: cs => cs
  | cs => cs

/-- A basic string of several lines after its opening quotes. -/
def multilineBasic (cs : List Char) : Except Issue (String × List Char) := do
  let (s, rest) ← basicBody true (cs.length + 1) (dropFirstNewline cs)
  return extraQuotes '"' s rest

/-- A literal string of several lines after its opening quotes. -/
def multilineLiteral (cs : List Char) : Except Issue (String × List Char) := do
  let cs := dropFirstNewline cs
  let length ← required (Text.find? "'''".toList cs)
  let body := cs.take length
  if body.any fun c => isControl c && c != '\n' then .error .malformed
  else return extraQuotes '\'' body (cs.drop (length + 3))

/-! ## Keys -/

/-- The characters of bare keys. -/
def isBare (c : Char) : Bool := c.isAlphanum || c = '-' || c = '_'

/-- One part of a key. -/
def keyPart (cs : List Char) : Except Issue (String × List Char) :=
  match cs with
  | '"' :: rest => basic rest
  | '\'' :: rest => literal rest
  | cs =>
    let body := cs.takeWhile isBare
    if body.isEmpty then .error .malformed else .ok (String.ofList body, cs.drop body.length)

/-- Further parts of a key, each behind a point. -/
def keyParts : Nat → List Char → Except Issue (List String × List Char)
  | 0, _ => .error .malformed
  | fuel + 1, cs =>
    match skipBlanks cs with
    | '.' :: rest => do
      let (part, rest) ← keyPart (skipBlanks rest)
      let (parts, rest) ← keyParts fuel rest
      return (part :: parts, rest)
    | rest => .ok ([], rest)

/-- A key: the parts before the last one, and the last one. -/
structure Key where
  parents : List String
  last : String
  deriving DecidableEq, Repr

/-- All parts of a key. -/
def Key.path (k : Key) : List String := k.parents ++ [k.last]

/-- A key with the given first part and further ones. -/
def Key.ofParts (first : String) : List String → Key
  | [] => ⟨[], first⟩
  | part :: parts =>
    let inner := Key.ofParts part parts
    ⟨first :: inner.parents, inner.last⟩

/-- A key, and what follows it and the blanks behind it. -/
def key (cs : List Char) : Except Issue (Key × List Char) := do
  let (part, rest) ← keyPart cs
  let (parts, rest) ← keyParts (rest.length + 1) rest
  return (.ofParts part parts, rest)

/-! ## Numbers -/

/-- A run of digits, each of which but the first may follow a low line. -/
def digitRun (isDigit : Char → Bool) : List Char → List Char × List Char
  | '_' :: c :: cs =>
    if isDigit c then
      let (ds, rest) := digitRun isDigit cs
      (c :: ds, rest)
    else ([], '_' :: c :: cs)
  | c :: cs =>
    if isDigit c then
      let (ds, rest) := digitRun isDigit cs
      (c :: ds, rest)
    else ([], c :: cs)
  | [] => ([], [])

/-- A nonempty run of digits that starts with a digit. -/
def someDigits? (isDigit : Char → Bool) (cs : List Char) : Option (List Char × List Char) :=
  if cs.head?.any isDigit then some (digitRun isDigit cs) else none

/-- The digits of a base up to sixteen. -/
def isDigitOf (base : Nat) (c : Char) : Bool := (Json.hexValue? c).any (· < base)

/-- An integer in a base other than ten, after its letter. -/
def based? (base : Nat) (cs : List Char) : Option (Data × List Char) := do
  let (ds, rest) ← someDigits? (isDigitOf base) cs
  let value := ds.foldl (fun n c => base * n + (Json.hexValue? c).getD 0) 0
  return (.int value, rest)

/-- The integer part of a decimal number: a zero alone, or digits that start with none. -/
def wholePart? : List Char → Option (List Char × List Char)
  | '0' :: rest => some (['0'], rest)
  | cs => someDigits? Text.isAsciiDigit cs

/-- The fraction of a decimal number with its point, if there is one. -/
def fractionPart (cs : List Char) : List Char × List Char :=
  match cs with
  | '.' :: rest =>
    match someDigits? Text.isAsciiDigit rest with
    | some (ds, rest) => ('.' :: ds, rest)
    | none => ([], cs)
  | _ => ([], cs)

/-- The exponent of a decimal number with its letter, if there is one. -/
def exponentPart (cs : List Char) : List Char × List Char :=
  match cs with
  | e :: rest =>
    if e = 'e' || e = 'E' then
      let sign := (rest.take 1).filter fun c => c = '+' || c = '-'
      match someDigits? Text.isAsciiDigit (rest.drop sign.length) with
      | some (ds, rest) => ('e' :: sign ++ ds, rest)
      | none => ([], cs)
    else ([], cs)
  | [] => ([], [])

/-- A decimal number, or the word for an infinite number or for none, behind its sign. -/
def decimal (negative : Bool) (cs : List Char) : Except Issue (Data × List Char) :=
  match wholePart? cs with
  | some (whole, rest) =>
    let (fraction, rest) := fractionPart rest
    let (exponent, rest) := exponentPart rest
    if fraction.isEmpty && exponent.isEmpty then
      if Text.digitLimit < whole.length then .error (.tooManyDigits whole.length)
      else
        let size := Text.ofDigits (whole.map fun c => c.toNat - '0'.toNat)
        .ok (.int (if negative then -(size : Int) else size), rest)
    else do
      let d ← required (Text.unsignedDouble? negative (whole ++ fraction ++ exponent))
      return (.double d, rest)
  | none =>
    match Json.dropWord? "inf" cs, Json.dropWord? "nan" cs with
    | some rest, _ => .ok (.double (.infinite negative), rest)
    | _, some rest => .ok (.double .nan, rest)
    | _, _ => .error .malformed

/-- A number. -/
def number (cs : List Char) : Except Issue (Data × List Char) :=
  let other : Option (Data × List Char) := match cs with
    -- a letter without digits behind it leaves the number zero, which the letter then follows
    | '0' :: 'x' :: rest => based? 16 rest
    | '0' :: 'o' :: rest => based? 8 rest
    | '0' :: 'b' :: rest => based? 2 rest
    | _ => none
  match other with
  | some result => .ok result
  | none =>
    match cs with
    | '+' :: rest => decimal false rest
    | '-' :: rest => decimal true rest
    | cs => decimal false cs

/-! ## Days and times -/

/-- A number of exactly so many digits. -/
def fixedDigits? (width : Nat) (cs : List Char) : Option (Nat × List Char) :=
  let ds := cs.take width
  if ds.length = width && ds.all Text.isAsciiDigit then
    some (Text.ofDigits (ds.map fun c => c.toNat - '0'.toNat), cs.drop width)
  else none

/-- A number of two digits within bounds. -/
def twoDigits? (low high : Nat) (cs : List Char) : Option (Nat × List Char) := do
  let (n, rest) ← fixedDigits? 2 cs
  if low ≤ n && n ≤ high then some (n, rest) else none

/-- What follows a character, if the text starts with it. -/
def dropChar? (c : Char) : List Char → Option (List Char)
  | d :: rest => if d = c then some rest else none
  | [] => none

/-- A day, which the calendar need not have. -/
def day? (cs : List Char) : Option (Day × List Char) := do
  let (year, rest) ← fixedDigits? 4 cs
  let (month, rest) ← twoDigits? 1 12 (← dropChar? '-' rest)
  let (day, rest) ← twoDigits? 1 31 (← dropChar? '-' rest)
  return (⟨year, month, day⟩, rest)

/-- Microseconds from a fraction of a second, if there is one. Digits after the sixth do not count. -/
def microseconds (cs : List Char) : Nat × List Char :=
  match cs with
  | '.' :: rest =>
    let ds := rest.takeWhile Text.isAsciiDigit
    if ds.isEmpty then (0, cs)
    else
      let six := ds.take 6 ++ List.replicate (6 - ds.length) '0'
      (Text.ofDigits (six.map fun c => c.toNat - '0'.toNat), rest.drop ds.length)
  | _ => (0, cs)

/-- A time of day. -/
def clock? (cs : List Char) : Option (Clock × List Char) := do
  let (hour, rest) ← twoDigits? 0 23 cs
  let (minute, rest) ← twoDigits? 0 59 (← dropChar? ':' rest)
  let (second, rest) ← twoDigits? 0 59 (← dropChar? ':' rest)
  let (micros, rest) := microseconds rest
  return (⟨hour, minute, second, micros⟩, rest)

/-- Hours and minutes away from universal time. -/
def hoursMinutes? (cs : List Char) : Option (Nat × List Char) := do
  let (hours, rest) ← twoDigits? 0 23 cs
  let (minutes, rest) ← twoDigits? 0 59 (← dropChar? ':' rest)
  return (60 * hours + minutes, rest)

/-- The distance from universal time, if one is given. -/
def offset (cs : List Char) : Option Offset × List Char :=
  match cs with
  | c :: rest =>
    if c = 'Z' || c = 'z' then (some ⟨0⟩, rest)
    else if c = '+' || c = '-' then
      match hoursMinutes? rest with
      | some (size, rest) => (some ⟨if c = '-' then -(size : Int) else size⟩, rest)
      | none => (none, cs)
    else (none, cs)
  | [] => (none, [])

/-- The time behind a day, after a letter or a blank. -/
def timeOfDay? : List Char → Option (Clock × List Char)
  | c :: rest => if c = 'T' || c = 't' || c = ' ' then clock? rest else none
  | [] => none

/-- A day, a time of day, or both; `none` if the text starts with neither. -/
def moment? (cs : List Char) : Option (Except Issue (Data × List Char)) :=
  match day? cs with
  | some (d, rest) =>
    -- what has the form of a day is never read as a number instead
    if !d.isValid then some (.error .malformed)
    else
      match timeOfDay? rest with
      | some (c, rest) =>
        let (o, rest) := offset rest
        some (.ok (.moment (.dayTime d c o), rest))
      | none => some (.ok (.moment (.day d), rest))
  | none => (clock? cs).map fun (c, rest) => .ok (.moment (.time c), rest)

/-! ## Tables -/

/-- Change the table at a path below a table, making tables on the way. A path leads through the
last table of an array only if `throughArrays` is set; any other value bars it. -/
def descend (throughArrays : Bool) : List String → (Table → Option Table) → Table → Option Table
  | [], change, t => change t
  | k :: path, change, t =>
    match Data.get? k t with
    | none => (descend throughArrays path change []).map fun u => Data.put k (.table u) t
    | some (.table inner) =>
      (descend throughArrays path change inner).map fun u => Data.put k (.table u) t
    | some (.list items) =>
      match throughArrays, items.getLast? with
      | true, some (.table inner) =>
        (descend throughArrays path change inner).map fun u =>
          Data.put k (.list (items.dropLast ++ [.table u])) t
      | _, _ => none
    | some _ => none

/-- Enter a value under a key that is not yet in use. -/
def enter (k : String) (v : Data) (t : Table) : Option Table :=
  if (Data.get? k t).isSome then none else some (t ++ [(k, v)])

/-- Append an empty table to the array under a key. -/
def appendTable (k : String) (t : Table) : Option Table :=
  match Data.get? k t with
  | none => some (t ++ [(k, .list [.table []])])
  | some (.list items) => some (Data.put k (.list (items ++ [.table []])) t)
  | some _ => none

/-- Whether a value is written out in full: a table or an array. -/
def isCollection : Data → Bool
  | .table _ | .list _ => true
  | _ => false

/-- Whether one of the paths leads to the given path or above it. -/
def covers (paths : List (List String)) (path : List String) : Bool :=
  paths.any (·.isPrefixOf path)

/-! ## Values -/

mutual

/-- A value at the head of a text, and what follows it. -/
def value : Nat → List Char → Except Issue (Data × List Char)
  | 0, _ => .error .malformed
  | fuel + 1, cs =>
    match cs with
    | '"' :: '"' :: '"' :: rest => (multilineBasic rest).map fun (s, rest) => (.str s, rest)
    | '"' :: rest => (basic rest).map fun (s, rest) => (.str s, rest)
    | '\'' :: '\'' :: '\'' :: rest => (multilineLiteral rest).map fun (s, rest) => (.str s, rest)
    | '\'' :: rest => (literal rest).map fun (s, rest) => (.str s, rest)
    | '[' :: rest => do
      let (items, rest) ← items fuel rest
      return (.list items, rest)
    | '\x7b' :: rest =>
      match skipBlanks rest with
      | '\x7d' :: rest => .ok (.table [], rest)
      | rest => do
        let (t, rest) ← entries fuel [] [] rest
        return (.table t, rest)
    | cs =>
      match Json.dropWord? "true" cs, Json.dropWord? "false" cs with
      | some rest, _ => .ok (.bool true, rest)
      | _, some rest => .ok (.bool false, rest)
      | _, _ => (moment? cs).getD (number cs)

/-- The items of an array up to its closing bracket; a comma may stand behind the last one. -/
def items : Nat → List Char → Except Issue (List Data × List Char)
  | 0, _ => .error .malformed
  | fuel + 1, cs => do
    match ← skipAllSpace cs with
    | ']' :: rest => return ([], rest)
    | rest =>
      let (v, rest) ← value fuel rest
      match ← skipAllSpace rest with
      | ']' :: rest => return ([v], rest)
      | ',' :: rest =>
        let (vs, rest) ← items fuel rest
        return (v :: vs, rest)
      | _ => .error .malformed

/-- The entries of an inline table up to its closing brace, given the entries before them and the
paths below which nothing may be added. -/
def entries : Nat → List (List String) → Table → List Char → Except Issue (Table × List Char)
  | 0, _, _, _ => .error .malformed
  | fuel + 1, frozen, t, cs => do
    let (k, v, rest) ← pair fuel cs
    let t ← required
      (if covers frozen k.path then none else descend false k.parents (enter k.last v) t)
    match skipBlanks rest with
    | '\x7d' :: rest => return (t, rest)
    | ',' :: rest =>
      entries fuel (if isCollection v then k.path :: frozen else frozen) t (skipBlanks rest)
    | _ => .error .malformed

/-- A key and its value. -/
def pair : Nat → List Char → Except Issue (Key × Data × List Char)
  | 0, _ => .error .malformed
  | fuel + 1, cs => do
    let (k, rest) ← key cs
    match rest with
    | '=' :: rest =>
      let (v, rest) ← value fuel (skipBlanks rest)
      return (k, v, rest)
    | _ => .error .malformed

end

/-! ## Documents -/

/-- A document as far as it has been read. -/
structure Document where
  root : Table := []
  /-- The path of the latest header. -/
  header : List String := []
  /-- Paths that may not be opened again. -/
  declared : List (List String) := []
  /-- Paths that may not be opened again after the next header. -/
  pending : List (List String) := []
  /-- Paths below which nothing may be added. -/
  frozen : List (List String) := []

namespace Document

/-- Make the pending paths declared ones. -/
def settle (d : Document) : Document :=
  { d with declared := d.pending ++ d.declared, pending := [] }

/-- Open a table by a header. -/
def openTable (d : Document) (k : Key) : Option Document :=
  if d.declared.contains k.path || covers d.frozen k.path then none
  else do
    let root ← descend true k.path some d.root
    return { d with root, header := k.path, declared := k.path :: d.declared }

/-- Open the next table of an array by a header. What was said about the tables before it is no
longer of concern. -/
def openArray (d : Document) (k : Key) : Option Document :=
  if covers d.frozen k.path then none
  else do
    let root ← descend true k.parents (appendTable k.last) d.root
    let outside := fun path : List String => !k.path.isPrefixOf path
    return { d with
      root
      header := k.path
      declared := k.path :: d.declared.filter outside
      frozen := d.frozen.filter outside }

/-- The paths of the tables that a dotted key passes through. -/
def passed (d : Document) (k : Key) : List (List String) :=
  (List.range k.parents.length).map fun i => d.header ++ k.parents.take (i + 1)

/-- Enter a value under a key of the present table. -/
def insert (d : Document) (k : Key) (v : Data) : Option Document :=
  if (d.passed k).any d.declared.contains || covers d.frozen (d.header ++ k.parents) then none
  else do
    let root ← descend true (d.header ++ k.parents) (enter k.last v) d.root
    return { d with
      root
      pending := d.passed k ++ d.pending
      frozen := if isCollection v then (d.header ++ k.path) :: d.frozen else d.frozen }

end Document

/-- A header after its first bracket. -/
def header (d : Document) (cs : List Char) : Except Issue (Document × List Char) :=
  match cs with
  | '[' :: rest => do
    let (k, rest) ← key (skipBlanks rest)
    let d ← required (d.openArray k)
    match rest with
    | ']' :: ']' :: rest => return (d, rest)
    | _ => .error .malformed
  | cs => do
    let (k, rest) ← key (skipBlanks cs)
    let d ← required (d.openTable k)
    match rest with
    | ']' :: rest => return (d, rest)
    | _ => .error .malformed

/-- One statement: a header, a key with its value, or nothing. -/
def statement (d : Document) (cs : List Char) : Except Issue (Document × List Char) :=
  match cs with
  | '[' :: rest => header d.settle rest
  | [] => .ok (d, [])
  | '\n' :: _ | '#' :: _ => .ok (d, cs)
  | cs => do
    let (k, v, rest) ← pair (2 * cs.length + 2) cs
    let d ← required (d.insert k v)
    return (d, rest)

/-- The statements of a document, one a line. -/
def statements : Nat → Document → List Char → Except Issue Document
  | 0, _, _ => .error .malformed
  | fuel + 1, d, cs => do
    let (d, rest) ← statement d (skipBlanks cs)
    match ← skipComment (skipBlanks rest) with
    | [] => return d
    | '\n' :: rest => statements fuel d rest
    | _ => .error .malformed

/-- A carriage return before a line feed does not count. -/
def dropReturns : List Char → List Char
  | '\r' :: '\n' :: cs => '\n' :: dropReturns cs
  | c :: cs => c :: dropReturns cs
  | [] => []

end Toml

/-- The table that a TOML document holds. -/
def Data.ofToml (s : String) : Except Toml.Issue Table := do
  let d ← Toml.statements (s.length + 1) {} (Toml.dropReturns s.toList)
  return d.root

end MiniApp
