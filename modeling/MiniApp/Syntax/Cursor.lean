import MiniApp.Diagnostic
import MiniApp.Fault
import MiniApp.Token.Basic

/-!
# Reading tokens one by one

A cursor stands between the token read last and the tokens still to come; behind them stands the end
marker, which is never passed. Parsers move a cursor forward and may fail, in which case the cursor
stays where the failure arose.

Repetition is bounded by the number of tokens to come: each round of a loop reads at least one.
-/

namespace MiniApp

/-- A place in a list of tokens. -/
structure Cursor where
  previous : Option Token
  rest : List Token
  stop : Token

/-- The token to be read next: the end marker once all others are read. -/
def Cursor.current (c : Cursor) : Token := c.rest.head?.getD c.stop

/-- Why parsing stopped. -/
inductive ParseFailure where
  | rejected (d : Diagnostic)
  | nestedTooDeeply (d : Diagnostic)
  | fault (f : Fault)
  deriving DecidableEq, Repr

/-- The failure in a named file. -/
def ParseFailure.inFile (path : String) : ParseFailure → ParseFailure
  | .rejected d => .rejected (d.inFile path)
  | .nestedTooDeeply d => .nestedTooDeeply (d.inFile path)
  | .fault f => .fault f

/-- A parser moves a cursor and gives a result or a failure. -/
abbrev Parser := EStateM ParseFailure Cursor

namespace Parser

variable {α β : Type}

/-- A sequence goes on where its first parser stops, unless that one fails. -/
theorem bind_apply (p : Parser α) (q : α → Parser β) (c : Cursor) : (p >>= q) c =
    match p c with
    | .ok a c' => q a c'
    | .error e c' => .error e c' := by
  change EStateM.bind p q c = _
  cases h : p c <;> rw [EStateM.bind, h]

/-- The token to be read next. -/
def current : Parser Token := fun c => .ok c.current c

/-- Whether the token to be read next is of one of these kinds. -/
def looksAt (kinds : List TokenKind) : Parser Bool := fun c => .ok (kinds.contains c.current.kind) c

/-- Read a token. The end marker is not passed. -/
def advance : Parser Token := fun c =>
  match c.rest with
  | [] => .ok c.stop c
  | t :: rest => .ok t { c with previous := some t, rest }

/-- Read a token of this kind if it comes next. -/
def consumeIf (kind : TokenKind) : Parser Bool := do
  if ← looksAt [kind] then
    let _ ← advance
    return true
  else return false

/-- Fail with a diagnostic. -/
def reject (d : Diagnostic) : Parser α := throw (.rejected d)

/-- A hint how to mend a missing token. -/
def missingTokenHint (previous : Option Token) (token : Token) (kinds : List TokenKind) :
    Option String :=
  match previous with
  | some p =>
    if kinds.contains .semicolon && p.pos.line < token.pos.line then
      some ("Add ';' at the end of line " ++ toString p.pos.line)
    else if kinds.contains .rbrace && token.kind = .eof then
      some "Close the block with '\x7d'"
    else if kinds.contains .lparen && token.kind = .semicolon then
      some ("Did you mean " ++ p.text ++ "()?")
    else none
  | none =>
    if kinds.contains .rbrace && token.kind = .eof then some "Close the block with '\x7d'" else none

/-- The diagnostic for a token that is none of the kinds wanted. -/
def unexpected (c : Cursor) (kinds : List TokenKind) : Diagnostic :=
  .located c.current.pos
    (.unexpectedToken {
      expected := kinds.map (·.describe)
      found := some c.current.describe
      suggestion := missingTokenHint c.previous c.current kinds })
    "Unexpected token"

/-- Read a token of one of these kinds, or fail. -/
def expect (kinds : List TokenKind) : Parser Token := do
  if ← looksAt kinds then advance
  else reject (unexpected (← get) kinds)

/-- A syntactic diagnostic at a token. -/
def syntaxError (token : Token) (message : String) : Diagnostic :=
  .located token.pos (.syntactic { found := some token.describe }) message

/-- Fail because constructs are nested too deeply. -/
def tooDeep : Parser α := fun c =>
  .error (.nestedTooDeeply (.located c.current.pos
    (.syntactic {
      found := some c.current.describe
      suggestion := some "Split the expression into smaller let bindings" })
    "Expression nested too deeply")) c

/-- Turn a fault into a failure. -/
def ofFault : Except Fault α → Parser α
  | .ok a => pure a
  | .error f => throw (.fault f)

/-- A bound for loops that read at least one token in each round. -/
def bound : Parser Nat := fun c => .ok (c.rest.length + 1) c

/-- Items until `done` holds, at most `fuel` of them. -/
def untilDone (done : Parser Bool) (item : Parser α) : Nat → Parser (List α)
  | 0 => pure []
  | fuel + 1 => do
    if ← done then return []
    let first ← item
    let others ← untilDone done item fuel
    return first :: others

/-- One or more items with commas between them, at most `fuel` of them. -/
def commaSeparated (item : Parser α) : Nat → Parser (List α)
  | 0 => pure []
  | fuel + 1 => do
    let first ← item
    if ← consumeIf .comma then
      let others ← commaSeparated item fuel
      return first :: others
    else return [first]

end Parser

end MiniApp
