import MiniApp.Diagnostic
import MiniApp.Text.Digit
import MiniApp.Token.Basic

/-!
# Splitting text into tokens

`next` reads the longest piece at the head of a text: white space, a comment or a lexeme.
`Token.scan` reads pieces until the text is used up, keeps the lexemes and adds the end marker.

Lexemes are strings between double quotes, taken verbatim; numbers, digits with perhaps a point and
more digits; words, which begin with a letter or low line and go on with these, digits and hyphens;
and signs, those of two characters before those of one. A comment runs from `//` to the end of the
line or from `/*` to the next `*/`.
-/

namespace MiniApp

namespace Lexical

/-- White space between tokens. -/
def isSpace (c : Char) : Bool := c = ' ' || c = '\t' || c = '\r' || c = '\n'

/-- The first character of a word. -/
def isWordStart (c : Char) : Bool := ('a' ≤ c && c ≤ 'z') || ('A' ≤ c && c ≤ 'Z') || c = '_'

/-- A later character of a word. -/
def isWordPart (c : Char) : Bool := isWordStart c || Text.isAsciiDigit c || c = '-'

/-- What the head of a text is: something to skip, or a lexeme with its kind and the text that its
token carries. In both cases `length` characters are taken. -/
inductive Piece where
  | skip (length : Nat)
  | lexeme (kind : TokenKind) (text : List Char) (length : Nat)
  deriving DecidableEq, Repr

/-- Characters taken by a piece. -/
def Piece.length : Piece → Nat
  | .skip n => n
  | .lexeme _ _ n => n

/-- The head of a text that starts no piece. -/
inductive Failure where
  | unterminatedComment
  | unterminatedString
  | unexpectedCharacter (c : Char)
  deriving DecidableEq, Repr

/-- Length up to and including the first `*/`, if there is one. -/
def commentEnd? : List Char → Option Nat
  | '*' :: '/' :: _ => some 2
  | _ :: cs => (commentEnd? cs).map (· + 1)
  | [] => none

/-- The text of a number at the head: digits, and a point with more digits if a digit follows it. -/
def numberText (cs : List Char) : List Char :=
  let whole := cs.takeWhile Text.isAsciiDigit
  match cs.drop whole.length with
  | '.' :: d :: rest =>
    if Text.isAsciiDigit d then whole ++ '.' :: (d :: rest).takeWhile Text.isAsciiDigit else whole
  | _ => whole

/-- An operator or punctuator at the head. -/
def sign (c : Char) (cs : List Char) : Except Failure Piece :=
  match TokenKind.pairs.lookup (String.ofList (c :: cs.take 1)) with
  | some k => .ok (.lexeme k (c :: cs.take 1) 2)
  | none => match TokenKind.singles.lookup c with
    | some k => .ok (.lexeme k [c] 1)
    | none => .error (.unexpectedCharacter c)

/-- The piece at the head of the text `c :: cs`. -/
def next (c : Char) (cs : List Char) : Except Failure Piece :=
  if isSpace c then .ok (.skip (cs.takeWhile isSpace).length.succ)
  else if c = '/' && cs.head? == some '/' then
    .ok (.skip (cs.takeWhile (· != '\n')).length.succ)
  else if c = '/' && cs.head? == some '*' then
    match commentEnd? cs.tail with
    | some n => .ok (.skip (n + 2))
    | none => .error .unterminatedComment
  else if c = '"' then
    let inner := cs.takeWhile (· != '"')
    if inner.length < cs.length then .ok (.lexeme .string inner (inner.length + 2))
    else .error .unterminatedString
  else if Text.isAsciiDigit c then
    .ok (.lexeme .number (numberText (c :: cs)) (numberText (c :: cs)).length)
  else if isWordStart c then
    let word := c :: cs.takeWhile isWordPart
    .ok (.lexeme (.ofWord (String.ofList word)) word word.length)
  else sign c cs

/-- The diagnostic for a text that cannot be split further. -/
def Failure.diagnostic (pos : Position) : Failure → Diagnostic
  | .unterminatedComment => .located pos .unterminatedComment "Unterminated multi-line comment"
  | .unterminatedString => .located pos .unterminatedString "Unterminated string literal"
  | .unexpectedCharacter c =>
    .located pos (.unexpectedCharacter (some (String.singleton c)))
      ("Unexpected character " ++ Text.quoted (String.singleton c))

/-- Read at most `fuel` pieces of a text that stands at `pos`. -/
def scanFrom : Nat → Position → List Char → Except (Position × Failure) (List Token)
  | _, pos, [] => .ok [⟨.eof, "", pos⟩]
  | 0, pos, _ => .ok [⟨.eof, "", pos⟩]
  | fuel + 1, pos, c :: cs =>
    match next c cs with
    | .error f => .error (pos, f)
    | .ok piece =>
      let taken := (c :: cs).take piece.length
      let rest := (c :: cs).drop piece.length
      match piece, scanFrom fuel (pos.after taken) rest with
      | .lexeme kind text _, .ok tokens => .ok (⟨kind, String.ofList text, pos⟩ :: tokens)
      | .skip _, result => result
      | _, .error e => .error e

end Lexical

/-- The tokens of a text, the end marker last. A piece takes at least one character, so there are at
most as many pieces as characters. The path is only named in diagnostics. -/
def Token.scan (path source : String) : Except Diagnostic (List Token) :=
  match Lexical.scanFrom source.toList.length .start source.toList with
  | .ok tokens => .ok tokens
  | .error (pos, f) => .error ((f.diagnostic pos).inFile path)

end MiniApp
