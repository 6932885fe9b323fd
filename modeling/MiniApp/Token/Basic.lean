import MiniApp.Position
import MiniApp.Text.Quoted
import MiniApp.Token.Kind

/-!
# Tokens

A token is a kind, the text it stands for and the place of its first character. The text of a string
token is what stands between the quotes.
-/

namespace MiniApp

/-- A token of source text. -/
structure Token where
  kind : TokenKind
  text : String
  pos : Position
  deriving DecidableEq, Repr, Inhabited

namespace Token

/-- The token in the words of an error message. -/
def describe (t : Token) : String :=
  match t.kind with
  | .eof => "end of input"
  | .identifier => "identifier '" ++ t.text ++ "'"
  | .number => "number " ++ t.text
  | .string => "string \"" ++ t.text ++ "\""
  | .boolean | .null => t.text
  | k => k.describe

/-- The token as a listing shows it. -/
def listing (t : Token) : String :=
  "Token(" ++ t.kind.name ++ ", " ++ Text.quoted t.text ++ ", " ++ toString t.pos.line ++ ":" ++
    toString t.pos.column ++ ")"

end Token

end MiniApp
