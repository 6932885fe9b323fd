/-!
# Kinds of tokens

Every token has a kind: the end marker, five kinds of literals and names, the keywords, and the
operators and punctuators. Keywords and signs have a fixed spelling.
-/

namespace MiniApp

/-- The kind of a token. -/
inductive TokenKind where
  | eof
  | identifier | number | string | boolean | null
  | nameAppMini | webPackageMini | webMiniVersion | miniVersion | miniAppIcon
  | body | style | call
  | func | return | if | else | for | while | break | continue | let | const
  | assign | plus | minus | star | slash | percent
  | eq | ne | lt | gt | le | ge | and | or | not
  | lparen | rparen | lbrace | rbrace | lbracket | rbracket
  | comma | semicolon | colon | dot | at
  deriving DecidableEq, Repr, Inhabited

namespace TokenKind

/-- The name under which a kind is listed. -/
def name : TokenKind → String
  | .eof => "EOF"
  | .identifier => "IDENTIFIER"
  | .number => "NUMBER"
  | .string => "STRING"
  | .boolean => "BOOLEAN"
  | .null => "NULL"
  | .nameAppMini => "NAME_APP_MINI"
  | .webPackageMini => "WEB_PACKAGE_MINI"
  | .webMiniVersion => "WEB_MINI_VERSION"
  | .miniVersion => "MINI_VERSION"
  | .miniAppIcon => "MINI_APP_ICON"
  | .body => "BODY"
  | .style => "STYLE"
  | .call => "CALL"
  | .func => "FUNC"
  | .return => "RETURN"
  | .if => "IF"
  | .else => "ELSE"
  | .for => "FOR"
  | .while => "WHILE"
  | .break => "BREAK"
  | .continue => "CONTINUE"
  | .let => "LET"
  | .const => "CONST"
  | .assign => "ASSIGN"
  | .plus => "PLUS"
  | .minus => "MINUS"
  | .star => "STAR"
  | .slash => "SLASH"
  | .percent => "PERCENT"
  | .eq => "EQ"
  | .ne => "NE"
  | .lt => "LT"
  | .gt => "GT"
  | .le => "LE"
  | .ge => "GE"
  | .and => "AND"
  | .or => "OR"
  | .not => "NOT"
  | .lparen => "LPAREN"
  | .rparen => "RPAREN"
  | .lbrace => "LBRACE"
  | .rbrace => "RBRACE"
  | .lbracket => "LBRACKET"
  | .rbracket => "RBRACKET"
  | .comma => "COMMA"
  | .semicolon => "SEMICOLON"
  | .colon => "COLON"
  | .dot => "DOT"
  | .at => "AT"

/-- All kinds, in listing order. -/
def all : List TokenKind := [
  .eof, .identifier, .number, .string, .boolean, .null,
  .nameAppMini, .webPackageMini, .webMiniVersion, .miniVersion, .miniAppIcon,
  .body, .style, .call,
  .func, .return, .if, .else, .for, .while, .break, .continue, .let, .const,
  .assign, .plus, .minus, .star, .slash, .percent,
  .eq, .ne, .lt, .gt, .le, .ge, .and, .or, .not,
  .lparen, .rparen, .lbrace, .rbrace, .lbracket, .rbracket,
  .comma, .semicolon, .colon, .dot, .at]

/-- The kind of a given name. -/
def ofName? (s : String) : Option TokenKind := all.find? (·.name == s)

/-- The words that are not identifiers, with the kinds they have. -/
def words : List (String × TokenKind) := [
  ("name_app_mini", .nameAppMini), ("web_package_mini", .webPackageMini),
  ("web_mini_version", .webMiniVersion), ("mini_version", .miniVersion),
  ("mini_app_icon", .miniAppIcon),
  ("body", .body), ("style", .style), ("Call", .call),
  ("func", .func), ("return", .return), ("if", .if), ("else", .else), ("for", .for),
  ("while", .while), ("break", .break), ("continue", .continue), ("let", .let),
  ("const", .const), ("true", .boolean), ("false", .boolean), ("null", .null)]

/-- The kind of a word: a keyword, a literal word or an identifier. -/
def ofWord (s : String) : TokenKind := (words.lookup s).getD .identifier

/-- The operators of two characters. -/
def pairs : List (String × TokenKind) := [
  ("==", .eq), ("!=", .ne), ("<=", .le), (">=", .ge), ("&&", .and), ("||", .or)]

/-- The operators and punctuators of one character. -/
def singles : List (Char × TokenKind) := [
  ('=', .assign), ('+', .plus), ('-', .minus), ('*', .star), ('/', .slash), ('%', .percent),
  ('<', .lt), ('>', .gt), ('!', .not), ('(', .lparen), (')', .rparen), ('\x7b', .lbrace),
  ('\x7d', .rbrace), ('[', .lbracket), (']', .rbracket), (',', .comma), (';', .semicolon),
  (':', .colon), ('.', .dot), ('@', .at)]

/-- The kinds that stand for a property of the application. -/
def isProperty : TokenKind → Bool
  | .nameAppMini | .webPackageMini | .webMiniVersion | .miniVersion | .miniAppIcon => true
  | _ => false

/-- The fixed spelling of keywords and signs. -/
def spelling? : TokenKind → Option String
  | .eof | .identifier | .number | .string | .boolean | .null => none
  | k =>
    match words.find? (·.2 == k), pairs.find? (·.2 == k), singles.find? (·.2 == k) with
    | some w, _, _ => some w.1
    | _, some p, _ => some p.1
    | _, _, some s => some (String.singleton s.1)
    | _, _, _ => none

/-- Whether a kind is a keyword of fixed spelling. -/
def isKeyword (k : TokenKind) : Bool := k.spelling?.isSome && words.any (·.2 == k)

/-- The kind in the words of an error message. -/
def describe : TokenKind → String
  | .eof => "eof"
  | .identifier => "identifier"
  | .number => "number"
  | .string => "string"
  | .boolean => "boolean"
  | .null => "null"
  | k =>
    let shown := "'" ++ k.spelling?.getD "" ++ "'"
    if k.isKeyword then "keyword " ++ shown else shown

end TokenKind

end MiniApp
