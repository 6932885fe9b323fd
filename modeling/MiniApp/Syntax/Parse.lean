import MiniApp.Syntax.Basic
import MiniApp.Syntax.Cursor
import MiniApp.Token.Scan

/-!
# Parsing

Programs are parsed by recursive descent. Expressions bind, from loosest to tightest: assignment (to
the right), `||`, `&&`, equality, order, sums, products, the unary operators, calls.

Nesting is limited: the recursive parsers take an *allowance*, one unit of which is spent on every
level of nested statements, operators and parentheses.

## Main definitions

* `Parser.expression`, `Parser.statement`: the recursive parsers
* `Program.parseTokens`: the program that a list of tokens spells
* `Program.parse`: the program that a text spells
-/

namespace MiniApp

namespace Parser

/-! ## Expressions -/

/-- What an operator token makes of its two operands. -/
abbrev Joiner := TokenKind → Option (Position → Expr → Expr → Expr)

/-- Operands joined to the left, at most `fuel` joins onto `left`. -/
def joins (joiner : Joiner) (operand : Parser Expr) : Nat → Expr → Parser Expr
  | 0, left => pure left
  | fuel + 1, left => do
    match joiner (← current).kind with
    | none => return left
    | some join =>
      let _ ← advance
      let right ← operand
      joins joiner operand fuel (join left.pos left right)

/-- One level of operators that associate to the left. -/
def leftAssociative (joiner : Joiner) (operand : Parser Expr) : Parser Expr := do
  let left ← operand
  joins joiner operand (← bound) left

/-- Products. -/
def product : Joiner
  | .star => some (.binary · .mul)
  | .slash => some (.binary · .div)
  | .percent => some (.binary · .mod)
  | _ => none

/-- Sums. -/
def sum : Joiner
  | .plus => some (.binary · .add)
  | .minus => some (.binary · .sub)
  | _ => none

/-- Comparisons by order. -/
def order : Joiner
  | .lt => some (.binary · .lt)
  | .gt => some (.binary · .gt)
  | .le => some (.binary · .le)
  | .ge => some (.binary · .ge)
  | _ => none

/-- Comparisons for equality. -/
def equality : Joiner
  | .eq => some (.binary · .eq)
  | .ne => some (.binary · .ne)
  | _ => none

/-- Conjunctions. -/
def conjunction : Joiner
  | .and => some (.logical · .and)
  | _ => none

/-- Disjunctions. -/
def disjunction : Joiner
  | .or => some (.logical · .or)
  | _ => none

/-- All levels of binary operators over the unary level. -/
def operators (unary : Parser Expr) : Parser Expr :=
  leftAssociative disjunction <| leftAssociative conjunction <| leftAssociative equality <|
    leftAssociative order <| leftAssociative sum <| leftAssociative product unary

/-- Arguments between parentheses. -/
def argumentList (expression : Parser Expr) : Parser (List Expr) := do
  let _ ← expect [.lparen]
  let arguments ← if ← looksAt [.rparen] then pure [] else commaSeparated expression (← bound)
  let _ ← expect [.rparen]
  return arguments

/-- Argument lists applied to `callee`, at most `fuel` of them. -/
def callSuffixes (expression : Parser Expr) : Nat → Expr → Parser Expr
  | 0, callee => pure callee
  | fuel + 1, callee => do
    if ← looksAt [.lparen] then
      let arguments ← argumentList expression
      callSuffixes expression fuel (.call callee.pos callee arguments)
    else return callee

/-- The diagnostic for an assignment to something that is no name. -/
def invalidTarget (operator : Token) (target : Expr) : Diagnostic :=
  .located operator.pos
    (.invalidTarget {
      expected := ["identifier"]
      found := some target.kindName
      suggestion := some "Only variables can be assigned to" })
    "Invalid assignment target"

/-- The diagnostic for a token that starts no expression. -/
def expressionWanted (token : Token) : Diagnostic :=
  .located token.pos
    (.unexpectedToken { expected := ["expression"], found := some token.describe })
    "Expected expression"

mutual

/-- An expression: an assignment or a level below. -/
def expression : Nat → Parser Expr
  | 0 => tooDeep
  | allowance + 1 => do
    let target ← operators (unary allowance)
    if ← looksAt [.assign] then
      let operator ← advance
      let value ← expression allowance
      -- only now, behind the value, is the target looked at
      match target with
      | .ident pos name => return .assign pos name value
      | _ => reject (invalidTarget operator target)
    else return target

/-- A unary operator with its operand, or a call. -/
def unary : Nat → Parser Expr
  | 0 => tooDeep
  | allowance + 1 => do
    if ← looksAt [.not, .minus] then
      let operator ← advance
      let operand ← unary allowance
      return .unary operator.pos (.ofSymbol operator.text) operand
    else
      let callee ← primary allowance
      callSuffixes (expression allowance) (← bound) callee

/-- A literal, a name, an expression between parentheses or a content call. -/
def primary : Nat → Parser Expr
  | 0 => tooDeep
  | allowance + 1 => do
    let token ← current
    match token.kind with
    | .number =>
      let _ ← advance
      let value ← ofFault (Number.read token.text)
      return .number token.pos value token.text
    | .string =>
      let _ ← advance
      return .string token.pos token.text
    | .boolean =>
      let _ ← advance
      return .bool token.pos (token.text == "true")
    | .null =>
      let _ ← advance
      return .null token.pos
    | .identifier =>
      let _ ← advance
      return .ident token.pos token.text
    | .lparen =>
      let _ ← advance
      -- parentheses leave no trace in the tree
      let inner ← expression allowance
      let _ ← expect [.rparen]
      return inner
    | .call =>
      let _ ← advance
      let arguments ← argumentList (expression allowance)
      return .content token.pos arguments
    | _ => reject (expressionWanted token)

end

/-! ## Statements -/

/-- Statements between braces. -/
def braces (statement : Parser Stmt) : Parser Block := do
  let brace ← expect [.lbrace]
  let body ← untilDone (looksAt [.rbrace, .eof]) statement (← bound)
  let _ ← expect [.rbrace]
  return .mk brace.pos body

/-- The diagnostic for a property with a wrong number of arguments. -/
def propertyArity (keyword : Token) (property : Property) (count : Nat) : Diagnostic :=
  .located keyword.pos
    (.propertyArity
      { expected := [property.arity], found := some (toString count ++ " argument(s)") }
      (some keyword.text))
    (keyword.text ++ "() takes " ++ property.arity ++ ", got " ++ toString count)

/-- A property declaration. -/
def propertyDeclaration (expression : Parser Expr) : Parser Stmt := do
  let keyword ← advance
  match Property.ofKeyword? keyword.text with
  | none => throw (.fault .unknownProperty)
  | some property =>
    let arguments ← argumentList expression
    -- counted before the semicolon is asked for
    if property.accepts arguments.length then
      let _ ← expect [.semicolon]
      return .property keyword.pos property arguments.head?
    else reject (propertyArity keyword property arguments.length)

/-- Whether a body section ends here. -/
def atBodyEnd : Parser Bool := fun c =>
  .ok (c.current.kind = .slash && (c.rest.tail.head?.getD c.stop).kind = .body) c

/-- One statement of a body section, which may be no body section itself. -/
def bodyItem (keyword : Token) (statement : Parser Stmt) : Parser Stmt := do
  let token ← current
  match token.kind with
  | .eof =>
    reject (.located token.pos
      (.unexpectedToken {
        expected := ["'/body'"]
        found := some "end of input"
        suggestion := some "Close the section with /body" })
      ("Body section opened at line " ++ toString keyword.pos.line ++ " is never closed"))
  | .body => reject (syntaxError token "Body sections cannot be nested")
  | _ => statement

/-- The style that a body section refers to. -/
def styleReference (token : Token) : Expr :=
  if token.kind = .string then .string token.pos token.text else .ident token.pos token.text

/-- A body section. -/
def bodyDeclaration (statement : Parser Stmt) : Parser Stmt := do
  let keyword ← expect [.body]
  let _ ← expect [.at]
  let _ ← expect [.lparen]
  let _ ← expect [.style]
  let _ ← expect [.colon]
  let style ← expect [.string, .identifier]
  let _ ← expect [.rparen]
  let content ← untilDone atBodyEnd (bodyItem keyword statement) (← bound)
  let _ ← expect [.slash]
  let _ ← expect [.body]
  let _ ← consumeIf .semicolon
  return .body keyword.pos (styleReference style) content

/-- Distinct parameter names with commas between them, at most `fuel` more after those `seen`. -/
def parameterNames (function : String) : Nat → List String → Parser (List String)
  | 0, seen => pure seen
  | fuel + 1, seen => do
    let parameter ← expect [.identifier]
    if seen.contains parameter.text then
      reject (syntaxError parameter
        ("Duplicate parameter '" ++ parameter.text ++ "' in function '" ++ function ++ "'"))
    else if ← consumeIf .comma then parameterNames function fuel (seen ++ [parameter.text])
    else return seen ++ [parameter.text]

/-- A function declaration. -/
def functionDeclaration (block : Parser Block) : Parser Stmt := do
  let keyword ← expect [.func]
  let name ← expect [.identifier]
  let _ ← expect [.lparen]
  let parameters ←
    if ← looksAt [.rparen] then pure [] else parameterNames name.text (← bound) []
  let _ ← expect [.rparen]
  let body ← block
  return .func keyword.pos name.text parameters body

/-- The diagnostic for a constant without a value. -/
def missingInitializer (token : Token) (name : String) : Diagnostic :=
  .located token.pos
    (.unexpectedToken { expected := [TokenKind.assign.describe], found := some token.describe })
    ("Missing initializer in const declaration of '" ++ name ++ "'")

/-- The parts of a variable declaration. -/
structure Declared where
  pos : Position
  kind : DeclarationKind
  name : String
  init : Option Expr

/-- A variable declaration. -/
def variableDeclaration (expression : Parser Expr) : Parser Declared := do
  let keyword ← expect [.let, .const]
  match DeclarationKind.ofKeyword? keyword.text with
  | none => throw (.fault .unknownDeclaration)
  | some kind =>
    let name ← expect [.identifier]
    let init ←
      if ← consumeIf .assign then
        let value ← expression
        pure (some value)
      -- reported at the token behind the name
      else if kind = .const then reject (missingInitializer (← current) name.text)
      else pure none
    let _ ← expect [.semicolon]
    return ⟨keyword.pos, kind, name.text, init⟩

/-- A test between parentheses. -/
def parenthesized (expression : Parser Expr) : Parser Expr := do
  let _ ← expect [.lparen]
  let test ← expression
  let _ ← expect [.rparen]
  return test

/-- What follows the block of an `if`, through at most `fuel` further ones. -/
def alternate (expression : Parser Expr) (block : Parser Block) : Nat → Parser Else
  | 0 => pure .none
  | fuel + 1 => do
    if ← consumeIf .else then
      if ← looksAt [.if] then
        let keyword ← expect [.if]
        let test ← parenthesized expression
        let consequent ← block
        let rest ← alternate expression block fuel
        return .elseIf keyword.pos test consequent rest
      else
        let last ← block
        return .block last
    else return .none

/-- An `if` statement. -/
def ifStatement (expression : Parser Expr) (block : Parser Block) : Parser Stmt := do
  let keyword ← expect [.if]
  let test ← parenthesized expression
  let consequent ← block
  let rest ← alternate expression block (← bound)
  return .ifElse keyword.pos test consequent rest

/-- A `while` statement. -/
def whileStatement (expression : Parser Expr) (block : Parser Block) : Parser Stmt := do
  let keyword ← expect [.while]
  let test ← parenthesized expression
  let body ← block
  return .while keyword.pos test body

/-- An expression with its semicolon, and its place. -/
def expressionStatement (expression : Parser Expr) : Parser (Position × Expr) := do
  let start ← current
  let value ← expression
  let _ ← expect [.semicolon]
  return (start.pos, value)

/-- What a `for` statement starts with. -/
def forInit (expression : Parser Expr) : Parser ForInit := do
  if ← looksAt [.let, .const] then
    let d ← variableDeclaration expression
    return .declare d.pos d.kind d.name d.init
  else if ← consumeIf .semicolon then return .none
  else
    let (pos, value) ← expressionStatement expression
    return .expr pos value

/-- An expression, unless a token of the given kind comes at once. -/
def optionalBefore (kind : TokenKind) (expression : Parser Expr) : Parser (Option Expr) := do
  if ← looksAt [kind] then return none
  else
    let value ← expression
    return some value

/-- A `for` statement. -/
def forStatement (expression : Parser Expr) (block : Parser Block) : Parser Stmt := do
  let keyword ← expect [.for]
  let _ ← expect [.lparen]
  let init ← forInit expression
  let test ← optionalBefore .semicolon expression
  let _ ← expect [.semicolon]
  let update ← optionalBefore .rparen expression
  let _ ← expect [.rparen]
  let body ← block
  return .for keyword.pos init test update body

/-- A `return` statement. -/
def returnStatement (expression : Parser Expr) : Parser Stmt := do
  let keyword ← expect [.return]
  let value ← optionalBefore .semicolon expression
  let _ ← expect [.semicolon]
  return .return keyword.pos value

/-- A statement, chosen by its first token. -/
def statement : Nat → Parser Stmt
  | 0 => tooDeep
  | allowance + 1 => do
    let token ← current
    match token.kind with
    | .nameAppMini | .webPackageMini | .webMiniVersion | .miniVersion | .miniAppIcon =>
      propertyDeclaration (expression allowance)
    | .body => bodyDeclaration (statement allowance)
    | .func => functionDeclaration (braces (statement allowance))
    | .let | .const =>
      let d ← variableDeclaration (expression allowance)
      return .declare d.pos d.kind d.name d.init
    | .if => ifStatement (expression allowance) (braces (statement allowance))
    | .while => whileStatement (expression allowance) (braces (statement allowance))
    | .for => forStatement (expression allowance) (braces (statement allowance))
    | .return => returnStatement (expression allowance)
    | .break =>
      let keyword ← expect [.break]
      let _ ← expect [.semicolon]
      return .break keyword.pos
    | .continue =>
      let keyword ← expect [.continue]
      let _ ← expect [.semicolon]
      return .continue keyword.pos
    | .lbrace =>
      let b ← braces (statement allowance)
      return .block b
    | _ =>
      let (pos, value) ← expressionStatement (expression allowance)
      return .expr pos value

/-- All statements up to the end marker. -/
def program (allowance : Nat) : Parser Program := do
  let first ← current
  let body ← untilDone (looksAt [.eof]) (statement allowance) (← bound)
  return ⟨first.pos, body⟩

end Parser

/-- The allowance of nested constructs. -/
def nestingAllowance : Nat := 1000

/-- The cursor at the start of a list of tokens that ends with the end marker. What follows the
first end marker is out of reach. -/
def Cursor.ofTokens? (tokens : List Token) : Option Cursor :=
  if tokens.getLast?.any (·.kind = .eof) then
    (tokens.find? (·.kind = .eof)).map fun stop =>
      { previous := none, rest := tokens.takeWhile (·.kind ≠ .eof), stop }
  else none

namespace Program

/-- The program that a list of tokens spells within an allowance of nesting. -/
def parseTokensWithin (allowance : Nat) (path : String) (tokens : List Token) :
    Except ParseFailure Program :=
  match Cursor.ofTokens? tokens with
  | none => .error (.fault .missingEnd)
  | some cursor =>
    match Parser.program allowance cursor with
    | .ok p _ => .ok p
    | .error f _ => .error (f.inFile path)

/-- The program that a list of tokens spells. -/
def parseTokens (path : String) (tokens : List Token) : Except ParseFailure Program :=
  parseTokensWithin nestingAllowance path tokens

/-- The program that a text spells within an allowance of nesting. -/
def parseWithin (allowance : Nat) (path source : String) : Except ParseFailure Program := do
  let tokens ← (Token.scan path source).mapError .rejected
  parseTokensWithin allowance path tokens

/-- The program that a text spells. -/
def parse (path source : String) : Except ParseFailure Program :=
  parseWithin nestingAllowance path source

end Program

end MiniApp
