import MiniApp.Syntax.Basic

/-!
# Canonical source text

Programs are printed one statement a line, blocks indented by a chosen unit, and every compound
operand between parentheses. The text depends on the structure of the program alone.
-/

namespace MiniApp

/-- Operators and assignments are put between parentheses when they are operands. -/
def Expr.isCompound : Expr → Bool
  | .binary .. | .logical .. | .unary .. | .assign .. => true
  | _ => false

/-- The text of an operand, given whether it is compound. -/
def operandText (compound : Bool) (text : String) : String :=
  if compound then "(" ++ text ++ ")" else text

mutual

/-- The text of an expression. A number keeps the spelling it was read with. -/
def Expr.text : Expr → String
  | .ident _ name => name
  | .number _ value raw => if raw.isEmpty then value.literal else raw
  | .string _ value => "\"" ++ value ++ "\""
  | .bool _ value => if value then "true" else "false"
  | .null _ => "null"
  | .binary _ op l r =>
    operandText l.isCompound l.text ++ " " ++ op.symbol ++ " " ++ operandText r.isCompound r.text
  | .logical _ op l r =>
    operandText l.isCompound l.text ++ " " ++ op.symbol ++ " " ++ operandText r.isCompound r.text
  | .unary _ op e => op.symbol ++ operandText e.isCompound e.text
  | .assign _ target e => target ++ " = " ++ operandText e.isCompound e.text
  | .call _ callee arguments =>
    operandText callee.isCompound callee.text ++ "(" ++
      ", ".intercalate (Expr.texts arguments) ++ ")"
  | .content _ arguments => "Call(" ++ ", ".intercalate (Expr.texts arguments) ++ ")"

/-- The texts of several expressions. -/
def Expr.texts : List Expr → List String
  | [] => []
  | e :: es => e.text :: Expr.texts es

end

/-- Some text before an expression, or nothing when there is none. -/
def optionalText (lead : String) : Option Expr → String
  | none => ""
  | some e => lead ++ e.text

/-- The text of a declaration. -/
def declarationText (kind : DeclarationKind) (name : String) (init : Option Expr) : String :=
  kind.keyword ++ " " ++ name ++ optionalText " = " init ++ ";"

/-- The text of what a `for` statement starts with, its semicolon included. -/
def ForInit.text : ForInit → String
  | .none => ";"
  | .declare _ kind name init => declarationText kind name init
  | .expr _ e => e.text ++ ";"

/-- White space in front of a line. -/
def indentation (unit : String) : Nat → String
  | 0 => ""
  | depth + 1 => indentation unit depth ++ unit

/-- The head of an `if`. -/
def ifHead (test : Expr) : String := "if (" ++ test.text ++ ") \x7b"

mutual

/-- The lines of a statement at a given depth. -/
def Stmt.lines (unit : String) (depth : Nat) : Stmt → List String
  | .block b =>
    (indentation unit depth ++ "\x7b") :: b.inner unit depth ++ [indentation unit depth ++ "\x7d"]
  | .declare _ kind name init => [indentation unit depth ++ declarationText kind name init]
  | .func _ name parameters b =>
    (indentation unit depth ++ "func " ++ name ++ "(" ++ ", ".intercalate parameters ++ ") \x7b") ::
      b.inner unit depth ++ [indentation unit depth ++ "\x7d"]
  | .property _ kind argument =>
    [indentation unit depth ++ kind.keyword ++ "(" ++ optionalText "" argument ++ ");"]
  | .body _ style content =>
    (indentation unit depth ++ "body@ (style: " ++ style.text ++ ")") ::
      Stmt.listLines unit (depth + 1) content ++ [indentation unit depth ++ "/body;"]
  | .ifElse _ test b rest =>
    (indentation unit depth ++ ifHead test) :: b.inner unit depth ++ rest.lines unit depth
  | .while _ test b =>
    (indentation unit depth ++ "while (" ++ test.text ++ ") \x7b") ::
      b.inner unit depth ++ [indentation unit depth ++ "\x7d"]
  | .for _ init test update b =>
    (indentation unit depth ++ "for (" ++ init.text ++ optionalText " " test ++ ";" ++
        optionalText " " update ++ ") \x7b") ::
      b.inner unit depth ++ [indentation unit depth ++ "\x7d"]
  | .return _ value => [indentation unit depth ++ "return" ++ optionalText " " value ++ ";"]
  | .break _ => [indentation unit depth ++ "break;"]
  | .continue _ => [indentation unit depth ++ "continue;"]
  | .expr _ e => [indentation unit depth ++ e.text ++ ";"]

/-- The lines from the closing brace of an `if` block on. -/
def Else.lines (unit : String) (depth : Nat) : Else → List String
  | .none => [indentation unit depth ++ "\x7d"]
  | .block b =>
    (indentation unit depth ++ "\x7d else \x7b") ::
      b.inner unit depth ++ [indentation unit depth ++ "\x7d"]
  | .elseIf _ test b rest =>
    (indentation unit depth ++ "\x7d else " ++ ifHead test) ::
      b.inner unit depth ++ rest.lines unit depth

/-- The lines between the braces of a block whose head stands at the given depth. -/
def Block.inner (unit : String) (depth : Nat) : Block → List String
  | .mk _ body => Stmt.listLines unit (depth + 1) body

/-- The lines of several statements. -/
def Stmt.listLines (unit : String) (depth : Nat) : List Stmt → List String
  | [] => []
  | s :: ss => s.lines unit depth ++ Stmt.listLines unit depth ss

end

namespace Program

/-- The unit of indentation unless another one is chosen. -/
def defaultIndent : String := "    "

/-- The canonical text of a program; every line ends with a line feed. -/
def format (unit : String) (p : Program) : String :=
  String.join ((Stmt.listLines unit 0 p.body).map (· ++ "\n"))

end Program

end MiniApp
