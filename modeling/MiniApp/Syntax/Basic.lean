import MiniApp.Number
import MiniApp.Position
import MiniApp.Syntax.Operator

/-!
# Syntax trees

Expressions, statements and programs. Every node carries the place of its first token. An assignment
stands where its target stands, so one place serves both.
-/

namespace MiniApp

/-- Expressions. -/
inductive Expr where
  | ident (pos : Position) (name : String)
  | number (pos : Position) (value : Number) (raw : String)
  | string (pos : Position) (value : String)
  | bool (pos : Position) (value : Bool)
  | null (pos : Position)
  | binary (pos : Position) (op : BinaryOp) (left right : Expr)
  | logical (pos : Position) (op : LogicalOp) (left right : Expr)
  | unary (pos : Position) (op : UnaryOp) (operand : Expr)
  | assign (pos : Position) (target : String) (value : Expr)
  | call (pos : Position) (callee : Expr) (arguments : List Expr)
  | content (pos : Position) (arguments : List Expr)

namespace Expr

/-- The place of an expression's first token. -/
def pos : Expr → Position
  | .ident p _ | .number p _ _ | .string p _ | .bool p _ | .null p | .binary p _ _ _
  | .logical p _ _ _ | .unary p _ _ | .assign p _ _ | .call p _ _ | .content p _ => p

/-- The name of an expression's kind. -/
def kindName : Expr → String
  | .ident .. => "Identifier"
  | .number .. => "NumberLiteral"
  | .string .. => "StringLiteral"
  | .bool .. => "BooleanLiteral"
  | .null .. => "NullLiteral"
  | .binary .. => "BinaryExpression"
  | .logical .. => "LogicalExpression"
  | .unary .. => "UnaryExpression"
  | .assign .. => "AssignmentExpression"
  | .call .. => "CallExpression"
  | .content .. => "ContentCall"

instance : Inhabited Expr := ⟨.null .start⟩

end Expr

/-- What a `for` statement starts with. -/
inductive ForInit where
  | none
  | declare (pos : Position) (kind : DeclarationKind) (name : String) (init : Option Expr)
  | expr (pos : Position) (value : Expr)

mutual

/-- Statements. -/
inductive Stmt where
  | block (b : Block)
  | declare (pos : Position) (kind : DeclarationKind) (name : String) (init : Option Expr)
  | func (pos : Position) (name : String) (parameters : List String) (body : Block)
  | property (pos : Position) (kind : Property) (argument : Option Expr)
  | body (pos : Position) (style : Expr) (content : List Stmt)
  | ifElse (pos : Position) (test : Expr) (consequent : Block) (alternate : Else)
  | while (pos : Position) (test : Expr) (body : Block)
  | for (pos : Position) (init : ForInit) (test update : Option Expr) (body : Block)
  | return (pos : Position) (value : Option Expr)
  | break (pos : Position)
  | continue (pos : Position)
  | expr (pos : Position) (value : Expr)

/-- What follows the block of an `if`: nothing, a last block, or another `if`. -/
inductive Else where
  | none
  | block (b : Block)
  | elseIf (pos : Position) (test : Expr) (consequent : Block) (alternate : Else)

/-- Statements between braces. -/
inductive Block where
  | mk (pos : Position) (body : List Stmt)

end

/-- The place of a block's opening brace. -/
def Block.pos : Block → Position
  | .mk p _ => p

/-- The statements of a block. -/
def Block.body : Block → List Stmt
  | .mk _ b => b

namespace Stmt

/-- The place of a statement's first token. -/
def pos : Stmt → Position
  | .block b => b.pos
  | .declare p _ _ _ | .func p _ _ _ | .property p _ _ | .body p _ _ | .ifElse p _ _ _
  | .while p _ _ | .for p _ _ _ _ | .return p _ | .break p | .continue p | .expr p _ => p

instance : Inhabited Stmt := ⟨.break .start⟩

end Stmt

instance : Inhabited Else := ⟨.none⟩

instance : Inhabited Block := ⟨.mk .start []⟩

/-- A program: its statements and the place of its first token. -/
structure Program where
  pos : Position
  body : List Stmt
  deriving Inhabited

end MiniApp
