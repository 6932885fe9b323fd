import MiniApp.Data.Basic
import MiniApp.Syntax.Basic

/-!
# Listings of syntax trees

A listing shows a tree with all its parts: the kind of a node, its place and its fields by name, one
inside the other. Logs use it, where a program in its canonical form would not show places.
-/

namespace MiniApp

namespace Listing

/-- A list between parentheses; a comma marks a list of one. -/
def tuple : List String → String
  | [] => "()"
  | [one] => "(" ++ one ++ ",)"
  | many => "(" ++ ", ".intercalate many ++ ")"

/-- A kind with fields. -/
def record (kind : String) (fields : List (String × String)) : String :=
  kind ++ "(" ++ ", ".intercalate (fields.map fun (name, text) => name ++ "=" ++ text) ++ ")"

/-- The fields that give a place. -/
def place (pos : Position) : List (String × String) :=
  [("line", toString pos.line), ("column", toString pos.column)]

/-- A node: its kind, its place and its fields. -/
def node (kind : String) (pos : Position) (fields : List (String × String)) : String :=
  record kind (place pos ++ fields)

/-- The text for a missing part. -/
def absent : String := Data.null.literal

end Listing

open Listing

/-- A number in a listing. -/
def Number.listing : Number → String
  | .int i => (Data.int i).literal
  | .double d => (Data.double d).literal

/-- A keyword of a declaration in a listing. -/
def DeclarationKind.listing (k : DeclarationKind) : String :=
  "<DeclarationKind." ++ k.keyword.map Char.toUpper ++ ": " ++ Text.quoted k.keyword ++ ">"

/-- A property in a listing. -/
def Property.listing (p : Property) : String :=
  "<PropertyKind." ++ p.name ++ ": " ++
    tuple [Text.quoted p.keyword, Text.quoted p.field, toString p.minArity, toString p.maxArity] ++
    ">"

mutual

/-- An expression in a listing. -/
def Expr.listing : Expr → String
  | .ident pos name => node "Identifier" pos [("name", Text.quoted name)]
  | .number pos value raw =>
    node "NumberLiteral" pos [("value", value.listing), ("raw", Text.quoted raw)]
  | .string pos value => node "StringLiteral" pos [("value", Text.quoted value)]
  | .bool pos value => node "BooleanLiteral" pos [("value", (Data.bool value).literal)]
  | .null pos => node "NullLiteral" pos []
  | .binary pos op left right =>
    node "BinaryExpression" pos
      [("operator", Text.quoted op.symbol), ("left", left.listing), ("right", right.listing)]
  | .logical pos op left right =>
    node "LogicalExpression" pos
      [("operator", Text.quoted op.symbol), ("left", left.listing), ("right", right.listing)]
  | .unary pos op operand =>
    node "UnaryExpression" pos
      [("operator", Text.quoted op.symbol), ("operand", operand.listing)]
  | .assign pos target value =>
    node "AssignmentExpression" pos
      [("target", node "Identifier" pos [("name", Text.quoted target)]), ("value", value.listing)]
  | .call pos callee arguments =>
    node "CallExpression" pos
      [("callee", callee.listing), ("arguments", tuple (Expr.listings arguments))]
  | .content pos arguments =>
    node "ContentCall" pos [("arguments", tuple (Expr.listings arguments))]

/-- Expressions in a listing. -/
def Expr.listings : List Expr → List String
  | [] => []
  | e :: es => e.listing :: Expr.listings es

end

/-- An expression that may be missing, in a listing. -/
def Expr.listingOrAbsent : Option Expr → String
  | some e => e.listing
  | none => absent

/-- A declaration of a variable in a listing. -/
def variableListing (pos : Position) (kind : DeclarationKind) (name : String)
    (init : Option Expr) : String :=
  node "VariableDeclaration" pos
    [("binding_kind", kind.listing), ("name", Text.quoted name),
      ("initializer", Expr.listingOrAbsent init)]

/-- What a `for` statement starts with, in a listing. -/
def ForInit.listing : ForInit → String
  | .none => absent
  | .declare pos kind name init => variableListing pos kind name init
  | .expr pos value => node "ExpressionStatement" pos [("expression", value.listing)]

mutual

/-- A statement in a listing. -/
def Stmt.listing : Stmt → String
  | .block b => b.listing
  | .declare pos kind name init => variableListing pos kind name init
  | .func pos name parameters body =>
    node "FunctionDeclaration" pos
      [("name", Text.quoted name), ("parameters", tuple (parameters.map Text.quoted)),
        ("body", body.listing)]
  | .property pos kind argument =>
    node "MiniAppPropertyDeclaration" pos
      [("property_kind", kind.listing), ("argument", Expr.listingOrAbsent argument)]
  | .body pos style content =>
    node "BodyDeclaration" pos
      [("style_reference", style.listing), ("content", tuple (Stmt.listings content))]
  | .ifElse pos test consequent alternate =>
    node "IfStatement" pos
      [("test", test.listing), ("consequent", consequent.listing),
        ("alternate", alternate.listing)]
  | .while pos test body =>
    node "WhileStatement" pos [("test", test.listing), ("body", body.listing)]
  | .for pos init test update body =>
    node "ForStatement" pos
      [("init", init.listing), ("test", Expr.listingOrAbsent test),
        ("update", Expr.listingOrAbsent update), ("body", body.listing)]
  | .return pos value => node "ReturnStatement" pos [("value", Expr.listingOrAbsent value)]
  | .break pos => node "BreakStatement" pos []
  | .continue pos => node "ContinueStatement" pos []
  | .expr pos value => node "ExpressionStatement" pos [("expression", value.listing)]

/-- What follows the block of an `if`, in a listing. -/
def Else.listing : Else → String
  | .none => absent
  | .block b => b.listing
  | .elseIf pos test consequent alternate =>
    node "IfStatement" pos
      [("test", test.listing), ("consequent", consequent.listing),
        ("alternate", alternate.listing)]

/-- A block in a listing. -/
def Block.listing : Block → String
  | .mk pos body => node "BlockStatement" pos [("body", tuple (Stmt.listings body))]

/-- Statements in a listing. -/
def Stmt.listings : List Stmt → List String
  | [] => []
  | s :: ss => s.listing :: Stmt.listings ss

end

end MiniApp
