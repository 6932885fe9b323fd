/-!
# Operators, bindings and properties

The fixed vocabulary of the language: binary, logical and unary operators, the two ways to declare a
name, and the properties that an application may declare.
-/

namespace MiniApp

/-- Operators that evaluate both operands. -/
inductive BinaryOp where
  | add | sub | mul | div | mod | eq | ne | lt | gt | le | ge
  deriving DecidableEq, Repr

namespace BinaryOp

/-- The sign of the operator. -/
def symbol : BinaryOp → String
  | .add => "+"
  | .sub => "-"
  | .mul => "*"
  | .div => "/"
  | .mod => "%"
  | .eq => "=="
  | .ne => "!="
  | .lt => "<"
  | .gt => ">"
  | .le => "<="
  | .ge => ">="

/-- The operator of a given sign. -/
def ofSymbol? (s : String) : Option BinaryOp :=
  [add, sub, mul, div, mod, eq, ne, lt, gt, le, ge].find? (·.symbol == s)

end BinaryOp

/-- Operators that may leave their right operand alone. -/
inductive LogicalOp where
  | and | or
  deriving DecidableEq, Repr

namespace LogicalOp

/-- The sign of the operator. -/
def symbol : LogicalOp → String
  | .and => "&&"
  | .or => "||"

/-- The operator of a given sign. -/
def ofSymbol? (s : String) : Option LogicalOp := [and, or].find? (·.symbol == s)

end LogicalOp

/-- Operators on one operand. -/
inductive UnaryOp where
  | not
  | minus
  /-- A sign that source text never has; a token list made by hand can carry one. It means minus. -/
  | other (sign : String)
  deriving DecidableEq, Repr

namespace UnaryOp

/-- The sign of the operator. -/
def symbol : UnaryOp → String
  | .not => "!"
  | .minus => "-"
  | .other s => s

/-- The operator of a given sign. -/
def ofSymbol (s : String) : UnaryOp :=
  if s = "!" then .not else if s = "-" then .minus else .other s

end UnaryOp

/-- How a name is declared. -/
inductive DeclarationKind where
  | let | const
  deriving DecidableEq, Repr

namespace DeclarationKind

/-- The keyword of the declaration. -/
def keyword : DeclarationKind → String
  | .let => "let"
  | .const => "const"

/-- The declaration of a given keyword. -/
def ofKeyword? (s : String) : Option DeclarationKind :=
  if s = "let" then some .let else if s = "const" then some .const else none

end DeclarationKind

/-- The properties of an application. -/
inductive Property where
  | appName | webPackage | webVersion | miniVersion | appIcon
  deriving DecidableEq, Repr

namespace Property

/-- All properties. -/
def all : List Property := [appName, webPackage, webVersion, miniVersion, appIcon]

/-- The keyword that declares the property. -/
def keyword : Property → String
  | .appName => "name_app_mini"
  | .webPackage => "web_package_mini"
  | .webVersion => "web_mini_version"
  | .miniVersion => "mini_version"
  | .appIcon => "mini_app_icon"

/-- The name under which the property is listed. -/
def name : Property → String
  | .appName => "APP_NAME"
  | .webPackage => "WEB_PACKAGE"
  | .webVersion => "WEB_VERSION"
  | .miniVersion => "MINI_VERSION"
  | .appIcon => "APP_ICON"

/-- The field of the application record that the property fills. -/
def field : Property → String
  | .appName => "name"
  | .webPackage => "is_web_package"
  | .webVersion => "web_version"
  | .miniVersion => "mini_version"
  | .appIcon => "icon_path"

/-- The least number of arguments. -/
def minArity : Property → Nat
  | .appName | .miniVersion | .appIcon => 1
  | .webPackage | .webVersion => 0

/-- The greatest number of arguments. -/
def maxArity : Property → Nat
  | .appName | .miniVersion | .appIcon | .webVersion => 1
  | .webPackage => 0

/-- The property of a given keyword. -/
def ofKeyword? (s : String) : Option Property := all.find? (·.keyword == s)

/-- The property listed under a given name. -/
def ofName? (s : String) : Option Property := all.find? (·.name == s)

/-- Whether the property takes this many arguments. -/
def accepts (p : Property) (count : Int) : Bool := p.minArity ≤ count && count ≤ p.maxArity

/-- The accepted number of arguments in words. -/
def arity (p : Property) : String :=
  if p.minArity = p.maxArity then
    toString p.minArity ++ " argument" ++ (if p.minArity = 1 then "" else "s")
  else toString p.minArity ++ " to " ++ toString p.maxArity ++ " arguments"

end Property

end MiniApp
