import MiniApp.Position
import MiniApp.Text.Edits

/-!
# Diagnostics

A diagnostic says what went wrong and where. `Trouble` lists the troubles there are, each with the
particulars it carries; they form a hierarchy with four families below the general one. A diagnostic
is shown as its place, its code and its message, followed by one line for each particular.

## Main definitions

* `Trouble`, `Trouble.family?`, `Trouble.code`
* `Diagnostic`, `Diagnostic.summary`, `Diagnostic.details`, `Diagnostic.render`
-/

namespace MiniApp

/-- What a parser wanted, what it found, and how the fault might be mended. -/
structure Expectation where
  expected : List String := []
  found : Option String := none
  suggestion : Option String := none
  deriving DecidableEq, Repr

/-- What went wrong. -/
inductive Trouble where
  | general
  | lexical
  | unterminatedComment
  | unterminatedString
  | unexpectedCharacter (character : Option String)
  | syntactic (e : Expectation)
  | unexpectedToken (e : Expectation)
  | invalidTarget (e : Expectation)
  | propertyArity (e : Expectation) (keyword : Option String)
  | binding (name : Option String)
  | duplicateDeclaration (name : Option String) (firstLine firstColumn : Option Nat)
  | undeclaredName (name : Option String) (available : List String)
  | constReassignment (name : Option String) (declaredLine declaredColumn : Option Nat)
  | runtime
  | notCallable
  | arityMismatch (expected received : Option Nat)
  | operandType (expected found : Option String)
  | divisionByZero
  | controlFlow
  | duplicateProperty (property : Option String)
  | contentCall
  | callDepth
  | stepLimit
  | config
  deriving DecidableEq, Repr

namespace Trouble

/-- The family a trouble belongs to; the general trouble belongs to none. -/
def family? : Trouble → Option Trouble
  | .general => none
  | .lexical | .syntactic _ | .binding _ | .runtime | .config => some .general
  | .unterminatedComment | .unterminatedString | .unexpectedCharacter _ => some .lexical
  | .unexpectedToken e | .invalidTarget e | .propertyArity e _ => some (.syntactic e)
  | .duplicateDeclaration n _ _ | .undeclaredName n _ | .constReassignment n _ _ =>
    some (.binding n)
  | .notCallable | .arityMismatch .. | .operandType .. | .divisionByZero | .controlFlow
  | .duplicateProperty _ | .contentCall | .callDepth | .stepLimit => some .runtime

/-- A trouble and the families above it, innermost first. -/
def lineage (t : Trouble) : List Trouble :=
  t :: match t.family? with
    | none => []
    | some f => f :: match f.family? with
      | none => []
      | some g => [g]

/-- The code by which tools recognise a trouble. -/
def code : Trouble → String
  | .general => "HOMY_ERROR"
  | .lexical => "LEXER_ERROR"
  | .unterminatedComment => "UNTERMINATED_COMMENT"
  | .unterminatedString => "UNTERMINATED_STRING"
  | .unexpectedCharacter _ => "UNEXPECTED_CHARACTER"
  | .syntactic _ => "SYNTAX_ERROR"
  | .unexpectedToken _ => "UNEXPECTED_TOKEN"
  | .invalidTarget _ => "INVALID_ASSIGNMENT_TARGET"
  | .propertyArity _ _ => "PROPERTY_ARITY"
  | .binding _ => "BINDING_ERROR"
  | .duplicateDeclaration .. => "DUPLICATE_DECLARATION"
  | .undeclaredName .. => "UNDECLARED_NAME"
  | .constReassignment .. => "CONST_REASSIGNMENT"
  | .runtime => "RUNTIME_ERROR"
  | .notCallable => "NOT_CALLABLE"
  | .arityMismatch .. => "ARITY_MISMATCH"
  | .operandType .. => "TYPE_ERROR"
  | .divisionByZero => "DIVISION_BY_ZERO"
  | .controlFlow => "CONTROL_FLOW"
  | .duplicateProperty _ => "DUPLICATE_PROPERTY"
  | .contentCall => "CONTENT_CALL"
  | .callDepth => "CALL_DEPTH_EXCEEDED"
  | .stepLimit => "STEP_LIMIT_EXCEEDED"
  | .config => "CONFIG_ERROR"

end Trouble

/-- A line of details for a text that is present and not empty. -/
def detailLine (label : String) : Option String → List String
  | some s => if s.isEmpty then [] else [label ++ s]
  | none => []

/-- A place given by optional line and column numbers. -/
def placeText (line column : Option Nat) : String :=
  (line.map toString).getD "None" ++ ":" ++ (column.map toString).getD "None"

/-- The detail lines of an expectation. -/
def Expectation.details (e : Expectation) : List String :=
  (match e.expected with
    | [] => []
    | [one] => ["Expected: " ++ one]
    | many => ["Expected one of: " ++ ", ".intercalate many]) ++
  detailLine "Found: " e.found ++ detailLine "Suggestion: " e.suggestion

namespace Trouble

/-- The particulars of a trouble, a line for each. -/
def details : Trouble → List String
  | .syntactic e | .unexpectedToken e | .invalidTarget e | .propertyArity e _ => e.details
  | .duplicateDeclaration name line column =>
    detailLine "Duplicate name: " name ++
      (if line.getD 0 = 0 then [] else ["First declared at " ++ placeText line column])
  | .undeclaredName name available =>
    detailLine "Undefined: " name ++
      match name.getD "" with
      | "" => []
      | target => match (Text.similarNames target available).take 3 with
        | [] => []
        | close => ["Did you mean: " ++ ", ".intercalate close ++ "?"]
  | .constReassignment name line column =>
    if line.isNone then []
    else ["'" ++ name.getD "None" ++ "' was declared const at " ++ placeText line column]
  | .operandType expected found =>
    detailLine "Expected type: " expected ++ detailLine "Found type: " found
  | _ => []

end Trouble

/-- A trouble with its message and place. -/
structure Diagnostic where
  trouble : Trouble
  message : String
  path : Option String := none
  line : Option Nat := none
  column : Option Nat := none
  code : String := trouble.code
  deriving DecidableEq, Repr

namespace Diagnostic

/-- A diagnostic at a place. -/
def located (pos : Position) (trouble : Trouble) (message : String) : Diagnostic :=
  { trouble, message, line := some pos.line, column := some pos.column }

/-- The same diagnostic in a named file. -/
def inFile (path : String) (d : Diagnostic) : Diagnostic := { d with path := some path }

/-- The same diagnostic in the named file unless it names one already. An empty name is no name. -/
def inFileIfUnnamed (path : String) (d : Diagnostic) : Diagnostic :=
  if (d.path.getD "").isEmpty && !path.isEmpty then d.inFile path else d

/-- Place, code and message in one line. -/
def summary (d : Diagnostic) : String :=
  let file := detailLine "File: " d.path
  let place := match d.line, d.column with
    | some l, some c => ["Line " ++ toString l ++ ":" ++ toString c]
    | some l, none => ["Line " ++ toString l]
    | none, _ => []
  " | ".intercalate (file ++ place ++ ["[" ++ d.code ++ "] " ++ d.message])

/-- The whole diagnostic: summary and details. -/
def render (d : Diagnostic) : String :=
  "\n  ".intercalate (d.summary :: d.trouble.details)

end Diagnostic

end MiniApp
