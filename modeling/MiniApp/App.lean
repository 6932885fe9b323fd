import MiniApp.Data.Json
import MiniApp.Diagnostic
import MiniApp.Value

/-!
# Application records

A program describes an application: five properties and a body section with a style and content.
Each of the six fields is written at most once; the record remembers where.
-/

namespace MiniApp

/-- A body section. No two sections of an application have the same identity. -/
structure Section where
  id : Nat := 0
  style : String
  content : Array Value := #[]

/-- The description of an application. -/
structure App where
  name : Data := .null
  isWebPackage : Data := .bool false
  webVersion : Data := .null
  miniVersion : Data := .null
  iconPath : Data := .null
  body : Option Section := none
  /-- Where each field was declared. -/
  declared : List (String × Position) := []

namespace App

/-- Reserve a field for the declaration at a place, unless it has been declared before. -/
def reserve (a : App) (field keyword : String) (pos : Position) : Except Diagnostic App :=
  match a.declared.lookup field with
  | some first =>
    .error (.located pos (.duplicateProperty (some keyword))
      ("'" ++ keyword ++ "' is already declared at " ++ toString first.line ++ ":" ++
        toString first.column))
  | none => .ok { a with declared := a.declared ++ [(field, pos)] }

/-- The value of a property. -/
def get (a : App) : Property → Data
  | .appName => a.name
  | .webPackage => a.isWebPackage
  | .webVersion => a.webVersion
  | .miniVersion => a.miniVersion
  | .appIcon => a.iconPath

/-- Write a property. -/
def write (a : App) (value : Data) : Property → App
  | .appName => { a with name := value }
  | .webPackage => { a with isWebPackage := value }
  | .webVersion => { a with webVersion := value }
  | .miniVersion => { a with miniVersion := value }
  | .appIcon => { a with iconPath := value }

/-- Declare a property. -/
def setProperty (a : App) (p : Property) (value : Data) (pos : Position) :
    Except Diagnostic App := do
  let reserved ← a.reserve p.field p.keyword pos
  return reserved.write value p

/-- The identity of a section that is declared next: the number of fields declared before it. -/
def nextSection (a : App) : Nat := a.declared.length

/-- Declare the body section. -/
def openBody (a : App) (style : String) (pos : Position) : Except Diagnostic App := do
  let reserved ← a.reserve "body" "body" pos
  return { reserved with body := some { id := a.nextSection, style } }

/-- Append a value to the content of a section. A section that is not the application's own is out
of its sight. -/
def emit (a : App) (id : Nat) (value : Value) : App :=
  { a with body := a.body.map fun s =>
      if s.id = id then { s with content := s.content.push value } else s }

/-- Append a value to the content of the body section, if there is one. -/
def emit? (a : App) (value : Value) : Option App := a.body.map fun s => a.emit s.id value

/-- A body section as plain data. -/
def sectionData (s : Section) : Data :=
  .table [("styleReference", .str s.style), ("content", .list (s.content.toList.map Value.toData))]

/-- The record as plain data. -/
def toData (a : App) : Data :=
  .table [
    ("name", a.name),
    ("isWebPackage", a.isWebPackage),
    ("webVersion", a.webVersion),
    ("miniVersion", a.miniVersion),
    ("iconPath", a.iconPath),
    ("body", (a.body.map sectionData).getD .null)]

/-- The width of indentation unless another one is chosen. -/
def defaultIndent : Option Nat := some 2

/-- The record as JSON text. -/
def toJson (a : App) (indent : Option Nat) : Except Fault String := a.toData.toJson indent

end App

end MiniApp
