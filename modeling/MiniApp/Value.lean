import MiniApp.Syntax.Listing

/-!
# Values

The values that programs compute with. A function is a value with an identity of its own: two
functions are equal only if they come from one and the same declaration being executed once.
-/

namespace MiniApp

/-- A declared function together with the frame it was declared in. -/
structure Closure where
  id : Nat
  name : String
  parameters : List String
  body : Block
  frame : Nat
  pos : Position

/-- The functions that exist without being declared. -/
inductive Action where
  | print | len
  deriving DecidableEq, Repr

/-- The number of arguments that an action takes; none if any number will do. -/
def Action.arity? : Action → Option Nat
  | .print => none
  | .len => some 1

/-- A function that exists without being declared. -/
structure Builtin where
  id : Nat
  name : String
  action : Action
  deriving DecidableEq, Repr

/-- The values of the language. -/
inductive Value where
  | null
  | bool (value : Bool)
  | number (value : Number)
  | str (value : String)
  | closure (f : Closure)
  | builtin (f : Builtin)

namespace Value

instance : Inhabited Value := ⟨.null⟩

/-- The name of a value's type. -/
def typeName : Value → String
  | .null => "null"
  | .bool _ => "boolean"
  | .number _ => "number"
  | .str _ => "string"
  | .closure _ | .builtin _ => "function"

/-- Numbers of either sort. -/
def isNumber : Value → Bool
  | .number _ => true
  | _ => false

/-- Texts. -/
def isText : Value → Bool
  | .str _ => true
  | _ => false

/-- Whether a value is a zero. -/
def isZero : Value → Bool
  | .number n => n.isZero
  | _ => false

/-- Whether a value counts as true in a test. -/
def isTruthy : Value → Bool
  | .null => false
  | .bool b => b
  | .number n => !n.isZero
  | .str s => s != ""
  | .closure _ | .builtin _ => true

/-- How a function is shown. -/
def functionText (name : String) : String := "<func " ++ name ++ ">"

/-- The value as `print` and concatenation show it. -/
def display : Value → Except Fault String
  | .null => .ok "null"
  | .bool b => .ok (if b then "true" else "false")
  | .number n => n.display
  | .str s => .ok s
  | .closure f => .ok (functionText f.name)
  | .builtin f => .ok (functionText f.name)

/-- Equality of values: numbers by value, functions by identity. -/
def equal : Value → Value → Bool
  | .null, .null => true
  | .bool a, .bool b => a == b
  | .number a, .number b => a.equal b
  | .str a, .str b => a == b
  | .closure f, .closure g => f.id == g.id
  | .builtin f, .builtin g => f.id == g.id
  | _, _ => false

/-- The value as plain data; a function becomes the text that shows it. -/
def toData : Value → Data
  | .null => .null
  | .bool b => .bool b
  | .number (.int i) => .int i
  | .number (.double d) => .double d
  | .str s => .str s
  | .closure f => .str (functionText f.name)
  | .builtin f => .str (functionText f.name)

/-- The value as logs show it. -/
def listing : Value → String
  | .closure f =>
    Listing.record "FunctionValue"
      ([("name", Text.quoted f.name), ("parameters", Listing.tuple (f.parameters.map Text.quoted)),
        ("body", f.body.listing), ("captured_frame", toString f.frame)] ++ Listing.place f.pos)
  | v => v.toData.literal

end Value

end MiniApp
