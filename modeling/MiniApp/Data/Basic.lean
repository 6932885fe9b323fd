import MiniApp.Data.Moment
import MiniApp.Double.Text
import MiniApp.Text.Quoted

/-!
# Plain data

Trees of plain values: what settings files hold and what application records are written as. Tables
keep the order in which their keys were entered.
-/

namespace MiniApp

/-- A tree of plain values. -/
inductive Data where
  | null
  | bool (value : Bool)
  | int (value : Int)
  | double (value : Double)
  | str (value : String)
  | moment (value : Moment)
  | list (items : List Data)
  | table (entries : List (String × Data))

namespace Data

instance : Inhabited Data := ⟨.null⟩

/-- The value stored under a key of a table. -/
def get? (key : String) : List (String × Data) → Option Data := List.lookup key

/-- Store a value under a key; a new key comes last. -/
def put (key : String) (value : Data) : List (String × Data) → List (String × Data)
  | [] => [(key, value)]
  | (k, v) :: rest => if k = key then (k, value) :: rest else (k, v) :: put key value rest

mutual

/-- The value in the notation of messages: words for the constants, quoted text, brackets. -/
def literal : Data → String
  | .null => "None"
  | .bool b => if b then "True" else "False"
  | .int i => Decimal.intText i
  | .double d => d.text
  | .str s => Text.quoted s
  | .moment m => m.literal
  | .list items => "[" ++ ", ".intercalate (literals items) ++ "]"
  | .table entries => "\x7b" ++ ", ".intercalate (entryLiterals entries) ++ "\x7d"

/-- The values of a list in the notation of messages. -/
def literals : List Data → List String
  | [] => []
  | d :: ds => d.literal :: literals ds

/-- The entries of a table in the notation of messages. -/
def entryLiterals : List (String × Data) → List String
  | [] => []
  | (k, v) :: rest => (Text.quoted k ++ ": " ++ v.literal) :: entryLiterals rest

end

/-- The name of a value's type in messages. -/
def typeName : Data → String
  | .null => "NoneType"
  | .bool _ => "bool"
  | .int _ => "int"
  | .double _ => "float"
  | .str _ => "str"
  | .moment m => m.typeName
  | .list _ => "list"
  | .table _ => "dict"

/-- Numbers that are zero; the truth value false counts as one. -/
def isZero : Data → Bool
  | .bool b => !b
  | .int i => i = 0
  | .double (.finite _ q _) => q = 0
  | _ => false

/-- Values that stand for nothing: zeros and whatever is empty. -/
def isVoid : Data → Bool
  | .null => true
  | .str s => s.isEmpty
  | .list items => items.isEmpty
  | .table entries => entries.isEmpty
  | d => d.isZero

/-- The value as text: texts and moments have their own, anything else is written as in messages. -/
def asText : Data → String
  | .str s => s
  | .moment m => m.text
  | d => d.literal

end Data

end MiniApp
