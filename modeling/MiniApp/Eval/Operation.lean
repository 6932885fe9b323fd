import MiniApp.Eval.Session

/-!
# Operators on values

What binary and unary operators make of their operands. Sums of texts join them; arithmetic wants
numbers; order compares numbers with numbers and texts with texts. The types of the operands are
tested first, and a diagnostic tells of one that does not fit.
-/

namespace MiniApp

/-- The result of an operator, or why there is none. -/
abbrev Operation := Except RunFailure Value

namespace Operation

/-- The diagnostic of an operand of a wrong type. -/
def wrongOperand (pos : Position) (operator wanted : String) (value : Value) : Diagnostic :=
  .located pos (.operandType (some wanted) (some value.typeName))
    ("Unsupported operand for '" ++ operator ++ "'")

/-- A computation that may meet a fault. -/
def ofFault {α : Type} : Except Fault α → Except RunFailure α := Except.mapError .fault

/-! ## The type tests -/

/-- Make sure that both operands are numbers; the left one is checked first. -/
def requireNumbers (pos : Position) (op : BinaryOp) (wanted : String) (l r : Value) :
    Except RunFailure Unit :=
  if !l.isNumber then .error (.rejected (wrongOperand pos op.symbol wanted l))
  else if !r.isNumber then .error (.rejected (wrongOperand pos op.symbol wanted r))
  else .ok ()

/-- Whether two values can be compared: numbers with numbers and texts with texts. -/
def comparable (l r : Value) : Bool := l.isNumber && r.isNumber || l.isText && r.isText

/-! ## What is done behind the tests

These take operands of the right kinds only; anything else is a fault. -/

/-- An operation on two numbers. -/
def onNumbers (f : Number → Number → Except Fault Number) : Value → Value → Operation
  | .number a, .number b => do return .number (← ofFault (f a b))
  | _, _ => .error (.fault .wrongOperands)

/-- A comparison of two numbers or two texts. -/
def order (onNumbers : Number → Number → Bool) (onTexts : String → String → Bool) :
    Value → Value → Operation
  | .number a, .number b => .ok (.bool (onNumbers a b))
  | .str a, .str b => .ok (.bool (onTexts a b))
  | _, _ => .error (.fault .wrongOperands)

/-- The negative of a number. -/
def negate : Value → Operation
  | .number n => .ok (.number n.neg)
  | _ => .error (.fault .wrongOperands)

/-! ## Operators -/

/-- A sum: texts are joined, numbers added. -/
def sum (pos : Position) (l r : Value) : Operation :=
  if l.isText || r.isText then do
    let a ← ofFault l.display
    let b ← ofFault r.display
    return .str (a ++ b)
  else do
    requireNumbers pos .add "number or string" l r
    onNumbers Number.add l r

/-- A number compared with a number, or a text with a text. -/
def compare (pos : Position) (op : BinaryOp) (onNumbers : Number → Number → Bool)
    (onTexts : String → String → Bool) (l r : Value) : Operation :=
  if comparable l r then order onNumbers onTexts l r
  else
    .error (.rejected (.located pos
      (.operandType (some "two numbers or two strings")
        (some (l.typeName ++ ", " ++ r.typeName)))
      ("Cannot compare " ++ l.typeName ++ " " ++ op.symbol ++ " " ++ r.typeName)))

/-- An arithmetic operation on numbers. -/
def arithmetic (pos : Position) (op : BinaryOp) (f : Number → Number → Except Fault Number)
    (l r : Value) : Operation := do
  requireNumbers pos op "number" l r
  onNumbers f l r

/-- A division, refused when the divisor is zero. -/
def division (pos : Position) (op : BinaryOp) (name : String)
    (f : Number → Number → Except Fault Number) (l r : Value) : Operation := do
  requireNumbers pos op "number" l r
  if r.isZero then .error (.rejected (.located pos .divisionByZero (name ++ " by zero")))
  else onNumbers f l r

/-- Apply a binary operator. -/
def binary (pos : Position) (op : BinaryOp) (l r : Value) : Operation :=
  match op with
  | .eq => .ok (.bool (l.equal r))
  | .ne => .ok (.bool (!l.equal r))
  | .add => sum pos l r
  | .lt => compare pos op Number.less (fun a b => a < b) l r
  | .gt => compare pos op (fun a b => b.less a) (fun a b => b < a) l r
  | .le => compare pos op Number.lessOrEqual (fun a b => !(b < a)) l r
  | .ge => compare pos op (fun a b => b.lessOrEqual a) (fun a b => !(a < b)) l r
  | .sub => arithmetic pos op Number.sub l r
  | .mul => arithmetic pos op Number.mul l r
  | .div => division pos op "Division" Number.div l r
  | .mod => division pos op "Modulo" Number.mod l r

/-- Apply a unary operator. -/
def unary (pos : Position) (op : UnaryOp) (v : Value) : Operation :=
  match op with
  | .not => .ok (.bool !v.isTruthy)
  | .minus | .other _ =>
    if !v.isNumber then .error (.rejected (wrongOperand pos "-" "number" v))
    else negate v

end Operation

end MiniApp
