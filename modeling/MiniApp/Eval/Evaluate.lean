import MiniApp.Eval.Operation

/-!
# Running programs

Statements are executed in a scope and complete normally, by a jump or with a value returned;
expressions are evaluated in a scope. Executing a statement counts a step, and so does every round
of a loop.

Both recursions take an *allowance*, one unit of which is spent on every level of nesting, through
statements, expressions and calls alike. When it is used up the run fails as nested too deeply.

## Main definitions

* `Run.execute`, `Run.evaluate`: the two recursive parts
* `Session.run`: a whole program in a session
-/

namespace MiniApp

/-- How a statement completes. A jump remembers where it stands. -/
inductive Completion where
  | normal
  | returned (value : Value)
  | broke (pos : Position)
  | continued (pos : Position)

/-- One step along the left spine of a binary expression: the operator, its place and its right
operand. -/
structure BinaryStep where
  pos : Position
  op : BinaryOp
  right : Expr

/-- One step along the left spine of a logical expression. -/
structure LogicalStep where
  op : LogicalOp
  right : Expr

namespace Expr

/-- The innermost left operand of a binary expression and the steps from it outward. -/
def binarySpine : Expr → Expr × List BinaryStep
  | .binary pos op l r => (l.binarySpine.1, l.binarySpine.2 ++ [⟨pos, op, r⟩])
  | e => (e, [])

/-- The innermost left operand of a logical expression and the steps from it outward. -/
def logicalSpine : Expr → Expr × List LogicalStep
  | .logical _ op l r => (l.logicalSpine.1, l.logicalSpine.2 ++ [⟨op, r⟩])
  | e => (e, [])

/-- Texts that stand as statements are content of a body section. -/
def isStringLiteral : Expr → Bool
  | .string .. => true
  | _ => false

end Expr

/-- The types of value that a property accepts. There is no entry for the one that takes none. -/
def Property.accepted? : Property → Option (List String)
  | .appName | .appIcon => some ["string"]
  | .webVersion | .miniVersion => some ["string", "number"]
  | .webPackage => none

namespace Run

/-- The result of an operator as an action. -/
def ofOperation : Operation → Run Value
  | .ok v => pure v
  | .error e => throw e

/-- The diagnostic of a jump that meets no loop. -/
def strayJump (keyword : String) (pos : Position) : Diagnostic :=
  .located pos .controlFlow ("'" ++ keyword ++ "' used outside of a loop")

/-! ## Parts that know the recursion only as a parameter -/

/-- Execute statements in order until one does not complete normally. -/
def sequence (execute : Stmt → Run Completion) : List Stmt → Run Completion
  | [] => pure .normal
  | s :: rest => do
    match ← execute s with
    | .normal => sequence execute rest
    | jump => return jump

/-- Evaluate expressions in order. -/
def evaluateAll (evaluate : Expr → Run Value) : List Expr → Run (List Value)
  | [] => pure []
  | e :: rest => do
    let v ← evaluate e
    let vs ← evaluateAll evaluate rest
    return v :: vs

/-- Apply the steps of a binary expression to the value of its innermost operand. -/
def foldBinary (evaluate : Expr → Run Value) : Value → List BinaryStep → Run Value
  | v, [] => pure v
  | v, s :: rest => do
    let r ← evaluate s.right
    let v ← ofOperation (Operation.binary s.pos s.op v r)
    foldBinary evaluate v rest

/-- Apply the steps of a logical expression to the value of its innermost operand. A right operand
is evaluated only if the value so far does not decide. -/
def foldLogical (evaluate : Expr → Run Value) : Value → List LogicalStep → Run Value
  | v, [] => pure v
  | v, s :: rest => do
    let decided := match s.op with
      | .and => !v.isTruthy
      | .or => v.isTruthy
    let v ← if decided then pure v else evaluate s.right
    foldLogical evaluate v rest

/-- Repeat a body while a test holds, with an update after each round, for at most as many rounds as
given. -/
def loop (cx : Context) (pos : Position) (test : Run Bool) (body : Run Completion)
    (update : Run Unit) : Nat → Run Completion
  | 0 => throw .outOfPatience
  | rounds + 1 => do
    if ← test then
      step cx pos
      match ← body with
      -- the innermost loop takes a jump; a value goes on to the call
      | .broke _ => return .normal
      | .returned v => return .returned v
      | .normal | .continued _ =>
        update
        loop cx pos test body update rounds
    else return .normal

/-- Execute a block in a scope of its own. -/
def block (cx : Context) (execute : Nat → Stmt → Run Completion) (scope : Nat) (b : Block) :
    Run Completion := do
  reach cx scope (.block b)
  inScope cx scope fun inner => sequence (execute inner) b.body

/-- Execute what follows the block of an `if` whose test failed. -/
def otherwise (cx : Context) (scope : Nat) (test : Expr → Run Bool)
    (block : Block → Run Completion) : Else → Run Completion
  | .none => pure .normal
  | .block b => block b
  | .elseIf pos e b rest => do
    reach cx scope (.ifElse pos e b rest)
    if ← test e then block b else otherwise cx scope test block rest

/-- Whether an expression counts as true. -/
def truth (evaluate : Expr → Run Value) (e : Expr) : Run Bool := do
  let v ← evaluate e
  return v.isTruthy

/-- The value of an expression that may be missing. -/
def orNull (evaluate : Expr → Run Value) : Option Expr → Run Value
  | none => pure .null
  | some e => evaluate e

/-- Declare a variable. -/
def declare (evaluate : Expr → Run Value) (scope : Nat) (pos : Position) (kind : DeclarationKind)
    (name : String) (init : Option Expr) : Run Completion := do
  let v ← orNull evaluate init
  define scope name v (if kind = .const then .const else .let) pos
  return .normal

/-- Declare a function. The scope is captured first. -/
def declareFunction (scope : Nat) (pos : Position) (name : String) (parameters : List String)
    (body : Block) : Run Completion := do
  let id ← freshId
  capture scope
  define scope name (.closure ⟨id, name, parameters, body, scope, pos⟩) .func pos
  return .normal

/-- The value that a property declaration writes. -/
def propertyValue (cx : Context) (evaluate : Expr → Run Value) (p : Property) :
    Option Expr → Run Data
  | argument => do
    if p = .webPackage then return .bool true
    match argument with
    | none => return cx.settings.defaultWebVersion
    | some e =>
      let v ← evaluate e
      match p.accepted? with
      | none => throw (.fault .unknownProperty)
      | some accepted =>
        if accepted.contains v.typeName then return .str (← ofFault v.display)
        else
          reject (.located e.pos
            (.operandType (some (" or ".intercalate accepted)) (some v.typeName))
            ("Invalid value for " ++ p.keyword ++ "()"))

/-- The style of a body section: an unbound name stands for itself. -/
def style (evaluate : Expr → Run Value) (scope : Nat) (reference : Expr) : Run String := do
  let shown : Run String := do ofFault (← evaluate reference).display
  match reference with
  | .ident _ name => if ← isBound scope name then shown else return name
  | _ => shown

/-- Execute an expression as a statement. In a body section a text is content. -/
def expressionStatement (evaluate : Expr → Run Value) (e : Expr) : Run Completion := do
  let v ← evaluate e
  if (← get).inBody && e.isStringLiteral then emit v
  return .normal

/-- The statement that a `for` starts with. -/
def forInit (execute : Stmt → Run Completion) : ForInit → Run Unit
  | .none => pure ()
  | .declare pos kind name init => do
    let _ ← execute (.declare pos kind name init)
  | .expr pos e => do
    let _ ← execute (.expr pos e)

/-- Bind the parameters of a function to the arguments of a call. -/
def bindParameters (scope : Nat) (pos : Position) : List String → List Value → Run Unit
  | p :: ps, v :: vs => do
    define scope p v .param pos
    bindParameters scope pos ps vs
  | _, _ => pure ()

/-- The value of a call whose body has completed. -/
def callResult : Completion → Run Value
  | .normal => pure .null
  | .returned v => pure v
  | .broke pos => reject (strayJump "break" pos)
  | .continued pos => reject (strayJump "continue" pos)

/-- Call a declared function: its body is executed in a new scope inside the captured one. -/
def invoke (cx : Context) (execute : Nat → Stmt → Run Completion) (f : Closure)
    (arguments : List Value) : Run Value := do
  let completion ← inScope cx f.frame fun scope => do
    bindParameters scope f.pos f.parameters arguments
    sequence (execute scope) f.body.body
  callResult completion

/-- The texts of several values. -/
def displayAll : List Value → Except Fault (List String)
  | [] => .ok []
  | v :: vs => do
    let s ← v.display
    let ss ← displayAll vs
    return s :: ss

/-- Do what a builtin function does. -/
def perform (pos : Position) (action : Action) (arguments : List Value) : Run Value :=
  match action, arguments with
  | .print, vs => do
    let texts ← ofFault (displayAll vs)
    note (.printed pos (" ".intercalate texts))
    return .null
  | .len, [.str s] => return .number (.int s.length)
  | .len, [v] => reject (Operation.wrongOperand pos "len" "string" v)
  -- the number of arguments has been checked before a builtin function gets to act
  | .len, _ => throw (.fault .wrongArguments)

/-- The diagnostic of a call with a wrong number of arguments. -/
def wrongArity (pos : Position) (name : String) (expected received : Nat) : Diagnostic :=
  .located pos (.arityMismatch (some expected) (some received))
    (name ++ "() expects " ++ toString expected ++ " argument(s), got " ++ toString received)

/-- Make a call: check the number of arguments, count the call, and act. -/
def callWith (cx : Context) (pos : Position) (name : String) (arity : Option Nat) (count : Nat)
    (action : Run Value) : Run Value := do
  match arity with
  | some expected =>
    if expected ≠ count then reject (wrongArity pos name expected count)
  | none => pure ()
  -- a call with a wrong number of arguments is refused before it is counted
  enterCall cx name pos
  closing action exitCall

/-- Call a value with arguments. -/
def callValue (cx : Context) (execute : Nat → Stmt → Run Completion) (pos : Position)
    (callee : Value) (arguments : List Value) : Run Value :=
  match callee with
  | .closure f =>
    callWith cx pos f.name (some f.parameters.length) arguments.length
      (invoke cx execute f arguments)
  | .builtin f =>
    callWith cx pos f.name f.action.arity? arguments.length (perform pos f.action arguments)
  | v => reject (.located pos .notCallable ("Value of type " ++ v.typeName ++ " is not callable"))

/-- Make a content call: the value of its target, or of calling it, becomes content. -/
def contentCall (evaluate : Expr → Run Value) (call : Value → List Value → Run Value)
    (pos : Position) (arguments : List Expr) : Run Value := do
  if !(← get).inBody then
    reject (.located pos .contentCall "Call(...) can only be used inside a body section")
  if arguments.isEmpty then
    reject (.located pos (.arityMismatch (some 1) (some 0))
      "Call() expects at least 1 argument, got 0")
  -- the arguments are evaluated before it is known whether the first one can be called
  let values ← evaluateAll evaluate arguments
  let target := values.headD .null
  let rest := values.tail
  let result ← match target with
    | .closure _ | .builtin _ => call target rest
    | v =>
      if rest.isEmpty then pure v
      else
        reject (.located pos .notCallable
          ("Call() with arguments needs a function, got " ++ v.typeName))
  emit result
  return result

/-! ## The recursion -/

mutual

/-- Execute a statement in a scope. -/
def execute (cx : Context) : Nat → Nat → Stmt → Run Completion
  | 0, _, _ => throw .nestedTooDeeply
  | allowance + 1, scope, s =>
    match s with
    | .block b => block cx (execute cx allowance) scope b
    | .declare pos kind name init => do
      reach cx scope s
      declare (evaluate cx allowance scope) scope pos kind name init
    | .func pos name parameters body => do
      reach cx scope s
      declareFunction scope pos name parameters body
    | .property pos p argument => do
      reach cx scope s
      let v ← propertyValue cx (evaluate cx allowance scope) p argument
      setProperty p v pos
      return .normal
    | .body pos reference content => do
      reach cx scope s
      -- the style is looked up outside the section's own scope
      let st ← style (evaluate cx allowance scope) scope reference
      let id ← openBody st pos
      inScope cx scope fun inner => inBody id (sequence (execute cx allowance inner) content)
    | .ifElse _ test b rest => do
      reach cx scope s
      if ← truth (evaluate cx allowance scope) test then block cx (execute cx allowance) scope b
      else
        otherwise cx scope (truth (evaluate cx allowance scope))
          (block cx (execute cx allowance) scope) rest
    | .while pos test b => do
      reach cx scope s
      loop cx pos (truth (evaluate cx allowance scope) test)
        (block cx (execute cx allowance) scope b) (pure ()) cx.patience
    | .for pos init test update b => do
      reach cx scope s
      -- one scope for the clauses, shared by all rounds; the block opens its own in each
      inScope cx scope fun inner => do
        forInit (execute cx allowance inner) init
        loop cx pos
          (match test with
            | none => pure true
            | some e => truth (evaluate cx allowance inner) e)
          (block cx (execute cx allowance) inner b)
          (match update with
            | none => pure ()
            | some e => do
              let _ ← evaluate cx allowance inner e)
          cx.patience
    | .return _ value => do
      reach cx scope s
      let v ← orNull (evaluate cx allowance scope) value
      return .returned v
    | .break pos => do
      reach cx scope s
      return .broke pos
    | .continue pos => do
      reach cx scope s
      return .continued pos
    | .expr _ e => do
      reach cx scope s
      expressionStatement (evaluate cx allowance scope) e

/-- Evaluate an expression in a scope. -/
def evaluate (cx : Context) : Nat → Nat → Expr → Run Value
  | 0, _, _ => throw .nestedTooDeeply
  | allowance + 1, scope, e => do
    visit cx scope (.expr e)
    match e with
    | .ident pos name => lookup scope name pos
    | .number _ n _ => return .number n
    | .string _ s => return .str s
    | .bool _ b => return .bool b
    | .null _ => return .null
    | .binary pos op l r => do
      -- however many operators stand in a row, they are one level of nesting
      let spine := (Expr.binary pos op l r).binarySpine
      let v ← evaluate cx allowance scope spine.1
      foldBinary (evaluate cx allowance scope) v spine.2
    | .logical pos op l r => do
      let spine := (Expr.logical pos op l r).logicalSpine
      let v ← evaluate cx allowance scope spine.1
      foldLogical (evaluate cx allowance scope) v spine.2
    | .unary pos op operand => do
      let v ← evaluate cx allowance scope operand
      ofOperation (Operation.unary pos op v)
    | .assign pos target value => do
      let v ← evaluate cx allowance scope value
      assign scope target v pos
      return v
    | .call pos callee arguments => do
      let f ← evaluate cx allowance scope callee
      let vs ← evaluateAll (evaluate cx allowance scope) arguments
      callValue cx (execute cx allowance) pos f vs
    | .content pos arguments =>
      contentCall (evaluate cx allowance scope) (callValue cx (execute cx allowance) pos) pos
        arguments

end

/-- Execute a program: count it as a step, then its statements. Returning ends it normally. -/
def program (cx : Context) (allowance : Nat) (p : Program) (scope : Nat) : Run Unit := do
  visit cx scope (.program p)
  step cx p.pos
  match ← sequence (execute cx allowance scope) p.body with
  | .broke pos => reject (strayJump "break" pos)
  | .continued pos => reject (strayJump "continue" pos)
  | .normal | .returned _ => return ()

/-- Bind a builtin function. -/
def install (scope : Nat) (name : String) (action : Action) : Run Unit := do
  let id ← freshId
  define scope name (.builtin ⟨id, name, action⟩) .builtin ⟨0, 0⟩

/-- Run a program against fresh scopes: a root with the builtin functions, and a scope inside it. -/
def start (cx : Context) (allowance : Nat) (p : Program) : Run Unit := do
  let root ← openScope none
  install root "print" .print
  install root "len" .len
  let scope ← openScope (some root)
  program cx allowance p scope

end Run

/-- The allowance of nested execution. -/
def executionAllowance : Nat := 5000

/-- The rounds that a loop is given. -/
def defaultPatience : Nat := 1000000000000

/-- Name the file in a failure's diagnostic. -/
def RunFailure.inFile (path : String) : RunFailure → RunFailure
  | .rejected d => .rejected (d.inFileIfUnnamed path)
  | f => f

/-- Run a program in a session: the failure, if there is one, and the session afterwards. -/
def Session.run (cx : Context) (allowance : Nat) (path : String) (p : Program) (s : Session) :
    Option RunFailure × Session :=
  match Run.start cx allowance p { s with trace := #[], visits := #[] } with
  | .ok _ t => (none, t)
  | .error e t => (some (e.inFile path), t)

/-- The message of a run that was nested too deeply. -/
def deepRunMessage : String :=
  "Maximum call or nesting depth exceeded (host recursion limit reached)"

/-- The diagnostic of a run that was nested too deeply. -/
def deepRun (path : String) : Diagnostic :=
  { trouble := .callDepth, message := deepRunMessage
    path := if path.isEmpty then none else some path }

end MiniApp
