import MiniApp.Eval.Evaluate

/-!
# Accounts of runs

An account tells what a run has done: which statements it has executed and which expressions it has
evaluated to which values, in the order in which this was completed. Each entry of an account has
its surroundings: whether it lies in the body of a loop of the function that is being executed, and
whether a body section is being executed. The first is a matter of the text: a call leaves the loops
around it. The second is not: a call stays within the body section.

Besides, a snapshot is taken at every moment of a run: after each elementary action, whether that
succeeds or fails, and where a call, a scope or a section is left. It tells which calls are in progress
at that moment.

A *told* action is an action together with its account and its snapshots. Told actions are put
together in the same way as actions, with the surroundings handed down from one to the next, and the
action in them is the one that runs.

## Main definitions

* `Entry`: something that has been done, its surroundings, and the session just afterwards
* `Snapshot`: the session at some moment, and the calls in progress
* `Told`: actions with their accounts and snapshots
* `Told.execute`, `Told.evaluate`, `Told.start`: runs with their accounts and snapshots
* `Session.account`, `Session.snapshots`: those of the run of a program

## Main results

* `Told.run_execute_evaluate`, `Told.run_start`: the action in a told run is the run
-/

namespace MiniApp

/-- What surrounds a point of a run. -/
structure Surroundings where
  /-- Whether it lies in the body of a loop, within the function that is being executed. -/
  inLoop : Bool := false
  /-- Whether a body section is being executed. -/
  inBody : Bool := false

namespace Surroundings

/-- The surroundings in the body of a loop. -/
def round (a : Surroundings) : Surroundings := { a with inLoop := true }

/-- The surroundings in a function that is called. -/
def callee (a : Surroundings) : Surroundings := { a with inLoop := false }

/-- The surroundings in the content of a body section. -/
def content (a : Surroundings) : Surroundings := { a with inBody := true }

end Surroundings

/-- Something that a run has done to completion. -/
inductive Deed where
  | executed (s : Stmt)
  | evaluated (e : Expr) (v : Value)

/-- An entry of an account: what has just been done, where, and the session at that moment. -/
structure Entry where
  deed : Deed
  around : Surroundings
  session : Session

/-- A run at some moment: the names of the functions whose calls are in progress, earliest first, the
failure that has occurred, if one has, and the session. -/
structure Snapshot where
  calls : List String := []
  failure : Option RunFailure := none
  session : Session

namespace Snapshot

variable {α : Type}

/-- The snapshot after an action. -/
def after : EStateM.Result RunFailure Session α → Snapshot
  | .ok _ s => { session := s }
  | .error e s => { failure := some e, session := s }

/-- A snapshot of what is done within a call. -/
def within (name : String) (m : Snapshot) : Snapshot := { m with calls := name :: m.calls }

end Snapshot

/-- An action with its account and its snapshots: the entries that come about when it is taken in a
session, and what the session is like meanwhile. -/
structure Told (α : Type) where
  run : Run α
  account : Session → List Entry
  snapshots : Session → List Snapshot

namespace Told

variable {α β : Type}

/-- An elementary action, with nothing worth telling. -/
def silent (x : Run α) : Told α := ⟨x, fun _ => [], fun s => [.after (x s)]⟩

instance : MonadLift Run Told := ⟨silent⟩

/-- What follows an action is told behind it, if the action succeeds. -/
instance : Monad Told where
  pure a := silent (pure a)
  bind x f := {
    run := x.run >>= fun a => (f a).run
    account := fun s => x.account s ++
      match x.run s with
      | .ok a t => (f a).account t
      | .error _ _ => []
    snapshots := fun s => x.snapshots s ++
      match x.run s with
      | .ok a t => (f a).snapshots t
      | .error _ _ => [] }

/-- Tell a deed once an action has succeeded. -/
def telling (around : Surroundings) (deed : α → Deed) (x : Told α) : Told α where
  run := x.run
  account s := x.account s ++
    match x.run s with
    | .ok a t => [⟨deed a, around, t⟩]
    | .error _ _ => []
  snapshots := x.snapshots

/-- Close behind an action, whether it succeeds or fails. -/
def closing (x : Told α) (close : Run Unit) : Told α where
  run := Run.closing x.run close
  account := x.account
  snapshots s := x.snapshots s ++ [.after (Run.closing x.run close s)]

/-- Act in a new scope and leave it afterwards. -/
def inScope (cx : Context) (parent : Nat) (x : Nat → Told α) : Told α := do
  let index ← Run.openScope (some parent)
  closing (x index) (Run.closeScope cx index)

/-- Act with a section being executed. -/
def inBody (id : Nat) (x : Told α) : Told α where
  run := Run.inBody id x.run
  account s := x.account { s with active := some id }
  snapshots s := { session := { s with active := some id } } ::
    x.snapshots { s with active := some id } ++ [.after (Run.inBody id x.run s)]

/-- Act within a call. It is in progress from when it has been counted until its end is counted; a
call that is refused never is. -/
def calling (cx : Context) (name : String) (pos : Position) (x : Told α) : Told α :=
  { (do
      Run.enterCall cx name pos
      closing x Run.exitCall : Told α) with
    snapshots := fun s =>
      match Run.enterCall cx name pos s with
      | .ok _ t => ({ session := t } :: x.snapshots t).map (.within name) ++
        [.after (Run.closing x.run Run.exitCall t)]
      | .error e t => [{ failure := some e, session := t }] }

/-! ## Parts of runs -/

/-- Execute statements in order until one does not complete normally. -/
def sequence (execute : Stmt → Told Completion) : List Stmt → Told Completion
  | [] => pure .normal
  | s :: rest => do
    match ← execute s with
    | .normal => sequence execute rest
    | jump => return jump

/-- Evaluate expressions in order. -/
def evaluateAll (evaluate : Expr → Told Value) : List Expr → Told (List Value)
  | [] => pure []
  | e :: rest => do
    let v ← evaluate e
    let vs ← evaluateAll evaluate rest
    return v :: vs

/-- Apply the steps of a binary expression. -/
def foldBinary (evaluate : Expr → Told Value) : Value → List BinaryStep → Told Value
  | v, [] => pure v
  | v, s :: rest => do
    let r ← evaluate s.right
    let v ← Run.ofOperation (Operation.binary s.pos s.op v r)
    foldBinary evaluate v rest

/-- Apply the steps of a logical expression. -/
def foldLogical (evaluate : Expr → Told Value) : Value → List LogicalStep → Told Value
  | v, [] => pure v
  | v, s :: rest => do
    let decided := match s.op with
      | .and => !v.isTruthy
      | .or => v.isTruthy
    let v ← if decided then pure v else evaluate s.right
    foldLogical evaluate v rest

/-- Repeat a body while a test holds. -/
def loop (cx : Context) (pos : Position) (test : Told Bool) (body : Told Completion)
    (update : Told Unit) : Nat → Told Completion
  | 0 => silent (throw .outOfPatience)
  | rounds + 1 => do
    if ← test then
      Run.step cx pos
      match ← body with
      | .broke _ => return .normal
      | .returned v => return .returned v
      | .normal | .continued _ =>
        update
        loop cx pos test body update rounds
    else return .normal

/-- Execute a block in a scope of its own. -/
def block (cx : Context) (around : Surroundings) (execute : Nat → Stmt → Told Completion)
    (scope : Nat) (b : Block) : Told Completion :=
  telling around (fun _ => .executed (.block b)) do
    Run.reach cx scope (.block b)
    inScope cx scope fun inner => sequence (execute inner) b.body

/-- Execute what follows the block of an `if` whose test failed. -/
def otherwise (cx : Context) (around : Surroundings) (scope : Nat) (test : Expr → Told Bool)
    (block : Block → Told Completion) : Else → Told Completion
  | .none => pure .normal
  | .block b => block b
  | .elseIf pos e b rest =>
    telling around (fun _ => .executed (.ifElse pos e b rest)) do
      Run.reach cx scope (.ifElse pos e b rest)
      if ← test e then block b else otherwise cx around scope test block rest

/-- Whether an expression counts as true. -/
def truth (evaluate : Expr → Told Value) (e : Expr) : Told Bool := do
  let v ← evaluate e
  return v.isTruthy

/-- The value of an expression that may be missing. -/
def orNull (evaluate : Expr → Told Value) : Option Expr → Told Value
  | none => pure .null
  | some e => evaluate e

/-- Declare a variable. -/
def declare (evaluate : Expr → Told Value) (scope : Nat) (pos : Position) (kind : DeclarationKind)
    (name : String) (init : Option Expr) : Told Completion := do
  let v ← orNull evaluate init
  Run.define scope name v (if kind = .const then .const else .let) pos
  return .normal

/-- The value that a property declaration writes. -/
def propertyValue (cx : Context) (evaluate : Expr → Told Value) (p : Property) :
    Option Expr → Told Data
  | argument => do
    if p = .webPackage then return .bool true
    match argument with
    | none => return cx.settings.defaultWebVersion
    | some e =>
      let v ← evaluate e
      match p.accepted? with
      | none => silent (throw (.fault .unknownProperty))
      | some accepted =>
        if accepted.contains v.typeName then
          let text ← Run.ofFault v.display
          return .str text
        else
          Run.reject (.located e.pos
            (.operandType (some (" or ".intercalate accepted)) (some v.typeName))
            ("Invalid value for " ++ p.keyword ++ "()"))

/-- The style of a body section. -/
def style (evaluate : Expr → Told Value) (scope : Nat) (reference : Expr) : Told String := do
  let shown : Told String := do
    let v ← evaluate reference
    Run.ofFault v.display
  match reference with
  | .ident _ name => if ← Run.isBound scope name then shown else return name
  | _ => shown

/-- Execute an expression as a statement. -/
def expressionStatement (evaluate : Expr → Told Value) (e : Expr) : Told Completion := do
  let v ← evaluate e
  let s ← (get : Run Session)
  if s.inBody && e.isStringLiteral then Run.emit v
  return .normal

/-- The statement that a `for` starts with. -/
def forInit (execute : Stmt → Told Completion) : ForInit → Told Unit
  | .none => pure ()
  | .declare pos kind name init => do
    let _ ← execute (.declare pos kind name init)
  | .expr pos e => do
    let _ ← execute (.expr pos e)

/-- Call a declared function. -/
def invoke (cx : Context) (execute : Nat → Stmt → Told Completion) (f : Closure)
    (arguments : List Value) : Told Value := do
  let completion ← inScope cx f.frame fun scope => do
    Run.bindParameters scope f.pos f.parameters arguments
    sequence (execute scope) f.body.body
  Run.callResult completion

/-- Make a call. -/
def callWith (cx : Context) (pos : Position) (name : String) (arity : Option Nat) (count : Nat)
    (action : Told Value) : Told Value := do
  match arity with
  | some expected =>
    if expected ≠ count then Run.reject (Run.wrongArity pos name expected count)
  | none => pure ()
  calling cx name pos action

/-- Call a value with arguments. -/
def callValue (cx : Context) (execute : Nat → Stmt → Told Completion) (pos : Position)
    (callee : Value) (arguments : List Value) : Told Value :=
  match callee with
  | .closure f =>
    callWith cx pos f.name (some f.parameters.length) arguments.length
      (invoke cx execute f arguments)
  | .builtin f =>
    callWith cx pos f.name f.action.arity? arguments.length
      (silent (Run.perform pos f.action arguments))
  | v =>
    silent (Run.reject (.located pos .notCallable
      ("Value of type " ++ v.typeName ++ " is not callable")))

/-- Make a content call. -/
def contentCall (evaluate : Expr → Told Value) (call : Value → List Value → Told Value)
    (pos : Position) (arguments : List Expr) : Told Value := do
  let s ← (get : Run Session)
  if !s.inBody then
    Run.reject (.located pos .contentCall "Call(...) can only be used inside a body section")
  if arguments.isEmpty then
    Run.reject (.located pos (.arityMismatch (some 1) (some 0))
      "Call() expects at least 1 argument, got 0")
  let values ← evaluateAll evaluate arguments
  let target := values.headD .null
  let rest := values.tail
  let result ← match target with
    | .closure _ | .builtin _ => call target rest
    | v =>
      if rest.isEmpty then pure v
      else
        Run.reject (.located pos .notCallable
          ("Call() with arguments needs a function, got " ++ v.typeName))
  Run.emit result
  return result

/-! ## The recursion -/

mutual

/-- Execute a statement in a scope. -/
def execute (cx : Context) : Nat → Surroundings → Nat → Stmt → Told Completion
  | 0, _, _, _ => silent (throw .nestedTooDeeply)
  | allowance + 1, a, scope, s =>
    match s with
    | .block b => block cx a (execute cx allowance a) scope b
    | .declare pos kind name init => telling a (fun _ => .executed s) do
      Run.reach cx scope s
      declare (evaluate cx allowance a scope) scope pos kind name init
    | .func pos name parameters body => telling a (fun _ => .executed s) do
      Run.reach cx scope s
      Run.declareFunction scope pos name parameters body
    | .property pos p argument => telling a (fun _ => .executed s) do
      Run.reach cx scope s
      let v ← propertyValue cx (evaluate cx allowance a scope) p argument
      Run.setProperty p v pos
      return .normal
    | .body pos reference content => telling a (fun _ => .executed s) do
      Run.reach cx scope s
      let st ← style (evaluate cx allowance a scope) scope reference
      let id ← Run.openBody st pos
      inScope cx scope fun inner =>
        inBody id (sequence (execute cx allowance a.content inner) content)
    | .ifElse pos test b rest =>
      otherwise cx a scope (truth (evaluate cx allowance a scope))
        (block cx a (execute cx allowance a) scope) (.elseIf pos test b rest)
    | .while pos test b => telling a (fun _ => .executed s) do
      Run.reach cx scope s
      loop cx pos (truth (evaluate cx allowance a scope) test)
        (block cx a.round (execute cx allowance a.round) scope b) (pure ()) cx.patience
    | .for pos init test update b => telling a (fun _ => .executed s) do
      Run.reach cx scope s
      inScope cx scope fun inner => do
        forInit (execute cx allowance a inner) init
        loop cx pos
          (match test with
            | none => pure true
            | some e => truth (evaluate cx allowance a inner) e)
          (block cx a.round (execute cx allowance a.round) inner b)
          (match update with
            | none => pure ()
            | some e => do
              let _ ← evaluate cx allowance a inner e)
          cx.patience
    | .return _ value => telling a (fun _ => .executed s) do
      Run.reach cx scope s
      let v ← orNull (evaluate cx allowance a scope) value
      return .returned v
    | .break pos => telling a (fun _ => .executed s) do
      Run.reach cx scope s
      return .broke pos
    | .continue pos => telling a (fun _ => .executed s) do
      Run.reach cx scope s
      return .continued pos
    | .expr _ e => telling a (fun _ => .executed s) do
      Run.reach cx scope s
      expressionStatement (evaluate cx allowance a scope) e

/-- Evaluate an expression in a scope. -/
def evaluate (cx : Context) : Nat → Surroundings → Nat → Expr → Told Value
  | 0, _, _, _ => silent (throw .nestedTooDeeply)
  | allowance + 1, a, scope, e => telling a (.evaluated e) do
    Run.visit cx scope (.expr e)
    match e with
    | .ident pos name => Run.lookup scope name pos
    | .number _ n _ => return .number n
    | .string _ s => return .str s
    | .bool _ b => return .bool b
    | .null _ => return .null
    | .binary pos op l r => do
      let spine := (Expr.binary pos op l r).binarySpine
      let v ← evaluate cx allowance a scope spine.1
      foldBinary (evaluate cx allowance a scope) v spine.2
    | .logical pos op l r => do
      let spine := (Expr.logical pos op l r).logicalSpine
      let v ← evaluate cx allowance a scope spine.1
      foldLogical (evaluate cx allowance a scope) v spine.2
    | .unary pos op operand => do
      let v ← evaluate cx allowance a scope operand
      Run.ofOperation (Operation.unary pos op v)
    | .assign pos target value => do
      let v ← evaluate cx allowance a scope value
      Run.assign scope target v pos
      return v
    | .call pos callee arguments => do
      let f ← evaluate cx allowance a scope callee
      let vs ← evaluateAll (evaluate cx allowance a scope) arguments
      callValue cx (execute cx allowance a.callee) pos f vs
    | .content pos arguments =>
      contentCall (evaluate cx allowance a scope)
        (callValue cx (execute cx allowance a.callee) pos) pos arguments

end

/-- Execute a program. -/
def program (cx : Context) (allowance : Nat) (p : Program) (scope : Nat) : Told Unit := do
  Run.visit cx scope (.program p)
  Run.step cx p.pos
  match ← sequence (execute cx allowance {} scope) p.body with
  | .broke pos => Run.reject (Run.strayJump "break" pos)
  | .continued pos => Run.reject (Run.strayJump "continue" pos)
  | .normal | .returned _ => return ()

/-- Run a program against fresh scopes. -/
def start (cx : Context) (allowance : Nat) (p : Program) : Told Unit := do
  let root ← Run.openScope none
  Run.install root "print" .print
  Run.install root "len" .len
  let scope ← Run.openScope (some root)
  program cx allowance p scope

/-! ## The action in a told action -/

section Actions

variable {cx : Context} {a : Surroundings} {x : Nat → Stmt → Told Completion}
variable {e : Nat → Expr → Told Value} {i : Nat}

theorem run_bind {x : Told α} {y : Run α} {f : α → Told β} {g : α → Run β} (hx : x.run = y)
    (hf : ∀ v, (f v).run = g v) : (x >>= f).run = y >>= g := by
  obtain rfl := hx
  exact congrArg (x.run >>= ·) (funext hf)

theorem run_ite {c : Prop} [Decidable c] {x x' : Told α} {y y' : Run α} (h : x.run = y)
    (h' : x'.run = y') : (if c then x else x').run = if c then y else y' := by
  split
  · exact h
  · exact h'

theorem run_inScope (parent : Nat) {x : Nat → Told α} {y : Nat → Run α}
    (h : ∀ i, (x i).run = y i) : (inScope cx parent x).run = Run.inScope cx parent y := by
  obtain rfl : (fun i => (x i).run) = y := funext h
  rfl

theorem run_sequence (x : Stmt → Told Completion) (ss : List Stmt) :
    (sequence x ss).run = Run.sequence (fun s => (x s).run) ss := by
  induction ss with
  | nil => rfl
  | cons s ss ih =>
    refine run_bind rfl fun c => ?_
    cases c with
    | normal => exact ih
    | returned _ | broke _ | continued _ => rfl

theorem run_evaluateAll (e : Expr → Told Value) (es : List Expr) :
    (evaluateAll e es).run = Run.evaluateAll (fun c => (e c).run) es := by
  induction es with
  | nil => rfl
  | cons c es ih => exact run_bind rfl fun _ => run_bind ih fun _ => rfl

theorem run_foldBinary (e : Expr → Told Value) (v : Value) (steps : List BinaryStep) :
    (foldBinary e v steps).run = Run.foldBinary (fun c => (e c).run) v steps := by
  induction steps generalizing v with
  | nil => rfl
  | cons s steps ih => exact run_bind rfl fun _ => run_bind rfl ih

theorem run_foldLogical (e : Expr → Told Value) (v : Value) (steps : List LogicalStep) :
    (foldLogical e v steps).run = Run.foldLogical (fun c => (e c).run) v steps := by
  induction steps generalizing v with
  | nil => rfl
  | cons s steps ih => exact run_ite (ih v) (run_bind rfl ih)

theorem run_loop (pos : Position) (test : Told Bool) (body : Told Completion) (update : Told Unit)
    (rounds : Nat) : (loop cx pos test body update rounds).run =
      Run.loop cx pos test.run body.run update.run rounds := by
  induction rounds with
  | zero => rfl
  | succ rounds ih =>
    refine run_bind rfl fun go => ?_
    cases go with
    | false => rfl
    | true =>
      refine run_bind rfl fun _ => run_bind rfl fun c => ?_
      cases c with
      | normal | continued _ => exact run_bind rfl fun _ => ih
      | returned _ | broke _ => rfl

theorem run_block (i : Nat) (b : Block) :
    (block cx a x i b).run = Run.block cx (fun i s => (x i s).run) i b :=
  run_bind rfl fun _ => run_inScope i fun j => run_sequence (x j) b.body

theorem run_otherwise (rest : Else) : (otherwise cx a i (truth (e i)) (block cx a x i) rest).run =
    Run.otherwise cx i (Run.truth fun c => (e i c).run) (Run.block cx (fun i s => (x i s).run) i)
      rest := by
  cases rest with
  | none => rfl
  | block b => exact run_block i b
  | elseIf pos test b rest =>
    refine run_bind rfl fun _ => run_bind rfl fun go => ?_
    cases go with
    | true => exact run_block i b
    | false => exact run_otherwise rest

theorem run_propertyValue (e : Expr → Told Value) (p : Property) (argument : Option Expr) :
    (propertyValue cx e p argument).run =
      Run.propertyValue cx (fun c => (e c).run) p argument := by
  refine run_ite rfl ?_
  cases argument with
  | none => rfl
  | some c =>
    refine run_bind rfl fun v => ?_
    cases p.accepted? with
    | none => rfl
    | some accepted => exact run_ite rfl rfl

theorem run_style (e : Expr → Told Value) (scope : Nat) (reference : Expr) :
    (style e scope reference).run = Run.style (fun c => (e c).run) scope reference := by
  cases reference with
  | ident pos name =>
    refine run_bind rfl fun found => ?_
    cases found <;> rfl
  | _ => rfl

theorem run_expressionStatement (e : Expr → Told Value) (c : Expr) :
    (expressionStatement e c).run = Run.expressionStatement (fun c => (e c).run) c := by
  exact run_bind rfl fun v => run_bind rfl fun s => run_ite rfl rfl

theorem run_forInit (x : Stmt → Told Completion) (init : ForInit) :
    (forInit x init).run = Run.forInit (fun s => (x s).run) init := by
  cases init <;> rfl

/-- What a `for` does in its scope. Its block is told of in other surroundings than its clauses. -/
theorem run_clauses {x' : Nat → Stmt → Told Completion} {z : Nat → Stmt → Run Completion}
    {g : Expr → Run Value} (hx : (fun i s => (x i s).run) = z)
    (hx' : (fun i s => (x' i s).run) = z) (he : (fun c => (e i c).run) = g) (pos : Position)
    (init : ForInit) (test update : Option Expr) (c : Block) :
    (do
      forInit (x i) init
      loop cx pos
        (match test with
          | none => pure true
          | some c => truth (e i) c)
        (block cx a x' i c)
        (match update with
          | none => pure ()
          | some c => do
            let _ ← e i c)
        cx.patience : Told Completion).run = (do
      Run.forInit (z i) init
      Run.loop cx pos
        (match test with
          | none => pure true
          | some c => Run.truth g c)
        (Run.block cx z i c)
        (match update with
          | none => pure ()
          | some c => do
            let _ ← g c)
        cx.patience) := by
  obtain rfl := hx
  obtain rfl := he
  refine run_bind (run_forInit (x i) init) fun _ => ?_
  rw [run_loop, run_block, hx']
  cases test <;> cases update <;> rfl

theorem run_invoke (f : Closure) (vs : List Value) :
    (invoke cx x f vs).run = Run.invoke cx (fun i s => (x i s).run) f vs := by
  refine run_bind (run_inScope f.frame fun i => ?_) fun _ => rfl
  exact run_bind rfl fun _ => run_sequence (x i) f.body.body

theorem run_callWith (pos : Position) (name : String) (arity : Option Nat) (count : Nat)
    (action : Told Value) : (callWith cx pos name arity count action).run =
      Run.callWith cx pos name arity count action.run := by
  cases arity with
  | none => rfl
  | some expected => exact run_ite rfl rfl

theorem run_callValue (pos : Position) (callee : Value) (vs : List Value) :
    (callValue cx x pos callee vs).run =
      Run.callValue cx (fun i s => (x i s).run) pos callee vs := by
  cases callee with
  | closure f =>
    rw [callValue, Run.callValue, run_callWith, run_invoke]
  | builtin f => exact run_callWith ..
  | null | bool _ | number _ | str _ => rfl

theorem run_contentCall (e : Expr → Told Value) (pos : Position) (arguments : List Expr) :
    (contentCall e (callValue cx x pos) pos arguments).run =
      Run.contentCall (fun c => (e c).run) (Run.callValue cx (fun i s => (x i s).run) pos) pos
        arguments := by
  refine run_bind rfl fun s => run_ite rfl (run_ite rfl ?_)
  refine run_bind (run_evaluateAll e arguments) fun vs => ?_
  have hcall : (callValue cx x pos (vs.headD .null) vs.tail).run =
      Run.callValue cx (fun i s => (x i s).run) pos (vs.headD .null) vs.tail := run_callValue ..
  dsimp only
  generalize vs.headD .null = v at hcall ⊢
  cases v with
  | closure _ | builtin _ => exact run_bind hcall fun _ => rfl
  | null | bool _ | number _ | str _ => exact run_ite rfl rfl

end Actions

/-! ## The recursion -/

section Recursion

variable {cx : Context} {allowance : Nat}
  (hx : ∀ a i s, (execute cx allowance a i s).run = Run.execute cx allowance i s)
  (he : ∀ a i e, (evaluate cx allowance a i e).run = Run.evaluate cx allowance i e)

include hx he

theorem run_evaluate_succ (a : Surroundings) (i : Nat) (e : Expr) :
    (evaluate cx (allowance + 1) a i e).run = Run.evaluate cx (allowance + 1) i e := by
  -- where a part stands only changes what is told of it, not what it does
  have hcalled : (fun i s => (execute cx allowance a.callee i s).run) = Run.execute cx allowance :=
    funext fun i => funext fun s => hx a.callee i s
  have hparts : (fun e => (evaluate cx allowance a i e).run) = Run.evaluate cx allowance i :=
    funext fun e => he a i e
  rw [evaluate.eq_def, Run.evaluate.eq_def]
  refine run_bind rfl fun _ => ?_
  cases e with
  | ident _ _ | number _ _ _ | string _ _ | bool _ _ | null _ => rfl
  | binary pos op l r =>
    refine run_bind (he ..) fun v => ?_
    rw [run_foldBinary, hparts]
  | logical pos op l r =>
    refine run_bind (he ..) fun v => ?_
    rw [run_foldLogical, hparts]
  | unary pos op e => exact run_bind (he ..) fun _ => rfl
  | assign pos target e => exact run_bind (he ..) fun _ => rfl
  | call pos callee arguments =>
    refine run_bind (he ..) fun f => run_bind ?_ fun vs => ?_
    · rw [run_evaluateAll, hparts]
    · rw [run_callValue, hcalled]
  | content pos arguments =>
    dsimp only
    rw [run_contentCall, hparts, hcalled]

theorem run_execute_succ (a : Surroundings) (i : Nat) (s : Stmt) :
    (execute cx (allowance + 1) a i s).run = Run.execute cx (allowance + 1) i s := by
  -- the surroundings of the parts differ from statement to statement, but no action sees them
  have hx (a : Surroundings) :
      (fun i s => (execute cx allowance a i s).run) = Run.execute cx allowance :=
    funext fun i => funext fun s => hx a i s
  have he (i : Nat) :
      (fun e => (evaluate cx allowance a i e).run) = Run.evaluate cx allowance i :=
    funext fun e => he a i e
  cases s with
  | block b => rw [execute, Run.execute, run_block, hx]
  | declare pos kind name init =>
    rw [execute, Run.execute, ← he i]
    cases init <;> rfl
  | func pos name parameters c => rfl
  | property pos p argument =>
    refine run_bind rfl fun _ => run_bind ?_ fun v => rfl
    rw [run_propertyValue, he]
  | body pos reference content =>
    refine run_bind rfl fun _ => run_bind ?_ fun text => run_bind rfl fun id => ?_
    · rw [run_style, he]
    · refine run_inScope i fun j => ?_
      rw [inBody, run_sequence, ← hx a.content]
  | ifElse pos test c rest =>
    refine (run_otherwise (.elseIf pos test c rest)).trans ?_
    rw [he, hx]
    rfl
  | «while» pos test c =>
    refine run_bind rfl fun _ => ?_
    rw [run_loop, run_block, hx, ← he i]
    rfl
  | «for» pos init test update c =>
    refine run_bind rfl fun _ => run_inScope i fun j => ?_
    exact run_clauses (hx a) (hx a.round) (he j) pos init test update c
  | «return» pos value =>
    rw [execute, Run.execute, ← he i]
    cases value <;> rfl
  | «break» pos | «continue» pos => rfl
  | expr pos e =>
    refine run_bind rfl fun _ => ?_
    rw [run_expressionStatement, he]

end Recursion

/-- The action in a told run is the run. -/
theorem run_execute_evaluate (cx : Context) (allowance : Nat) :
    (∀ a i s, (execute cx allowance a i s).run = Run.execute cx allowance i s) ∧
      ∀ a i e, (evaluate cx allowance a i e).run = Run.evaluate cx allowance i e := by
  -- statements contain expressions and calls execute statements, so both go together
  induction allowance with
  | zero =>
    refine ⟨fun _ _ _ => ?_, fun _ _ _ => ?_⟩
    · rw [execute, Run.execute]
      rfl
    · rw [evaluate.eq_def, Run.evaluate.eq_def]
      rfl
  | succ allowance ih => exact ⟨run_execute_succ ih.1 ih.2, run_evaluate_succ ih.1 ih.2⟩

theorem run_program (cx : Context) (allowance : Nat) (p : Program) (scope : Nat) :
    (program cx allowance p scope).run = Run.program cx allowance p scope := by
  refine run_bind rfl fun _ => run_bind rfl fun _ => run_bind ?_ fun c => ?_
  · rw [run_sequence]
    exact congrArg (Run.sequence · p.body)
      (funext fun s => (run_execute_evaluate cx allowance).1 _ scope s)
  · cases c <;> rfl

theorem run_start (cx : Context) (allowance : Nat) (p : Program) :
    (start cx allowance p).run = Run.start cx allowance p :=
  run_bind rfl fun _ => run_bind rfl fun _ => run_bind rfl fun _ => run_bind rfl fun scope =>
    run_program cx allowance p scope

end Told

/-- The account of the run of a program in a session. -/
def Session.account (cx : Context) (allowance : Nat) (p : Program) (s : Session) : List Entry :=
  (Told.start cx allowance p).account { s with trace := #[], visits := #[] }

/-- The snapshots of the run of a program in a session, at every moment of it. -/
def Session.snapshots (cx : Context) (allowance : Nat) (p : Program) (s : Session) :
    List Snapshot :=
  (Told.start cx allowance p).snapshots { s with trace := #[], visits := #[] }

end MiniApp
