import MiniApp.App
import MiniApp.Meter
import MiniApp.Scope

/-!
# Sessions

A session is what programs act on while they run: the arena of scopes, the application record, the
meter, and a trace of what was printed and emitted. It outlives a single run. Actions on a session
may fail; what they did before failing stays done.

On demand a run also records every node it comes to, with the scope and the arena at that moment.
Nothing a program does depends on that record.
-/

namespace MiniApp

/-- Settings of a run that programs can feel. -/
structure RunSettings extends Limits where
  defaultWebVersion : Data := .str "1.0"

/-- Everything fixed during a run: the settings, how scopes are reclaimed, how many rounds a loop
may take before the run is given up as not ending, and whether the nodes that the run comes to are
recorded. -/
structure Context where
  settings : RunSettings
  reclamation : Reclamation := .eager
  patience : Nat
  recording : Bool := false

/-- What a run leaves in its trace. -/
inductive Event where
  | propertySet (field : String) (value : Data)
  | printed (pos : Position) (text : String)
  | emitted (value : Value)

/-- What an event adds to the printed text. -/
def Event.text : Event → String
  | .printed _ text => text ++ "\n"
  | _ => ""

/-- What a run comes to. -/
inductive Node where
  | program (p : Program)
  | stmt (s : Stmt)
  | expr (e : Expr)

/-- A node that a run has come to, with the scope and the arena at that moment. -/
structure Visit where
  node : Node
  scope : Nat
  arena : Arena Value

/-- The state that runs act on. -/
structure Session where
  arena : Arena Value := {}
  app : App := {}
  meter : Meter := {}
  /-- The identity of the body section that is being executed. -/
  active : Option Nat := none
  /-- The identity of the next function to be made. -/
  nextId : Nat := 0
  /-- What the present run has done, in order. -/
  trace : Array Event := #[]
  /-- The nodes that the present run has come to, in order, if they are recorded. -/
  visits : Array Visit := #[]

/-- Whether a body section is being executed. -/
def Session.inBody (s : Session) : Bool := s.active.isSome

/-- The text printed in the present run. -/
def Session.output (s : Session) : String :=
  String.join (s.trace.toList.map Event.text)

/-- Why a run failed. -/
inductive RunFailure where
  | rejected (d : Diagnostic)
  | fault (f : Fault)
  /-- A frame was used that is not in the arena. -/
  | dangling
  /-- Content was emitted although no body section was being executed. -/
  | noSection
  /-- Statements, expressions and calls are nested too deeply. -/
  | nestedTooDeeply
  /-- A loop took more rounds than the patience allows. -/
  | outOfPatience
  deriving DecidableEq, Repr

/-- A scope's failure in a run. -/
def ScopeFailure.toRun : ScopeFailure → RunFailure
  | .dangling => .dangling
  | .rejected d => .rejected d

/-- An action on a session. -/
abbrev Run := EStateM RunFailure Session

namespace Run

variable {α β : Type}

/-- A sequence goes on in the session that its first action leaves, unless that one fails. -/
theorem bind_apply (x : Run α) (f : α → Run β) (s : Session) : (x >>= f) s =
    match x s with
    | .ok a t => f a t
    | .error e t => .error e t := by
  change EStateM.bind x f s = _
  cases h : x s <;> rw [EStateM.bind, h]

/-- Fail with a diagnostic. -/
def reject (d : Diagnostic) : Run α := throw (.rejected d)

/-- A computation that may meet a fault. -/
def ofFault : Except Fault α → Run α
  | .ok a => pure a
  | .error f => throw (.fault f)

/-- A computation that may give a diagnostic. -/
def ofDiagnostic : Except Diagnostic α → Run α
  | .ok a => pure a
  | .error d => throw (.rejected d)

/-- Close behind an action, whether it succeeds or fails. A failure to close takes the place of what
the action has come to. -/
def closing (action : Run α) (close : Run Unit) : Run α := fun s =>
  match action s with
  | .ok a t =>
    match close t with
    | .ok () u => .ok a u
    | .error e u => .error e u
  | .error e t =>
    match close t with
    | .ok () u => .error e u
    | .error e' u => .error e' u

/-- Come to a node in a scope. -/
def visit (cx : Context) (scope : Nat) (node : Node) : Run Unit := modify fun s =>
  if cx.recording then { s with visits := s.visits.push ⟨node, scope, s.arena⟩ } else s

/-- Count a step and check the limit. -/
def step (cx : Context) (pos : Position) : Run Unit := do
  modify fun s => { s with meter := s.meter.step }
  ofDiagnostic ((← get).meter.checkSteps cx.settings.toLimits pos)

/-- Come to a statement and count it as a step. -/
def reach (cx : Context) (scope : Nat) (s : Stmt) : Run Unit := do
  visit cx scope (.stmt s)
  step cx s.pos

/-- Count a call that begins and check the limit. A refused call stays counted. -/
def enterCall (cx : Context) (name : String) (pos : Position) : Run Unit := do
  modify fun s => { s with meter := s.meter.enter name }
  ofDiagnostic ((← get).meter.checkDepth cx.settings.toLimits pos)

/-- Count a call that ends. -/
def exitCall : Run Unit := modify fun s => { s with meter := s.meter.exit }

/-- Open a scope inside another one, or one of its own. -/
def openScope (parent : Option Nat) : Run Nat := fun s =>
  .ok s.arena.size { s with arena := s.arena.allocate parent }

/-- Leave a scope. -/
def closeScope (cx : Context) (index : Nat) : Run Unit := fun s =>
  if index < s.arena.size then .ok () { s with arena := s.arena.release cx.reclamation index }
  else .error .dangling s

/-- Act in a new scope and leave it afterwards, come what may. -/
def inScope (cx : Context) (parent : Nat) (action : Nat → Run α) : Run α := do
  let index ← openScope (some parent)
  closing (action index) (closeScope cx index)

/-- Bind a name in a scope. -/
def define (scope : Nat) (name : String) (value : Value) (kind : BindingKind) (pos : Position) :
    Run Unit := fun s =>
  match s.arena.define scope name ⟨value, kind, pos⟩ with
  | .ok arena => .ok () { s with arena }
  | .error e => .error e.toRun s

/-- The value of a name. -/
def lookup (scope : Nat) (name : String) (pos : Position) : Run Value := fun s =>
  match s.arena.lookup scope name pos with
  | .ok v => .ok v s
  | .error e => .error e.toRun s

/-- Give a name another value. -/
def assign (scope : Nat) (name : String) (value : Value) (pos : Position) : Run Unit := fun s =>
  match s.arena.assign scope name value pos with
  | .ok arena => .ok () { s with arena }
  | .error e => .error e.toRun s

/-- Whether a name is bound at all. -/
def isBound (scope : Nat) (name : String) : Run Bool := fun s =>
  match s.arena.locate scope name with
  | .bound .. => .ok true s
  | .unbound => .ok false s
  | .dangling => .error .dangling s

/-- Capture a scope for a function declared in it. -/
def capture (scope : Nat) : Run Unit := fun s =>
  if scope < s.arena.size then .ok () { s with arena := s.arena.capture scope }
  else .error .dangling s

/-- A new identity. -/
def freshId : Run Nat := fun s => .ok s.nextId { s with nextId := s.nextId + 1 }

/-- Note an event. -/
def note (e : Event) : Run Unit := modify fun s => { s with trace := s.trace.push e }

/-- Append a value to the content of the section that is being executed. -/
def emit (value : Value) : Run Unit := fun s =>
  match s.active with
  -- the value itself is noted, not its text
  | some id => .ok () { s with app := s.app.emit id value, trace := s.trace.push (.emitted value) }
  | none => .error .noSection s

/-- Declare a property of the application. -/
def setProperty (p : Property) (value : Data) (pos : Position) : Run Unit := fun s =>
  match s.app.setProperty p value pos with
  | .ok app => .ok () { s with app, trace := s.trace.push (.propertySet p.field value) }
  | .error d => .error (.rejected d) s

/-- Declare the body section. -/
def openBody (style : String) (pos : Position) : Run Nat := fun s =>
  match s.app.openBody style pos with
  | .ok app => .ok s.app.nextSection { s with app }
  | .error d => .error (.rejected d) s

/-- Act with a section being executed, and restore afterwards which one was before. -/
def inBody (id : Nat) (action : Run α) : Run α := fun s =>
  closing action (modify fun t => { t with active := s.active }) { s with active := some id }

end Run

end MiniApp
