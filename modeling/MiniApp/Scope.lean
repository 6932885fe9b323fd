import MiniApp.Diagnostic
import MiniApp.Text.Quoted

/-!
# Scopes

Scopes are frames of bindings in an arena, each referring to its parent by index. A frame is marked
*released* when the block or call that opened it is left, and *captured* when a function declared in
it may outlive that moment. Released frames that are not captured are reclaimed from the top of the
arena, so their indices are used again.

## Main definitions

* `Frame`, `Arena`: frames and the arena that owns them
* `Arena.allocate`, `Arena.capture`, `Arena.release`: the life of a frame
* `Arena.locate`, `Arena.visibleNames`: resolution along the chain of parents
* `Arena.define`, `Arena.lookup`, `Arena.assign`: the operations on names
-/

namespace MiniApp

/-- How a name came to be bound. -/
inductive BindingKind where
  | let | const | func | param | builtin
  deriving DecidableEq, Repr

namespace BindingKind

/-- The word for the kind of binding. -/
def word : BindingKind → String
  | .let => "let"
  | .const => "const"
  | .func => "func"
  | .param => "param"
  | .builtin => "builtin"

/-- The kind of binding of a given word. -/
def ofWord? (s : String) : Option BindingKind :=
  [.let, .const, .func, .param, .builtin].find? (·.word == s)

end BindingKind

/-- A value under a name, with the place of its declaration. -/
structure Binding (α : Type) where
  value : α
  kind : BindingKind
  pos : Position

/-- A scope: its bindings in the order of declaration. -/
structure Frame (α : Type) where
  parent : Option Nat
  bindings : List (String × Binding α) := []
  captured : Bool := false
  released : Bool := false

namespace Frame

variable {α : Type}

/-- The names bound in the frame, in the order of declaration. -/
def names (f : Frame α) : List String := f.bindings.map (·.1)

/-- The binding of a name in this frame alone. -/
def find? (f : Frame α) (name : String) : Option (Binding α) := f.bindings.lookup name

/-- Add a binding behind the others. -/
def bind (f : Frame α) (name : String) (b : Binding α) : Frame α :=
  { f with bindings := f.bindings ++ [(name, b)] }

/-- Replace the value bound to a name. -/
def set (f : Frame α) (name : String) (value : α) : Frame α :=
  { f with bindings := f.bindings.map fun entry =>
      if entry.1 = name then (entry.1, { entry.2 with value }) else entry }

/-- The frame at an index, as a listing shows it. -/
def listing (f : Frame α) (index : Nat) : String :=
  "Environment(index=" ++ toString index ++ ", names=[" ++
    ", ".intercalate (f.names.map Text.quoted) ++ "])"

/-- A frame that may be taken from the top of the arena. -/
def isGarbage (f : Frame α) : Bool := f.released && !f.captured

end Frame

/-- All frames, oldest first. -/
structure Arena (α : Type) where
  frames : Array (Frame α) := #[]

/-- When released frames leave the arena: as soon as they are on top, or never. -/
inductive Reclamation where
  | eager | never
  deriving DecidableEq, Repr

/-- Why an operation on a scope failed. -/
inductive ScopeFailure where
  /-- The frame, or a frame further up the chain, is not in the arena. -/
  | dangling
  | rejected (d : Diagnostic)
  deriving DecidableEq, Repr

namespace Arena

variable {α : Type}

/-- Number of frames. -/
def size (a : Arena α) : Nat := a.frames.size

/-- The frame at an index. -/
def frame? (a : Arena α) (index : Nat) : Option (Frame α) := a.frames[index]?

/-- Change the frame at an index. -/
def modify (a : Arena α) (index : Nat) (f : Frame α → Frame α) : Arena α :=
  ⟨a.frames.modify index f⟩

/-- Add a frame; its index is the size of the arena before. -/
def allocate (a : Arena α) (parent : Option Nat) : Arena α := ⟨a.frames.push { parent }⟩

/-- Mark a frame as captured. -/
def capture (a : Arena α) (index : Nat) : Arena α := a.modify index ({ · with captured := true })

/-- Take released frames that are not captured from the top. -/
def reclaim (a : Arena α) : Arena α := ⟨a.frames.popWhile (·.isGarbage)⟩

/-- Mark a frame as released, and reclaim what can be reclaimed. The frame has to be there, as for
every operation on a frame; whoever releases one makes sure of that. -/
def release (policy : Reclamation) (a : Arena α) (index : Nat) : Arena α :=
  let marked := a.modify index ({ · with released := true })
  match policy with
  | .eager => marked.reclaim
  | .never => marked

/-- What resolution of a name finds along a chain of frames. -/
inductive Found (α : Type) where
  | bound (index : Nat) (b : Binding α)
  | unbound
  | dangling

/-- Resolve a name from a frame on, through at most `fuel` frames. -/
def locateFrom (a : Arena α) (name : String) : Nat → Option Nat → Found α
  | _, none => .unbound
  | 0, some _ => .dangling
  | fuel + 1, some index =>
    match a.frame? index with
    | none => .dangling
    | some f => match f.find? name with
      | some b => .bound index b
      | none => locateFrom a name fuel f.parent

/-- Resolve a name: the binding in the nearest frame of the chain that has one. A chain is no longer
than the arena. -/
def locate (a : Arena α) (index : Nat) (name : String) : Found α :=
  a.locateFrom name a.size (some index)

/-- The frames from one on up the chain, at most `fuel` of them; none if the chain breaks off. -/
def chainFrom? (a : Arena α) : Nat → Option Nat → Option (List (Frame α))
  | _, none => some []
  | 0, some _ => none
  | fuel + 1, some index => do
    let f ← a.frame? index
    let above ← chainFrom? a fuel f.parent
    return f :: above

/-- The frames of a chain, innermost first. -/
def chain? (a : Arena α) (index : Nat) : Option (List (Frame α)) :=
  a.chainFrom? a.size (some index)

/-- The names visible from a chain of frames: innermost frame first, each name once. -/
def namesOf (frames : List (Frame α)) : List String :=
  (frames.flatMap Frame.names).foldl
    (fun seen n => if seen.contains n then seen else seen ++ [n]) []

/-- The names visible from a frame. -/
def visibleNames? (a : Arena α) (index : Nat) : Option (List String) :=
  (a.chain? index).map namesOf

/-- The failure for a name that no frame of the chain binds. -/
def undeclared (a : Arena α) (index : Nat) (name : String) (pos : Position) : ScopeFailure :=
  match a.visibleNames? index with
  | none => .dangling
  | some available =>
    .rejected (.located pos (.undeclaredName (some name) available)
      ("'" ++ name ++ "' is not declared"))

/-- Bind a name in a frame that does not bind it yet. -/
def define (a : Arena α) (index : Nat) (name : String) (b : Binding α) :
    Except ScopeFailure (Arena α) :=
  match a.frame? index with
  | none => .error .dangling
  | some f => match f.find? name with
    | some first =>
      .error (.rejected (.located b.pos
        (.duplicateDeclaration (some name) (some first.pos.line) (some first.pos.column))
        ("'" ++ name ++ "' is already declared in this scope")))
    | none => .ok (a.modify index (·.bind name b))

/-- The value of a name. -/
def lookup (a : Arena α) (index : Nat) (name : String) (pos : Position) :
    Except ScopeFailure α :=
  match a.locate index name with
  | .bound _ b => .ok b.value
  | .unbound => .error (a.undeclared index name pos)
  | .dangling => .error .dangling

/-- Give the nearest binding of a name another value, unless it is constant. -/
def assign (a : Arena α) (index : Nat) (name : String) (value : α) (pos : Position) :
    Except ScopeFailure (Arena α) :=
  match a.locate index name with
  | .bound owner b =>
    -- the nearest binding decides, even if one further out could be assigned to
    if b.kind = .const then
      .error (.rejected (.located pos
        (.constReassignment (some name) (some b.pos.line) (some b.pos.column))
        ("Cannot reassign const '" ++ name ++ "'")))
    else .ok (a.modify owner (·.set name value))
  | .unbound => .error (a.undeclared index name pos)
  | .dangling => .error .dangling

end Arena

end MiniApp
