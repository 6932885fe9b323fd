import MiniApp.Diagnostic

/-!
# Limits of a run

A meter counts the steps of a run and keeps the stack of calls in progress. Counting comes first and
checking against the limits second, so a refused step or call has been counted.
-/

namespace MiniApp

/-- Bounds on a run. Without a bound on steps a run may go on for ever. -/
structure Limits where
  maxCallDepth : Int := 100
  maxSteps : Option Int := some 1000000
  deriving DecidableEq, Repr

/-- Counters of a run. -/
structure Meter where
  steps : Nat := 0
  depth : Int := 0
  /-- The names of the functions called, latest first. -/
  calls : List String := []
  deriving DecidableEq, Repr

namespace Meter

/-- The names of the functions called, earliest first. -/
def stack (m : Meter) : List String := m.calls.reverse

/-- Count a step. -/
def step (m : Meter) : Meter := { m with steps := m.steps + 1 }

/-- Count a call that begins. -/
def enter (m : Meter) (name : String) : Meter :=
  { m with depth := m.depth + 1, calls := name :: m.calls }

/-- Count a call that ends. -/
def exit (m : Meter) : Meter := { m with depth := m.depth - 1, calls := m.calls.tail }

/-- How many calls a message about the depth lists. -/
def listedCalls : Nat := 10

/-- The diagnostic of a call that goes too deep. -/
def depthExceeded (l : Limits) (m : Meter) (pos : Position) : Diagnostic :=
  .located pos .callDepth
    ("Maximum call depth (" ++ toString l.maxCallDepth ++ ") exceeded. Call stack: " ++
      " -> ".intercalate (m.calls.take listedCalls).reverse)

/-- The diagnostic of one step too many. -/
def stepsExceeded (limit : Int) (pos : Position) : Diagnostic :=
  .located pos .stepLimit ("Maximum evaluation steps (" ++ toString limit ++ ") exceeded")

/-- What the limit of calls says about a meter. -/
def checkDepth (l : Limits) (m : Meter) (pos : Position) : Except Diagnostic Unit :=
  if l.maxCallDepth < m.depth then .error (m.depthExceeded l pos) else .ok ()

/-- What the limit of steps says about a meter. -/
def checkSteps (l : Limits) (m : Meter) (pos : Position) : Except Diagnostic Unit :=
  match l.maxSteps with
  | some limit => if limit < m.steps then .error (stepsExceeded limit pos) else .ok ()
  | none => .ok ()

end Meter

end MiniApp
