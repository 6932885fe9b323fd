import MiniApp.Eval.Evaluate
import MiniApp.Proofs.Arena.Restoration

/-!
# Scopes are there to be left

An action in a scope of its own is followed by leaving that scope, and this fails if the frame is not
there. It is there if the action keeps scopes open, as actions of runs do: a frame that has not been
released stops reclamation. Then leaving the scope is a change of the session that cannot fail.

## Main definitions

* `Run.sessionAfter`: the session that an action leaves behind
* `Run.leaving`: an action with a change of the session behind it
* `Run.KeepsOpen`: actions that keep scopes open
* `Run.enclosed`: an action in a scope of its own that is there to be left

## Main results

* `Run.closing_modify`, `Run.closing_closeScope`: when closing is a change of the session
* `Run.inScope_eq`: when a scope is there to be left
-/

namespace MiniApp

/-- The session after a scope has been left. -/
def Session.closed (cx : Context) (index : Nat) (s : Session) : Session :=
  { s with arena := s.arena.release cx.reclamation index }

namespace Run

variable {α β : Type} {cx : Context} {s : Session} {i : Nat}

/-- The session that an action leaves behind, whether it succeeds or fails. -/
def sessionAfter : EStateM.Result RunFailure Session α → Session
  | .ok _ s => s
  | .error _ s => s

/-- An action with a change of the session behind it, whether it succeeds or fails. -/
def leaving (x : Run α) (change : Session → Session) : Run α := fun s =>
  match x s with
  | .ok a t => .ok a (change t)
  | .error e t => .error e (change t)

theorem sessionAfter_leaving (x : Run α) (change : Session → Session) (s : Session) :
    sessionAfter (leaving x change s) = change (sessionAfter (x s)) := by
  rw [leaving]
  cases x s <;> rfl

/-- Closing by a change of the session. -/
theorem closing_modify (x : Run α) (change : Session → Session) :
    closing x (modify change) = leaving x change := by
  funext s
  rw [closing, leaving]
  cases x s <;> rfl

theorem closing_exitCall (x : Run α) :
    closing x exitCall = leaving x fun s => { s with meter := s.meter.exit } :=
  closing_modify x _

theorem inBody_apply (id : Nat) (x : Run α) (s : Session) : inBody id x s =
    leaving x (fun t => { t with active := s.active }) { s with active := some id } := by
  rw [inBody, closing_modify]

/-- Leaving a scope that is there. -/
theorem closeScope_eq (h : i < s.arena.size) : closeScope cx i s = .ok () (s.closed cx i) :=
  if_pos h

theorem closing_closeScope {x : Run α} (h : i < (sessionAfter (x s)).arena.size) :
    closing x (closeScope cx i) s = leaving x (Session.closed cx i) s := by
  rw [closing, leaving]
  cases hx : x s with
  | ok a t =>
    rw [hx] at h
    dsimp only
    rw [closeScope_eq (s := t) h]
  | error e t =>
    rw [hx] at h
    dsimp only
    rw [closeScope_eq (s := t) h]

/-- The action keeps scopes open. -/
def KeepsOpen (x : Run α) : Prop :=
  ∀ s i, s.arena.Open i → (sessionAfter (x s)).arena.Open i

/-- A mark on the session while an action is taken, which is not in the arena. -/
theorem KeepsOpen.inBody {x : Run α} (h : x.KeepsOpen) (id : Nat) : (inBody id x).KeepsOpen := by
  intro s i hi
  rw [inBody_apply, sessionAfter_leaving]
  exact h { s with active := some id } i hi

/-- An action in a scope of its own that is there to be left. -/
def enclosed (cx : Context) (parent : Nat) (x : Nat → Run α) : Run α := do
  let index ← openScope (some parent)
  leaving (x index) (Session.closed cx index)

/-- A scope is there to be left if the action in it keeps scopes open. -/
theorem inScope_eq (parent : Nat) {x : Nat → Run α} (h : ∀ i, (x i).KeepsOpen) :
    inScope cx parent x = enclosed cx parent x := by
  funext s
  rw [inScope, enclosed, bind_apply, bind_apply]
  exact closing_closeScope (h _ _ _ (Arena.open_allocate s.arena _)).lt_size

end Run

end MiniApp
