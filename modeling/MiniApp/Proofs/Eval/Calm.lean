import MiniApp.Proofs.Eval.Faults

/-!
# Calm actions

Most elementary actions of a run are *calm*: they touch nothing but scopes and identities, and if
they fail they fail in ordinary ways, with a diagnostic, a fault of numbers, a frame that is missing
or too deep a nesting. Operators and conversions to text fail in no other ways either.

## Main definitions

* `Fault.IsNumeric`, `RunFailure.Ordinary`: the failures that any action may end with
* `Run.Calm`: actions that touch nothing but scopes and identities

## Main results

* `Run.Calm.bind`, `Run.Calm.define`, `Run.Calm.binary` and others: calm actions
-/

namespace MiniApp

/-! ## Ordinary failures -/

/-- The faults of numbers at run time: an integer with too many digits to be shown, an infinite
dividend, an integer and a quotient of integers beyond the range of doubles. -/
inductive Fault.IsNumeric : Fault → Prop
  | digitLimit : IsNumeric (.digitLimit none)
  | infiniteDividend : IsNumeric .infiniteDividend
  | integerTooLarge : IsNumeric .integerTooLarge
  | quotientTooLarge : IsNumeric .quotientTooLarge

/-- The failures that any action may end with. -/
inductive RunFailure.Ordinary : RunFailure → Prop
  | rejected (d : Diagnostic) : Ordinary (.rejected d)
  | fault {f : Fault} : f.IsNumeric → Ordinary (.fault f)
  | dangling : Ordinary .dangling
  | nestedTooDeeply : Ordinary .nestedTooDeeply

theorem ScopeFailure.ordinary (e : ScopeFailure) : e.toRun.Ordinary := by
  cases e with
  | dangling => exact .dangling
  | rejected d => exact .rejected d

theorem Operation.Faulty.isNumeric {op : BinaryOp} {l r : Value} {f : Fault}
    (h : Operation.Faulty op l r f) : f.IsNumeric := by
  cases h with
  | numbers h =>
    cases h with
    | leftHuge _ _ | rightHuge _ _ | remainder _ => exact .integerTooLarge
    | quotient _ _ => exact .quotientTooLarge
    | infinite _ _ => exact .infiniteDividend
  | leftLong _ _ | rightLong _ _ => exact .digitLimit

theorem Operation.Failure.ordinary {op : BinaryOp} {l r : Value} {e : RunFailure}
    (h : Operation.Failure op l r e) : e.Ordinary := by
  cases h with
  | rejected d => exact .rejected d
  | fault h => exact .fault h.isNumeric

/-- Every property that takes a value has an entry in the table of types. -/
theorem Property.exists_accepted? {p : Property} (h : p ≠ .webPackage) :
    ∃ accepted, p.accepted? = some accepted := by
  cases p with
  | webPackage => exact absurd rfl h
  | appName | webVersion | miniVersion | appIcon => exact ⟨_, rfl⟩

/-! ## Calm actions -/

/-- A session in which nothing has changed but scopes, identities and what is recorded. -/
structure Session.Keeps (s t : Session) : Prop where
  app : t.app = s.app
  meter : t.meter = s.meter
  active : t.active = s.active
  trace : t.trace = s.trace

theorem Session.Keeps.inBody_eq {s t : Session} (h : s.Keeps t) : t.inBody = s.inBody :=
  congrArg Option.isSome h.active

namespace Run

variable {α β : Type} {s : Session}

/-- A result that touches nothing but scopes and identities, or an ordinary failure. -/
inductive CalmResult (s : Session) : EStateM.Result RunFailure Session α → Prop
  | ok {a : α} {t : Session} : s.Keeps t → CalmResult s (.ok a t)
  | error {e : RunFailure} {t : Session} : s.Keeps t → e.Ordinary → CalmResult s (.error e t)

/-- An action that touches nothing but scopes and identities, and fails in ordinary ways. -/
def Calm (x : Run α) : Prop := ∀ s, CalmResult s (x s)

namespace Calm

theorem pure (a : α) : Calm (Pure.pure a : Run α) := fun _ => .ok ⟨rfl, rfl, rfl, rfl⟩

theorem throw {e : RunFailure} (h : e.Ordinary) : Calm (MonadExcept.throw e : Run α) :=
  fun _ => .error ⟨rfl, rfl, rfl, rfl⟩ h

theorem reject (d : Diagnostic) : Calm (Run.reject d : Run α) := .throw (.rejected d)

theorem bind {x : Run α} {f : α → Run β} (hx : x.Calm) (hf : ∀ a, (f a).Calm) :
    Calm (x >>= f) := by
  intro s
  have hs := hx s
  rw [Run.bind_apply]
  generalize x s = r at hs
  cases hs with
  | error hkeeps he => exact .error hkeeps he
  | @ok a t hkeeps =>
    have ht := hf a t
    dsimp only
    generalize f a t = r at ht
    have htrans : ∀ {u}, t.Keeps u → s.Keeps u := fun h =>
      ⟨h.app.trans hkeeps.app, h.meter.trans hkeeps.meter, h.active.trans hkeeps.active,
        h.trace.trans hkeeps.trace⟩
    cases ht with
    | ok h => exact .ok (htrans h)
    | error h he => exact .error (htrans h) he

theorem ofFault {x : Except Fault α} (h : FailsOnly Fault.IsNumeric x) : Calm (Run.ofFault x) := by
  cases h with
  | ok a => exact .pure a
  | error he => exact .throw (.fault he)

theorem display (v : Value) : Calm (Run.ofFault v.display) :=
  .ofFault (v.failsOnly_display.mono fun _ h => h.1 ▸ .digitLimit)

theorem displayAll (vs : List Value) : Calm (Run.ofFault (Run.displayAll vs)) := by
  refine .ofFault ?_
  induction vs with
  | nil => exact .ok []
  | cons v vs ih =>
    exact .bind (v.failsOnly_display.mono fun _ h => h.1 ▸ .digitLimit) fun _ _ =>
      .bind ih fun _ _ => .ok _

theorem ofOperation {x : Operation} (h : FailsOnly RunFailure.Ordinary x) :
    Calm (Run.ofOperation x) := by
  cases h with
  | ok v => exact .pure v
  | error he => exact .throw he

theorem binary (pos : Position) (op : BinaryOp) (l r : Value) :
    Calm (Run.ofOperation (Operation.binary pos op l r)) :=
  .ofOperation ((Operation.failsOnly_binary pos op l r).mono fun _ h => h.ordinary)

theorem unary (pos : Position) (op : UnaryOp) (v : Value) :
    Calm (Run.ofOperation (Operation.unary pos op v)) := by
  refine .ofOperation ((Operation.failsOnly_unary pos op v).mono ?_)
  rintro _ ⟨d, rfl⟩
  exact .rejected d

theorem visit (cx : Context) (scope : Nat) (n : Node) : Calm (Run.visit cx scope n) := by
  intro s
  refine .ok ?_
  change s.Keeps (if cx.recording then _ else _)
  split <;> exact ⟨rfl, rfl, rfl, rfl⟩

theorem openScope (parent : Option Nat) : Calm (Run.openScope parent) :=
  fun _ => .ok ⟨rfl, rfl, rfl, rfl⟩

theorem freshId : Calm Run.freshId := fun _ => .ok ⟨rfl, rfl, rfl, rfl⟩

theorem define (scope : Nat) (name : String) (v : Value) (kind : BindingKind) (pos : Position) :
    Calm (Run.define scope name v kind pos) := by
  intro s
  rw [Run.define]
  split
  · exact .ok ⟨rfl, rfl, rfl, rfl⟩
  · exact .error ⟨rfl, rfl, rfl, rfl⟩ (ScopeFailure.ordinary _)

theorem lookup (scope : Nat) (name : String) (pos : Position) :
    Calm (Run.lookup scope name pos) := by
  intro s
  rw [Run.lookup]
  split
  · exact .ok ⟨rfl, rfl, rfl, rfl⟩
  · exact .error ⟨rfl, rfl, rfl, rfl⟩ (ScopeFailure.ordinary _)

theorem assign (scope : Nat) (name : String) (v : Value) (pos : Position) :
    Calm (Run.assign scope name v pos) := by
  intro s
  rw [Run.assign]
  split
  · exact .ok ⟨rfl, rfl, rfl, rfl⟩
  · exact .error ⟨rfl, rfl, rfl, rfl⟩ (ScopeFailure.ordinary _)

theorem isBound (scope : Nat) (name : String) : Calm (Run.isBound scope name) := by
  intro s
  rw [Run.isBound]
  split
  · exact .ok ⟨rfl, rfl, rfl, rfl⟩
  · exact .ok ⟨rfl, rfl, rfl, rfl⟩
  · exact .error ⟨rfl, rfl, rfl, rfl⟩ .dangling

theorem capture (scope : Nat) : Calm (Run.capture scope) := by
  intro s
  rw [Run.capture]
  split
  · exact .ok ⟨rfl, rfl, rfl, rfl⟩
  · exact .error ⟨rfl, rfl, rfl, rfl⟩ .dangling

theorem declareFunction (scope : Nat) (pos : Position) (name : String) (parameters : List String)
    (b : Block) : Calm (Run.declareFunction scope pos name parameters b) :=
  .bind .freshId fun _ => .bind (.capture _) fun _ => .bind (.define _ _ _ _ _) fun _ => .pure _

theorem bindParameters (scope : Nat) (pos : Position) (parameters : List String) (vs : List Value) :
    Calm (Run.bindParameters scope pos parameters vs) := by
  induction parameters generalizing vs with
  | nil => exact .pure ()
  | cons p ps ih =>
    cases vs with
    | nil => exact .pure ()
    | cons v vs => exact .bind (.define _ _ _ _ _) fun _ => ih vs

theorem callResult (c : Completion) : Calm (Run.callResult c) := by
  cases c with
  | normal => exact .pure _
  | returned v => exact .pure v
  | broke pos => exact .reject _
  | continued pos => exact .reject _

theorem install (scope : Nat) (name : String) (action : Action) :
    Calm (Run.install scope name action) :=
  .bind .freshId fun _ => .define _ _ _ _ _

end Calm

end Run

end MiniApp
