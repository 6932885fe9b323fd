import Mathlib
import MiniApp.Proofs.Eval.Counters
import MiniApp.Proofs.Eval.Scoping

/-!
# Termination under a limit of steps

Statements and rounds of loops count steps; expressions, calls, tests and updates do not. But there
is no unbounded work between two steps. The operands of an expression are smaller than it is, and the
body of a function that is called consists of statements, each of which counts a step before it does
anything else. So executing and evaluating end, by induction on the steps that are left and, between
two steps, on the size of expressions.

An action is given an allowance of nesting and the patience for a number of rounds. That it ends means
that enough of both leads to one and the same result, which is neither the failure of a run that was
nested too deeply nor that of one that took too many rounds.

## Main definitions

* `Run.Concludes`: results that are the program's own
* `Run.Ends`: actions that end if given enough allowance and patience

## Main results

* `Run.Ends.step_bind`: counting a step
* `Run.Ends.loop`, `Run.Ends.executes`, `Run.Ends.evaluates`: loops, statements and expressions end
* `Session.run_terminates`: runs end under a limit of steps
-/

namespace MiniApp

/-- The same but for the patience. -/
def Context.withPatience (cx : Context) (patience : Nat) : Context := { cx with patience }

/-! ## The size of operands -/

namespace Expr

theorem sizeOf_lt_of_mem_operands {e c : Expr} (h : c ∈ e.operands) : sizeOf c < sizeOf e := by
  cases e with
  | binary pos op l r | logical pos op l r =>
    simp only [binary.sizeOf_spec, logical.sizeOf_spec]
    rcases List.mem_pair.mp h with rfl | rfl <;> omega
  | unary pos op e | assign pos name e =>
    obtain rfl := List.mem_singleton.mp h
    simp only [unary.sizeOf_spec, assign.sizeOf_spec]
    omega
  | call pos f es =>
    have hlt : sizeOf c < sizeOf (f :: es) := List.sizeOf_lt_of_mem h
    simp only [call.sizeOf_spec, List.cons.sizeOf_spec] at hlt ⊢
    omega
  | content pos es =>
    have hlt : sizeOf c < sizeOf es := List.sizeOf_lt_of_mem h
    simp only [content.sizeOf_spec]
    omega
  | ident _ _ | number _ _ _ | string _ _ | bool _ _ | null _ => cases h

/-- What stands along the spine of a binary expression is no larger than it, and smaller if there is
an operator. -/
theorem sizeOf_binarySpine : ∀ e : Expr,
    sizeOf e.binarySpine.1 ≤ sizeOf e ∧ ∀ s ∈ e.binarySpine.2, sizeOf s.right < sizeOf e
  | .binary pos op l r => by
    obtain ⟨hfirst, hsteps⟩ := sizeOf_binarySpine l
    simp only [binarySpine, binary.sizeOf_spec]
    refine ⟨by omega, fun s hs => ?_⟩
    rcases List.mem_append.mp hs with hs | hs
    · have := hsteps s hs
      omega
    · obtain rfl := List.mem_singleton.mp hs
      dsimp only
      omega
  | .ident .. | .number .. | .string .. | .bool .. | .null .. | .logical .. | .unary ..
  | .assign .. | .call .. | .content .. => ⟨le_rfl, by simp [binarySpine]⟩

theorem sizeOf_logicalSpine : ∀ e : Expr,
    sizeOf e.logicalSpine.1 ≤ sizeOf e ∧ ∀ s ∈ e.logicalSpine.2, sizeOf s.right < sizeOf e
  | .logical pos op l r => by
    obtain ⟨hfirst, hsteps⟩ := sizeOf_logicalSpine l
    simp only [logicalSpine, logical.sizeOf_spec]
    refine ⟨by omega, fun s hs => ?_⟩
    rcases List.mem_append.mp hs with hs | hs
    · have := hsteps s hs
      omega
    · obtain rfl := List.mem_singleton.mp hs
      dsimp only
      omega
  | .ident .. | .number .. | .string .. | .bool .. | .null .. | .binary .. | .unary ..
  | .assign .. | .call .. | .content .. => ⟨le_rfl, by simp [logicalSpine]⟩

end Expr

namespace Run

variable {α β : Type} {cx : Context} {limit left : Nat}

/-- A result that is the program's own, and takes back none of the steps that were counted. -/
inductive Concludes (steps : Nat) : EStateM.Result RunFailure Session α → Prop
  | ok {a : α} {t : Session} : steps ≤ t.meter.steps → Concludes steps (.ok a t)
  | error {e : RunFailure} {t : Session} :
      steps ≤ t.meter.steps → e.Proper → Concludes steps (.error e t)

theorem Concludes.mono {m n : Nat} {r : EStateM.Result RunFailure Session α} (hmn : m ≤ n)
    (h : Concludes n r) : Concludes m r := by
  cases h with
  | ok hn => exact .ok (hmn.trans hn)
  | error hn he => exact .error (hmn.trans hn) he

theorem Follows.concludes {s : Session} {r : EStateM.Result RunFailure Session α}
    (h : Follows cx RunFailure.Proper s r) : Concludes s.meter.steps r := by
  cases h with
  | ok h => exact .ok h.steps_le
  | error h he => exact .error h.steps_le he

/-- An action, given an allowance and a patience, ends in every session in which no more than the
given number of steps is left: if enough of both is given, the result is always the same. -/
def Ends (limit left : Nat) (x : Nat → Nat → Run α) : Prop :=
  ∀ s : Session, limit ≤ s.meter.steps + left →
    ∃ enough result, Concludes s.meter.steps result ∧
      ∀ allowance patience, enough ≤ allowance → enough ≤ patience →
        x allowance patience s = result

namespace Ends

variable {x y : Nat → Nat → Run α}

theorem mono {n : Nat} (hn : n ≤ left) (h : Ends limit left x) : Ends limit n x :=
  fun s hs => h s (hs.trans (Nat.add_le_add_left hn _))

/-- It does not matter what is done with little allowance or patience. -/
theorem of_eq (least : Nat)
    (heq : ∀ allowance patience, least ≤ allowance → least ≤ patience →
      x allowance patience = y allowance patience) (h : Ends limit left y) :
    Ends limit left x := by
  intro s hs
  obtain ⟨enough, result, hresult, henough⟩ := h s hs
  refine ⟨max least enough, result, hresult, fun allowance patience ha hp => ?_⟩
  rw [heq _ _ (le_of_max_le_left ha) (le_of_max_le_left hp)]
  exact henough _ _ (le_of_max_le_right ha) (le_of_max_le_right hp)

/-- One level of nesting may be spent. -/
theorem spend (h : Ends limit left fun allowance => x (allowance + 1)) : Ends limit left x := by
  intro s hs
  obtain ⟨enough, result, hresult, henough⟩ := h s hs
  refine ⟨enough + 1, result, hresult, fun allowance patience ha hp => ?_⟩
  obtain ⟨allowance, rfl⟩ := Nat.exists_eq_add_of_le' (Nat.one_le_of_lt ha)
  exact henough _ _ (Nat.le_of_succ_le_succ ha) (Nat.le_of_succ_le hp)

/-! ## Actions that need no allowance -/

theorem of_concludes {x : Run α} (h : ∀ s : Session, Concludes s.meter.steps (x s)) :
    Ends limit left fun _ _ => x :=
  fun s _ => ⟨0, x s, h s, fun _ _ _ _ => rfl⟩

theorem of_evolves (cx : Context) {x : Run α} (h : ∀ b, Evolves cx RunFailure.Proper b x) :
    Ends limit left fun _ _ => x :=
  of_concludes fun s => (h s.inBody s rfl).concludes

theorem pure (a : α) : Ends limit left fun _ _ => (Pure.pure a : Run α) :=
  of_concludes fun _ => .ok le_rfl

theorem reject (d : Diagnostic) : Ends limit left fun _ _ => (Run.reject d : Run α) :=
  of_concludes fun _ => .error le_rfl (RunFailure.proper_rejected d)

theorem reject_bind (d : Diagnostic) {f : Nat → Nat → α → Run β} :
    Ends limit left fun allowance patience => Run.reject d >>= f allowance patience :=
  reject d

theorem ofFault (x : Except Fault α) : Ends limit left fun _ _ => Run.ofFault x := by
  cases x with
  | ok a => exact pure a
  | error f => exact of_concludes fun _ => .error le_rfl (RunFailure.Plain.fault f).proper

theorem ofOperation {x : Operation} (h : FailsOnly RunFailure.Plain x) :
    Ends limit left fun _ _ => Run.ofOperation x := by
  cases h with
  | ok v => exact pure v
  | error he => exact of_concludes fun _ => .error le_rfl he.proper

theorem isBound (scope : Nat) (name : String) :
    Ends limit left fun _ _ => Run.isBound scope name := by
  refine of_concludes fun s => ?_
  rw [Run.isBound]
  split
  · exact .ok le_rfl
  · exact .ok le_rfl
  · exact .error le_rfl RunFailure.Plain.dangling.proper

theorem emit (v : Value) : Ends limit left fun _ _ => Run.emit v := by
  refine of_concludes fun s => ?_
  rw [Run.emit]
  split
  · exact .ok le_rfl
  · exact .error le_rfl RunFailure.Plain.noSection.proper

theorem openBody (style : String) (pos : Position) :
    Ends limit left fun _ _ => Run.openBody style pos := by
  refine of_concludes fun s => ?_
  rw [Run.openBody]
  split
  · exact .ok le_rfl
  · exact .error le_rfl (RunFailure.proper_rejected _)

theorem enterCall (name : String) (pos : Position) :
    Ends limit left fun _ patience => Run.enterCall (cx.withPatience patience) name pos := by
  have hconcludes : ∀ s : Session, Concludes s.meter.steps (Run.enterCall cx name pos s) := by
    intro s
    change Concludes _ (Run.ofDiagnostic
      ((s.meter.enter name).checkDepth cx.settings.toLimits pos)
      { s with meter := s.meter.enter name })
    cases (s.meter.enter name).checkDepth cx.settings.toLimits pos with
    | ok _ => exact .ok le_rfl
    | error d => exact .error le_rfl (RunFailure.proper_rejected d)
  exact of_concludes hconcludes

theorem visit (scope : Nat) (n : Node) :
    Ends limit left fun _ patience => Run.visit (cx.withPatience patience) scope n := by
  have hvisit : Ends limit left fun _ _ => Run.visit cx scope n :=
    of_evolves cx fun _ => .visit scope n
  exact hvisit

/-! ## Putting actions together -/

theorem bind {f : Nat → Nat → α → Run β} (hx : Ends limit left x)
    (hf : ∀ a, Ends limit left fun allowance patience => f allowance patience a) :
    Ends limit left fun allowance patience =>
      x allowance patience >>= f allowance patience := by
  intro s hs
  obtain ⟨enough, result, hresult, henough⟩ := hx s hs
  cases hresult with
  | error hle he =>
    refine ⟨enough, _, .error hle he, fun allowance patience ha hp => ?_⟩
    dsimp only
    rw [Run.bind_apply, henough _ _ ha hp]
  | @ok a t hle =>
    obtain ⟨enough', result', hresult', henough'⟩ :=
      hf a t (hs.trans (Nat.add_le_add_right hle _))
    -- what is enough for both actions is enough for the sequence
    refine ⟨max enough enough', result', hresult'.mono hle, fun allowance patience ha hp => ?_⟩
    dsimp only
    rw [Run.bind_apply, henough _ _ (le_of_max_le_left ha) (le_of_max_le_left hp)]
    exact henough' _ _ (le_of_max_le_right ha) (le_of_max_le_right hp)

theorem get {f : Nat → Nat → Session → Run α}
    (h : ∀ s, Ends limit left fun allowance patience => f allowance patience s) :
    Ends limit left fun allowance patience => MonadState.get >>= f allowance patience :=
  bind (x := fun _ _ => MonadState.get) (of_concludes fun _ => .ok le_rfl) h

theorem ite {c : Prop} [Decidable c] (hx : Ends limit left x) (hy : Ends limit left y) :
    Ends limit left fun allowance patience =>
      if c then x allowance patience else y allowance patience := by
  by_cases hc : c
  · simpa only [if_pos hc] using hx
  · simpa only [if_neg hc] using hy

theorem closing {close : Run Unit} (hclose : ∀ s : Session, Concludes s.meter.steps (close s))
    (h : Ends limit left x) :
    Ends limit left fun allowance patience => Run.closing (x allowance patience) close := by
  intro s hs
  obtain ⟨enough, result, hresult, henough⟩ := h s hs
  have hclosing : ∀ allowance patience, enough ≤ allowance → enough ≤ patience →
      Run.closing (x allowance patience) close s = Run.closing (fun _ => result) close s := by
    intro allowance patience ha hp
    simp only [Run.closing, henough _ _ ha hp]
  refine ⟨enough, _, ?_, hclosing⟩
  dsimp only [Run.closing]
  cases hresult with
  | @ok a t hle =>
    have hclosed := hclose t
    dsimp only
    generalize close t = r at hclosed
    cases hclosed with
    | ok hle' => exact .ok (hle.trans hle')
    | error hle' he => exact .error (hle.trans hle') he
  | @error e t hle he =>
    have hclosed := hclose t
    dsimp only
    generalize close t = r at hclosed
    cases hclosed with
    | ok hle' => exact .error (hle.trans hle') he
    | error hle' he' => exact .error (hle.trans hle') he'

theorem inScope {x : Nat → Nat → Nat → Run α} (parent : Nat)
    (h : ∀ i, Ends limit left fun allowance patience => x allowance patience i) :
    Ends limit left fun allowance patience =>
      Run.inScope (cx.withPatience patience) parent (x allowance patience) := by
  refine bind (x := fun _ _ => Run.openScope (some parent)) (of_concludes fun _ => .ok le_rfl)
    fun i => ?_
  have hclose : ∀ s : Session, Concludes s.meter.steps (Run.closeScope cx i s) := by
    intro s
    rw [Run.closeScope]
    split
    · exact .ok le_rfl
    · exact .error le_rfl RunFailure.Plain.dangling.proper
  exact closing hclose (h i)

theorem inBody (id : Nat) (h : Ends limit left x) :
    Ends limit left fun allowance patience => Run.inBody id (x allowance patience) := by
  intro s hs
  have hrestored : Ends limit left fun allowance patience =>
      Run.closing (x allowance patience) (modify fun t => { t with active := s.active }) :=
    h.closing fun _ => .ok le_rfl
  exact hrestored { s with active := some id } hs

/-- Counting a step either fails or leaves one step less. -/
theorem step_bind (hlimit : (limit : Int) ∈ cx.settings.maxSteps) {f : Nat → Nat → Unit → Run α}
    (pos : Position)
    (h : ∀ n, left = n + 1 → Ends limit n fun allowance patience => f allowance patience ()) :
    Ends limit left fun allowance patience =>
      Run.step (cx.withPatience patience) pos >>= f allowance patience := by
  intro s hs
  have hsteps : s.meter.steps ≤ s.meter.step.steps := Nat.le_succ _
  have hstep : ∀ allowance patience,
      (Run.step (cx.withPatience patience) pos >>= f allowance patience) s =
        EStateM.bind (Run.ofDiagnostic (s.meter.step.checkSteps cx.settings.toLimits pos))
          (f allowance patience) { s with meter := s.meter.step } := fun _ _ => rfl
  cases hcheck : s.meter.step.checkSteps cx.settings.toLimits pos with
  -- the limit is checked in any case, so no allowance is needed to fail
  | error d =>
    rw [hcheck] at hstep
    exact ⟨0, _, .error hsteps (RunFailure.proper_rejected d), fun a p _ _ => hstep a p⟩
  | ok _ =>
    rw [hcheck] at hstep
    -- the step was allowed, so there was one left
    have hle : s.meter.steps + 1 ≤ limit :=
      Int.ofNat_le.mp (Meter.steps_le_of_checkSteps hcheck hlimit)
    obtain ⟨n, rfl⟩ : ∃ n, left = n + 1 := ⟨left - 1, by omega⟩
    obtain ⟨enough, result, hresult, henough⟩ :=
      h n rfl { s with meter := s.meter.step } (by dsimp only [Meter.step]; omega)
    exact ⟨enough, result, hresult.mono hsteps, fun a p ha hp =>
      (hstep a p).trans (henough a p ha hp)⟩

theorem reach_bind (hlimit : (limit : Int) ∈ cx.settings.maxSteps)
    {f : Nat → Nat → Unit → Run α} (scope : Nat) (s : Stmt)
    (h : ∀ n, left = n + 1 → Ends limit n fun allowance patience => f allowance patience ()) :
    Ends limit left fun allowance patience =>
      Run.reach (cx.withPatience patience) scope s >>= f allowance patience := by
  simp only [Run.reach, bind_assoc]
  exact (visit scope _).bind fun _ => step_bind hlimit s.pos h

/-- Every round of a loop counts a step, so a loop ends if its parts do. -/
theorem loop (hlimit : (limit : Int) ∈ cx.settings.maxSteps) {test : Nat → Nat → Run Bool}
    {body : Nat → Nat → Run Completion} {update : Nat → Nat → Run Unit} (pos : Position)
    (htest : Ends limit left test) (hbody : Ends limit left body)
    (hupdate : Ends limit left update) (spent : Nat) :
    Ends limit left fun allowance patience =>
      Run.loop (cx.withPatience patience) pos (test allowance patience) (body allowance patience)
        (update allowance patience) (patience - spent) := by
  -- with every round a step is spent and one round of those that patience allows
  induction left using Nat.strong_induction_on generalizing spent with
  | _ left ih =>
    suffices hround : Ends limit left fun allowance patience =>
        Run.loop (cx.withPatience patience) pos (test allowance patience)
          (body allowance patience) (update allowance patience) (patience - (spent + 1) + 1) by
      refine of_eq (spent + 1) (fun allowance patience _ hp => ?_) hround
      rw [(by omega : patience - spent = patience - (spent + 1) + 1)]
    refine htest.bind fun go => ?_
    cases go with
    | false => exact .pure _
    | true =>
      refine step_bind hlimit pos fun n hn => ?_
      have hle : n ≤ left := by omega
      refine (hbody.mono hle).bind fun c => ?_
      cases c with
      | normal | continued _ =>
        refine (hupdate.mono hle).bind fun _ => ?_
        exact ih n (by omega) (htest.mono hle) (hbody.mono hle) (hupdate.mono hle) (spent + 1)
      | returned _ | broke _ => exact .pure _

/-! ## Parts of runs -/

/-- Ways to execute statements that end. -/
def Executes (limit left : Nat) (execute : Nat → Nat → Nat → Stmt → Run Completion) : Prop :=
  ∀ i s, Ends limit left fun allowance patience => execute allowance patience i s

/-- Ways to evaluate expressions that end. -/
def Evaluates (limit left : Nat) (evaluate : Nat → Nat → Nat → Expr → Run Value) : Prop :=
  ∀ i e, Ends limit left fun allowance patience => evaluate allowance patience i e

variable {execute : Nat → Nat → Nat → Stmt → Run Completion}
variable {evaluate : Nat → Nat → Expr → Run Value} {i : Nat}

section Expressions

/-! An expression ends if its operands do. -/

theorem truth {e : Expr}
    (h : Ends limit left fun allowance patience => evaluate allowance patience e) :
    Ends limit left fun allowance patience => Run.truth (evaluate allowance patience) e :=
  h.bind fun _ => .pure _

theorem orNull {e : Option Expr}
    (h : ∀ c ∈ e, Ends limit left fun allowance patience => evaluate allowance patience c) :
    Ends limit left fun allowance patience => Run.orNull (evaluate allowance patience) e := by
  cases e with
  | none => exact .pure _
  | some c => exact h c rfl

theorem evaluateAll {es : List Expr}
    (h : ∀ e ∈ es, Ends limit left fun allowance patience => evaluate allowance patience e) :
    Ends limit left fun allowance patience =>
      Run.evaluateAll (evaluate allowance patience) es := by
  induction es with
  | nil => exact .pure _
  | cons e es ih =>
    refine (h e List.mem_cons_self).bind fun _ => ?_
    exact (ih fun c hc => h c (List.mem_cons_of_mem e hc)).bind fun _ => .pure _

theorem foldBinary {steps : List BinaryStep} (v : Value)
    (h : ∀ s ∈ steps, Ends limit left fun allowance patience =>
      evaluate allowance patience s.right) :
    Ends limit left fun allowance patience =>
      Run.foldBinary (evaluate allowance patience) v steps := by
  induction steps generalizing v with
  | nil => exact .pure v
  | cons s steps ih =>
    refine (h s List.mem_cons_self).bind fun r => ?_
    refine (ofOperation (Operation.plain_binary s.pos s.op v r)).bind fun v => ?_
    exact ih v fun c hc => h c (List.mem_cons_of_mem s hc)

theorem foldLogical {steps : List LogicalStep} (v : Value)
    (h : ∀ s ∈ steps, Ends limit left fun allowance patience =>
      evaluate allowance patience s.right) :
    Ends limit left fun allowance patience =>
      Run.foldLogical (evaluate allowance patience) v steps := by
  induction steps generalizing v with
  | nil => exact .pure v
  | cons s steps ih =>
    have hrest := fun v => ih v fun c hc => h c (List.mem_cons_of_mem s hc)
    exact ite (hrest v) ((h s List.mem_cons_self).bind hrest)

theorem style {scope : Nat} {reference : Expr}
    (h : Ends limit left fun allowance patience => evaluate allowance patience reference) :
    Ends limit left fun allowance patience =>
      Run.style (evaluate allowance patience) scope reference := by
  have hshown : Ends limit left fun allowance patience =>
      (do Run.ofFault (← evaluate allowance patience reference).display : Run String) :=
    h.bind fun v => ofFault v.display
  cases reference with
  | ident pos name =>
    exact (isBound scope name).bind fun _ => ite hshown (.pure _)
  | _ => exact hshown

theorem expressionStatement {e : Expr}
    (h : Ends limit left fun allowance patience => evaluate allowance patience e) :
    Ends limit left fun allowance patience =>
      Run.expressionStatement (evaluate allowance patience) e :=
  h.bind fun v => get fun _ => ite ((emit v).bind fun _ => .pure _) (.pure _)

theorem propertyValue {argument : Option Expr} (p : Property)
    (h : ∀ e ∈ argument, Ends limit left fun allowance patience =>
      evaluate allowance patience e) :
    Ends limit left fun allowance patience =>
      Run.propertyValue (cx.withPatience patience) (evaluate allowance patience) p argument := by
  refine ite (.pure _) ?_
  cases argument with
  | none => exact .pure cx.settings.defaultWebVersion
  | some e =>
    refine (h e rfl).bind fun v => ?_
    cases p.accepted? with
    | none => exact of_concludes fun _ => .error le_rfl (RunFailure.Plain.fault _).proper
    | some accepted => exact ite ((ofFault v.display).bind fun _ => .pure _) (reject _)

end Expressions

section Statements

variable (hx : Executes limit left execute)
include hx

theorem sequence (ss : List Stmt) :
    Ends limit left fun allowance patience =>
      Run.sequence (execute allowance patience i) ss := by
  induction ss with
  | nil => exact .pure _
  | cons s ss ih =>
    refine (hx i s).bind fun c => ?_
    cases c with
    | normal => exact ih
    | returned _ | broke _ | continued _ => exact .pure _

theorem forInit (init : ForInit) :
    Ends limit left fun allowance patience =>
      Run.forInit (execute allowance patience i) init := by
  cases init with
  | none => exact .pure _
  | declare _ _ _ _ | expr _ _ => exact (hx i _).bind fun _ => .pure _

theorem invoke (f : Closure) (vs : List Value) :
    Ends limit left fun allowance patience =>
      Run.invoke (cx.withPatience patience) (execute allowance patience) f vs := by
  refine bind (inScope f.frame fun i => ?_) fun c => of_evolves cx fun _ => .callResult c
  refine bind (x := fun _ _ => Run.bindParameters i f.pos f.parameters vs) ?_ fun _ => ?_
  · exact of_evolves cx fun _ => .bindParameters i f.pos f.parameters vs
  · exact sequence hx f.body.body

theorem callValue (pos : Position) (callee : Value) (vs : List Value) :
    Ends limit left fun allowance patience =>
      Run.callValue (cx.withPatience patience) (execute allowance patience) pos callee vs := by
  have hcall : ∀ (name : String) (arity : Option Nat) {x : Nat → Nat → Run Value},
      Ends limit left x → Ends limit left fun allowance patience =>
        Run.callWith (cx.withPatience patience) pos name arity vs.length
          (x allowance patience) := by
    intro name arity x h
    have hcounted : Ends limit left fun allowance patience => (do
        Run.enterCall (cx.withPatience patience) name pos
        Run.closing (x allowance patience) Run.exitCall) :=
      (enterCall name pos).bind fun _ => closing (fun _ => .ok le_rfl) h
    cases arity with
    | none => exact hcounted
    | some expected => exact ite (reject_bind _) hcounted
  cases callee with
  | closure f => exact hcall f.name (some f.parameters.length) (invoke hx f vs)
  | builtin f =>
    refine hcall f.name f.action.arity? ?_
    exact of_evolves cx fun _ => .perform pos f.action vs
  | null | bool _ | number _ | str _ => exact reject _

/-- A content call ends if its arguments do. -/
theorem contentCall {arguments : List Expr} (pos : Position)
    (he : ∀ e ∈ arguments, Ends limit left fun allowance patience =>
      evaluate allowance patience e) :
    Ends limit left fun allowance patience =>
      Run.contentCall (evaluate allowance patience)
        (Run.callValue (cx.withPatience patience) (execute allowance patience) pos) pos
        arguments := by
  refine get fun s => ite (reject_bind _) (ite (reject_bind _) ?_)
  refine (evaluateAll he).bind fun vs => ?_
  have hemit : ∀ v, Ends limit left fun _ _ => (do Run.emit v; return v : Run Value) := fun v =>
    (emit v).bind fun _ => .pure v
  have hcall : Ends limit left fun allowance patience => (do
      let v ← Run.callValue (cx.withPatience patience) (execute allowance patience) pos
        (vs.headD .null) vs.tail
      Run.emit v
      return v) := (callValue hx pos (vs.headD .null) vs.tail).bind hemit
  generalize vs.headD .null = v at hcall ⊢
  cases v with
  | closure _ | builtin _ => exact hcall
  | null | bool _ | number _ | str _ => exact ite (.bind (.pure _) hemit) (reject_bind _)

end Statements

/-! ## The recursion -/

/-- The ways to execute that a run gives its parts. -/
abbrev executing (cx : Context) (allowance patience : Nat) : Nat → Stmt → Run Completion :=
  Run.execute (cx.withPatience patience) allowance

/-- The ways to evaluate that a run gives its parts. -/
abbrev evaluating (cx : Context) (allowance patience : Nat) : Nat → Expr → Run Value :=
  Run.evaluate (cx.withPatience patience) allowance

/-- Expressions end if statements do: operands are smaller, and functions consist of statements. -/
theorem evaluates (hx : Executes limit left (executing cx)) :
    Evaluates limit left (evaluating cx) := by
  intro i e
  -- operands along a spine are no direct operands, so the induction is on the size
  induction hsize : sizeOf e using Nat.strong_induction_on generalizing e with
  | _ size ih =>
    subst hsize
    have hsmaller : ∀ c, sizeOf c < sizeOf e →
        Ends limit left fun allowance patience => evaluating cx allowance patience i c :=
      fun c hc => ih _ hc c rfl
    have hoperands : ∀ c ∈ e.operands,
        Ends limit left fun allowance patience => evaluating cx allowance patience i c :=
      fun c hc => hsmaller c (Expr.sizeOf_lt_of_mem_operands hc)
    refine spend ?_
    refine (visit i (.expr e)).bind fun _ => ?_
    cases e with
    | ident pos name => exact of_evolves cx fun _ => .lookup i name pos
    | number _ _ _ | string _ _ | bool _ _ | null _ => exact .pure _
    | binary pos op l r =>
      have hl : sizeOf l < sizeOf (Expr.binary pos op l r) :=
        Expr.sizeOf_lt_of_mem_operands List.mem_cons_self
      refine (hsmaller _ ((Expr.sizeOf_binarySpine l).1.trans_lt hl)).bind fun v => ?_
      exact foldBinary v fun s hs => hsmaller _ ((Expr.sizeOf_binarySpine _).2 s hs)
    | logical pos op l r =>
      have hl : sizeOf l < sizeOf (Expr.logical pos op l r) :=
        Expr.sizeOf_lt_of_mem_operands List.mem_cons_self
      refine (hsmaller _ ((Expr.sizeOf_logicalSpine l).1.trans_lt hl)).bind fun v => ?_
      exact foldLogical v fun s hs => hsmaller _ ((Expr.sizeOf_logicalSpine _).2 s hs)
    | unary pos op c =>
      refine (hoperands c List.mem_cons_self).bind fun v => ?_
      exact ofOperation (Operation.plain_unary pos op v)
    | assign pos target c =>
      refine (hoperands c List.mem_cons_self).bind fun v => ?_
      refine bind (x := fun _ _ => Run.assign i target v pos) ?_ fun _ => .pure v
      exact of_evolves cx fun _ => .assign i target v pos
    | call pos callee arguments =>
      refine (hoperands callee List.mem_cons_self).bind fun v => ?_
      refine (evaluateAll fun c hc => hoperands c (List.mem_cons_of_mem _ hc)).bind fun vs => ?_
      exact callValue hx pos v vs
    | content pos arguments => exact contentCall hx pos hoperands

section Statements

variable (hlimit : (limit : Int) ∈ cx.settings.maxSteps)
variable (hx : Executes limit left (executing cx)) (he : Evaluates limit left (evaluating cx))

include hlimit hx in
theorem block (i : Nat) (b : Block) :
    Ends limit left fun allowance patience =>
      Run.block (cx.withPatience patience) (executing cx allowance patience) i b := by
  refine reach_bind hlimit i (.block b) fun n hn => inScope i fun i => ?_
  exact sequence (fun i s => (hx i s).mono (by omega)) b.body

include hlimit hx he in
theorem otherwise (rest : Else) :
    Ends limit left fun allowance patience =>
      Run.otherwise (cx.withPatience patience) i
        (Run.truth (evaluating cx allowance patience i))
        (Run.block (cx.withPatience patience) (executing cx allowance patience) i) rest := by
  cases rest with
  | none => exact .pure _
  | block b => exact block hlimit hx i b
  | elseIf pos test b rest =>
    refine reach_bind hlimit i (.ifElse pos test b rest) fun n hn => ?_
    have hle : n ≤ left := by omega
    refine (truth ((he i test).mono hle)).bind fun _ => ?_
    exact ite ((block hlimit hx i b).mono hle) ((otherwise rest).mono hle)

/-- Statements end if statements and expressions do with one step less left. -/
theorem executes (hlimit : (limit : Int) ∈ cx.settings.maxSteps)
    (hx : ∀ n, left = n + 1 → Executes limit n (executing cx))
    (he : ∀ n, left = n + 1 → Evaluates limit n (evaluating cx)) :
    Executes limit left (executing cx) := by
  intro i s
  refine spend ?_
  -- every statement counts a step first, and the rest of it has one less left
  cases s with
  | block b =>
    exact reach_bind hlimit i (.block b) fun n hn => inScope i fun i => sequence (hx n hn) b.body
  | declare pos kind name init =>
    refine reach_bind hlimit i (.declare pos kind name init) fun n hn => ?_
    refine (orNull fun e _ => he n hn i e).bind fun v => ?_
    refine bind (x := fun _ _ =>
      Run.define i name v (if kind = .const then .const else .let) pos) ?_ fun _ => .pure _
    exact of_evolves cx fun _ => .define _ _ _ _ _
  | func pos name parameters b =>
    have hdeclare : Ends limit left fun _ _ => (do
        Run.reach cx i (.func pos name parameters b)
        Run.declareFunction i pos name parameters b) :=
      of_evolves cx fun _ => .reach_declareFunction i pos name parameters b
    exact hdeclare
  | property pos p argument =>
    refine reach_bind hlimit i (.property pos p argument) fun n hn => ?_
    refine (propertyValue p fun e _ => he n hn i e).bind fun v => ?_
    refine bind (x := fun _ _ => Run.setProperty p v pos) ?_ fun _ => .pure _
    exact of_evolves cx fun _ => .setProperty p v pos
  | body pos reference ss =>
    refine reach_bind hlimit i (.body pos reference ss) fun n hn => ?_
    refine (style (he n hn i reference)).bind fun text => ?_
    exact (openBody text pos).bind fun id => inScope i fun i => inBody id (sequence (hx n hn) ss)
  | ifElse pos test b rest =>
    refine reach_bind hlimit i (.ifElse pos test b rest) fun n hn => ?_
    refine (truth (he n hn i test)).bind fun _ => ?_
    exact ite (block hlimit (hx n hn) i b) (otherwise hlimit (hx n hn) (he n hn) rest)
  | «while» pos test b =>
    refine reach_bind hlimit i (.while pos test b) fun n hn => ?_
    exact loop hlimit pos (truth (he n hn i test)) (block hlimit (hx n hn) i b) (.pure _) 0
  | «for» pos init test update b =>
    refine reach_bind hlimit i (.for pos init test update b) fun n hn => inScope i fun i => ?_
    refine (forInit (hx n hn) init).bind fun _ => ?_
    refine loop hlimit pos ?_ (block hlimit (hx n hn) i b) ?_ 0
    · cases test with
      | none => exact .pure _
      | some test => exact truth (he n hn i test)
    · cases update with
      | none => exact .pure _
      | some update => exact (he n hn i update).bind fun _ => .pure _
  | «return» pos value =>
    refine reach_bind hlimit i (.return pos value) fun n hn => ?_
    exact (orNull fun e _ => he n hn i e).bind fun _ => .pure _
  | «break» pos => exact reach_bind hlimit i (.break pos) fun _ _ => .pure _
  | «continue» pos => exact reach_bind hlimit i (.continue pos) fun _ _ => .pure _
  | expr pos e =>
    refine reach_bind hlimit i (.expr pos e) fun n hn => ?_
    exact expressionStatement (he n hn i e)

end Statements

/-- However many steps are left, executing ends: by induction on their number. -/
theorem executing_ends (hlimit : (limit : Int) ∈ cx.settings.maxSteps) (left : Nat) :
    Executes limit left (executing cx) := by
  induction left with
  | zero => exact executes hlimit (fun n hn => by omega) fun n hn => by omega
  | succ left ih =>
    refine executes hlimit (fun n hn => ?_) fun n hn => ?_
    · obtain rfl := Nat.succ.inj hn
      exact ih
    · obtain rfl := Nat.succ.inj hn
      exact evaluates ih

theorem program (hlimit : (limit : Int) ∈ cx.settings.maxSteps) (p : Program) (scope : Nat) :
    Ends limit left fun allowance patience =>
      Run.program (cx.withPatience patience) allowance p scope := by
  refine (visit scope (.program p)).bind fun _ => step_bind hlimit p.pos fun n _ => ?_
  refine (sequence (executing_ends hlimit n) p.body).bind fun c => ?_
  cases c with
  | normal | returned _ => exact .pure _
  | broke _ | continued _ => exact reject _

end Ends

end Run

theorem RunFailure.Proper.inFile {e : RunFailure} (h : e.Proper) (path : String) :
    (e.inFile path).Proper := by
  cases e with
  | rejected d => exact RunFailure.proper_rejected _
  | _ => exact h

/-- Termination under a limit of steps. In a fresh session every program ends, whatever the limit of
calls is: enough allowance and patience always lead to the same outcome, in which the run has not
been given up for its nesting or its rounds. At most one step more than allowed is counted, and that
many if and only if the run has failed for the limit of steps. -/
theorem Session.run_terminates (cx : Context) (limit : Nat) (path : String) (p : Program) :
    let cx : Context := { cx with settings := { cx.settings with maxSteps := some limit } }
    (∃ enough, ∃ outcome : Option RunFailure × Session, (∀ e ∈ outcome.1, e.Proper) ∧
      ∀ allowance ≥ enough, ∀ patience ≥ enough,
        Session.run (cx.withPatience patience) allowance path p {} = outcome) ∧
    ∀ allowance, let result := Session.run cx allowance path p {}
      result.2.meter.steps ≤ limit + 1 ∧
        (result.2.meter.steps = limit + 1 ↔ ∃ e ∈ result.1, e.HasTrouble .stepLimit) := by
  intro cx
  have hlimit : (limit : Int) ∈ cx.settings.maxSteps := rfl
  refine ⟨?_, fun allowance => ?_⟩
  · have hends : Run.Ends limit limit fun allowance patience =>
        Run.program (cx.withPatience patience) allowance p 1 := Run.Ends.program hlimit p 1
    obtain ⟨enough, result, hresult, henough⟩ := hends (Session.opened {}) (Nat.le_add_left _ _)
    have hrun : ∀ allowance ≥ enough, ∀ patience ≥ enough,
        Run.start (cx.withPatience patience) allowance p {} = result := by
      intro allowance ha patience hp
      rw [Run.start_eq]
      exact henough allowance patience ha hp
    -- the outcome is named by the result, with the file in its diagnostic
    cases hresult with
    | @ok _ t _ =>
      refine ⟨enough, (none, t), fun _ he => (nomatch he), fun allowance ha patience hp => ?_⟩
      rw [Session.run, hrun allowance ha patience hp]
    | @error e t _ he =>
      refine ⟨enough, (some (e.inFile path), t), fun e' he' => ?_,
        fun allowance ha patience hp => ?_⟩
      · obtain rfl := Option.some.inj he'
        exact he.inFile path
      · rw [Session.run, hrun allowance ha patience hp]
  · obtain ⟨f, hevolves, hfailure⟩ := Session.run_evolves cx allowance path p {}
    obtain ⟨hle, hiff⟩ := hevolves.stepped hlimit (Nat.zero_le limit)
    exact ⟨hle, by rw [hfailure, RunFailure.exists_inFile]; exact hiff⟩

/-- A loop without end under a limit of three steps: it ends, and the fourth step is refused. -/
theorem Session.run_terminates_while :
    let cx : Context := { settings := { maxSteps := some 3 }, patience := 9 }
    let p : Program := ⟨⟨1, 1⟩, [.while ⟨1, 1⟩ (.bool ⟨1, 8⟩ true) (.mk ⟨1, 14⟩ [])]⟩
    (∃ enough, ∃ outcome : Option RunFailure × Session, (∀ e ∈ outcome.1, e.Proper) ∧
        ∀ allowance ≥ enough, ∀ patience ≥ enough,
          Session.run (cx.withPatience patience) allowance "" p {} = outcome) ∧
      let result := Session.run cx 9 "" p {}
      result.2.meter.steps = 4 ∧ ∃ e ∈ result.1, e.HasTrouble .stepLimit := by
  intro cx p
  have hsteps : (Session.run cx 9 "" p {}).2.meter.steps = 4 := by cbv
  -- from here on the count of its steps is all that matters about the program
  clear_value p
  obtain ⟨hends, hcounted⟩ := Session.run_terminates cx 3 "" p
  exact ⟨hends, hsteps, (hcounted 9).2.mp hsteps⟩

end MiniApp
