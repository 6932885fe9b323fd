import MiniApp.Proofs.Eval.Faults
import MiniApp.Proofs.Eval.Leaving

/-!
# What a run can do to a session

Whatever a program is made of, a run changes its session in few ways: it comes to nodes and counts
steps, binds names and captures scopes, prints, emits content and declares properties. It does so
within calls, scopes and the body section, which are left again whether what is done in them succeeds
or fails. A session *evolves* into another one if it can be changed in these ways. Executing and
evaluating let sessions evolve, so what holds of a session throughout a run is shown by induction on
how it has evolved.

## Main definitions

* `Session.Change`: one elementary change of a session
* `Session.Evolves`: how sessions change, and the failure that ended the change
* `Session.ComesTo`: the sessions in between, with the calls in progress
* `Run.Evolves`: actions that let sessions evolve

## Main results

* `Run.Evolves.execute`, `Run.Evolves.evaluate`, `Run.Evolves.program`: runs let sessions evolve
* `Run.start_eq`: the scopes that a program is run in
-/

namespace MiniApp

/-! ## Failures -/

/-- A limit of the calls in progress or of the steps was hit. -/
def RunFailure.IsLimit : RunFailure → Prop
  | .rejected d => d.trouble = .callDepth ∨ d.trouble = .stepLimit
  | _ => False

/-- The troubles of limits. -/
def Trouble.isLimit : Trouble → Bool
  | .callDepth | .stepLimit => true
  | _ => false

/-- The troubles that are neither those of limits nor that of jumps. -/
def Trouble.isPlain : Trouble → Bool
  | .callDepth | .stepLimit | .controlFlow => false
  | _ => true

namespace RunFailure

/-- The failures of actions that check no limit and have nothing to do with jumps. -/
inductive Plain : RunFailure → Prop
  | rejected {d : Diagnostic} : d.trouble.isPlain = true → Plain (.rejected d)
  | fault (f : Fault) : Plain (.fault f)
  | dangling : Plain .dangling
  | noSection : Plain .noSection

/-- The failures that are the program's own: the run was not given up for its nesting or its
rounds. -/
def Proper (e : RunFailure) : Prop := e ≠ .nestedTooDeeply ∧ e ≠ .outOfPatience

/-- Any failure. -/
def Any (_ : RunFailure) : Prop := True

theorem Plain.located {pos : Position} {trouble : Trouble} {message : String}
    (h : trouble.isPlain = true) : Plain (.rejected (.located pos trouble message)) :=
  .rejected h

theorem not_isLimit_rejected {d : Diagnostic} (h : d.trouble.isLimit = false) :
    ¬ IsLimit (.rejected d) := by
  rintro (htrouble | htrouble)
  · rw [htrouble] at h
    cases h
  · rw [htrouble] at h
    cases h

theorem Plain.not_isLimit {e : RunFailure} (h : e.Plain) : ¬ e.IsLimit := by
  cases h with
  | @rejected d h =>
    have hlimit : d.trouble.isLimit = false := by
      generalize d.trouble = trouble at h ⊢
      cases trouble with
      | callDepth | stepLimit => cases h
      | _ => rfl
    exact not_isLimit_rejected hlimit
  | fault _ | dangling | noSection => exact id

theorem Plain.proper {e : RunFailure} (h : e.Plain) : e.Proper := by
  cases h <;> exact ⟨nofun, nofun⟩

theorem proper_rejected (d : Diagnostic) : Proper (.rejected d) := ⟨nofun, nofun⟩

end RunFailure

theorem ScopeFailure.plain_undeclared {α : Type} (a : Arena α) (i : Nat) (name : String)
    (pos : Position) : (a.undeclared i name pos).toRun.Plain := by
  rw [Arena.undeclared]
  split
  · exact .dangling
  · exact .located rfl

namespace Arena

variable {α : Type} {a : Arena α} {i : Nat} {name : String} {pos : Position} {e : ScopeFailure}

theorem plain_of_define {b : Binding α} (h : a.define i name b = .error e) : e.toRun.Plain := by
  rw [define] at h
  split at h
  · cases h
    exact .dangling
  · split at h
    · cases h
      exact .located rfl
    · cases h

theorem plain_of_lookup (h : a.lookup i name pos = .error e) : e.toRun.Plain := by
  rw [lookup] at h
  split at h
  · cases h
  · cases h
    exact ScopeFailure.plain_undeclared ..
  · cases h
    exact .dangling

theorem plain_of_assign {v : α} (h : a.assign i name v pos = .error e) : e.toRun.Plain := by
  rw [assign] at h
  split at h
  · split at h
    · cases h
      exact .located rfl
    · cases h
  · cases h
    exact ScopeFailure.plain_undeclared ..
  · cases h
    exact .dangling

end Arena

namespace App

variable {a b : App} {field keyword style : String} {pos : Position} {d : Diagnostic}

theorem plain_of_reserve (h : a.reserve field keyword pos = .error d) :
    RunFailure.Plain (.rejected d) := by
  rw [reserve] at h
  split at h
  · cases h
    exact .located rfl
  · cases h

theorem plain_of_setProperty {p : Property} {value : Data}
    (h : a.setProperty p value pos = .error d) : RunFailure.Plain (.rejected d) := by
  rw [setProperty] at h
  cases hreserve : a.reserve p.field p.keyword pos with
  | ok reserved =>
    rw [hreserve] at h
    cases h
  | error d' =>
    rw [hreserve] at h
    cases h
    exact plain_of_reserve hreserve

theorem plain_of_openBody (h : a.openBody style pos = .error d) :
    RunFailure.Plain (.rejected d) := by
  rw [openBody] at h
  cases hreserve : a.reserve "body" "body" pos with
  | ok reserved =>
    rw [hreserve] at h
    cases h
  | error d' =>
    rw [hreserve] at h
    cases h
    exact plain_of_reserve hreserve

end App

namespace Operation

variable (pos : Position) (op : BinaryOp) (l r : Value)

theorem plain_ofFault {α : Type} (x : Except Fault α) : FailsOnly RunFailure.Plain (ofFault x) := by
  cases x with
  | ok a => exact .ok a
  | error f => exact .error (.fault f)

theorem plain_requireNumbers (wanted : String) :
    FailsOnly RunFailure.Plain (requireNumbers pos op wanted l r) := by
  rw [requireNumbers]
  split
  · exact .error (.located rfl)
  · split
    · exact .error (.located rfl)
    · exact .ok _

theorem plain_onNumbers (f : Number → Number → Except Fault Number) :
    FailsOnly RunFailure.Plain (onNumbers f l r) := by
  rw [onNumbers.eq_def]
  split
  · exact .bind (plain_ofFault _) fun _ _ => .ok _
  · exact .error (.fault _)

theorem plain_arithmetic (f : Number → Number → Except Fault Number) :
    FailsOnly RunFailure.Plain (arithmetic pos op f l r) :=
  .bind (plain_requireNumbers ..) fun _ _ => plain_onNumbers ..

theorem plain_division (name : String) (f : Number → Number → Except Fault Number) :
    FailsOnly RunFailure.Plain (division pos op name f l r) := by
  refine .bind (plain_requireNumbers ..) fun _ _ => ?_
  split
  · exact .error (.located rfl)
  · exact plain_onNumbers ..

theorem plain_order (onNumbers : Number → Number → Bool) (onTexts : String → String → Bool) :
    FailsOnly RunFailure.Plain (order onNumbers onTexts l r) := by
  rw [order.eq_def]
  split
  · exact .ok _
  · exact .ok _
  · exact .error (.fault _)

theorem plain_compare (onNumbers : Number → Number → Bool) (onTexts : String → String → Bool) :
    FailsOnly RunFailure.Plain (compare pos op onNumbers onTexts l r) := by
  rw [compare]
  split
  · exact plain_order ..
  · exact .error (.located rfl)

theorem plain_sum : FailsOnly RunFailure.Plain (sum pos l r) := by
  rw [sum]
  split
  · exact .bind (plain_ofFault _) fun _ _ => .bind (plain_ofFault _) fun _ _ => .ok _
  · exact .bind (plain_requireNumbers ..) fun _ _ => plain_onNumbers ..

/-- Operators check no limit. -/
theorem plain_binary : FailsOnly RunFailure.Plain (binary pos op l r) := by
  cases op with
  | eq | ne => exact .ok _
  | add => exact plain_sum ..
  | lt | gt | le | ge => exact plain_compare ..
  | sub | mul => exact plain_arithmetic ..
  | div | mod => exact plain_division ..

theorem plain_negate (v : Value) : FailsOnly RunFailure.Plain (negate v) := by
  rw [negate.eq_def]
  split
  · exact .ok _
  · exact .error (.fault _)

theorem plain_unary (op : UnaryOp) (v : Value) : FailsOnly RunFailure.Plain (unary pos op v) := by
  rw [unary.eq_def]
  split
  · exact .ok _
  · split
    · exact .error (.located rfl)
    · exact plain_negate v
  · split
    · exact .error (.located rfl)
    · exact plain_negate v

end Operation

/-! ## Sessions that evolve -/

/-- Declarations of functions, among the nodes that a run comes to. -/
def Node.IsFunction : Node → Prop
  | .stmt (.func ..) => True
  | _ => False

namespace Session

/-- One elementary change of a session. A scope is captured for a function whose declaration has been
come to in that scope. -/
inductive Change (cx : Context) : Session → Session → Prop
  | visited (s : Session) (node : Node) (scope : Nat) :
      Change cx s { s with visits := s.visits.push ⟨node, scope, s.arena⟩ }
  | counted {s : Session} {pos : Position} :
      s.meter.step.checkSteps cx.settings.toLimits pos = .ok () →
      Change cx s { s with meter := s.meter.step }
  | defined {s : Session} {scope : Nat} {name : String} {b : Binding Value} {arena : Arena Value} :
      s.arena.define scope name b = .ok arena → Change cx s { s with arena }
  | assigned {s : Session} {scope : Nat} {name : String} {v : Value} {pos : Position}
      {arena : Arena Value} :
      s.arena.assign scope name v pos = .ok arena → Change cx s { s with arena }
  -- which declaration captures it is known from the visits, so only where these are recorded
  | captured {s : Session} {scope : Nat} : scope < s.arena.size →
      (cx.recording = true → ∃ v ∈ s.visits, v.scope = scope ∧ v.node.IsFunction) →
      Change cx s { s with arena := s.arena.capture scope }
  | identified (s : Session) : Change cx s { s with nextId := s.nextId + 1 }
  | printed (s : Session) (pos : Position) (text : String) :
      Change cx s { s with trace := s.trace.push (.printed pos text) }
  | emitted {s : Session} {id : Nat} (v : Value) : s.active = some id →
      Change cx s { s with app := s.app.emit id v, trace := s.trace.push (.emitted v) }
  | propertySet {s : Session} {p : Property} {value : Data} {pos : Position} {app : App} :
      s.app.setProperty p value pos = .ok app →
      Change cx s { s with app, trace := s.trace.push (.propertySet p.field value) }

/-- How a session evolves: into which one, and with which failure if it was ended by one. Calls,
scopes and the body section are left whether what is done in them fails or not; a step or a call that
is refused has been counted. -/
inductive Evolves (cx : Context) : Session → Option RunFailure → Session → Prop
  | refl (s : Session) : Evolves cx s none s
  | fail (s : Session) {e : RunFailure} : ¬ e.IsLimit → Evolves cx s (some e) s
  | change {s t : Session} : s.Change cx t → Evolves cx s none t
  | trans {s t u : Session} {f : Option RunFailure} :
      Evolves cx s none t → Evolves cx t f u → Evolves cx s f u
  | refusedStep {s : Session} {pos : Position} {d : Diagnostic} :
      s.meter.step.checkSteps cx.settings.toLimits pos = .error d →
      Evolves cx s (some (.rejected d)) { s with meter := s.meter.step }
  | refusedCall {s : Session} {name : String} {pos : Position} {d : Diagnostic} :
      (s.meter.enter name).checkDepth cx.settings.toLimits pos = .error d →
      Evolves cx s (some (.rejected d)) { s with meter := s.meter.enter name }
  | call {s t : Session} {f : Option RunFailure} {name : String} {pos : Position} :
      (s.meter.enter name).checkDepth cx.settings.toLimits pos = .ok () →
      Evolves cx { s with meter := s.meter.enter name } f t →
      Evolves cx s f { t with meter := t.meter.exit }
  | scope {s t : Session} {f : Option RunFailure} {parent : Nat} :
      Evolves cx { s with arena := s.arena.allocate (some parent) } f t →
      Evolves cx s f (t.closed cx s.arena.size)
  | content {s t : Session} {f : Option RunFailure} {style : String} {pos : Position} {app : App}
      {parent : Nat} : s.app.openBody style pos = .ok app →
      Evolves cx { s with
        app, arena := s.arena.allocate (some parent), active := some s.app.nextSection } f t →
      Evolves cx s f (Session.closed cx s.arena.size { t with active := s.active })

variable {cx : Context} {s t : Session} {f : Option RunFailure}

theorem Change.active_eq (h : s.Change cx t) : t.active = s.active := by cases h <;> rfl

/-- The body section that was being executed before is being executed afterwards. -/
theorem Evolves.active_eq (h : s.Evolves cx f t) : t.active = s.active := by
  induction h with
  | refl _ | fail _ _ | refusedStep _ | refusedCall _ | content _ _ _ => rfl
  | change h => exact h.active_eq
  | trans _ _ ih ih' => exact ih'.trans ih
  | call _ _ ih | scope _ ih => exact ih

theorem Evolves.inBody_eq (h : s.Evolves cx f t) : t.inBody = s.inBody :=
  congrArg Option.isSome h.active_eq

theorem Change.open (h : s.Change cx t) {i : Nat} (hi : s.arena.Open i) : t.arena.Open i := by
  cases h with
  | defined hdefine =>
    obtain rfl := Arena.define_eq_ok hdefine
    exact hi.modify _ fun _ => rfl
  | assigned hassign =>
    obtain ⟨owner, rfl⟩ := Arena.assign_eq_ok hassign
    exact hi.modify _ fun _ => rfl
  | captured _ _ => exact hi.modify _ fun _ => rfl
  | visited _ _ | counted _ | identified | printed _ _ | emitted _ _ | propertySet _ => exact hi

/-- A scope that is open stays open: only the scopes that were opened meanwhile are left. -/
theorem Evolves.open (h : s.Evolves cx f t) {i : Nat} (hi : s.arena.Open i) : t.arena.Open i := by
  induction h with
  | refl _ | fail _ _ | refusedStep _ | refusedCall _ => exact hi
  | change h => exact h.open hi
  | trans _ _ ih ih' => exact ih' (ih hi)
  | call _ _ ih => exact ih hi
  | scope _ ih | content _ _ ih => exact (ih (hi.allocate _)).release cx.reclamation hi.lt_size

/-- Sessions that another one comes to while it evolves: after what has been done before, within the
scopes and the body section that are being executed and the calls in progress. The names are those of
the functions called, earliest first. -/
inductive ComesTo (cx : Context) : List String → Session → Session → Prop
  | here (s : Session) : ComesTo cx [] s s
  | after {names : List String} {s t u : Session} :
      s.Evolves cx none t → ComesTo cx names t u → ComesTo cx names s u
  | call {names : List String} {s t : Session} {name : String} {pos : Position} :
      (s.meter.enter name).checkDepth cx.settings.toLimits pos = .ok () →
      ComesTo cx names { s with meter := s.meter.enter name } t → ComesTo cx (name :: names) s t
  | scope {names : List String} {s t : Session} {parent : Nat} :
      ComesTo cx names { s with arena := s.arena.allocate (some parent) } t → ComesTo cx names s t
  | content {names : List String} {s t : Session} {style : String} {pos : Position} {app : App}
      {parent : Nat} : s.app.openBody style pos = .ok app →
      ComesTo cx names { s with
        app, arena := s.arena.allocate (some parent), active := some s.app.nextSection } t →
      ComesTo cx names s t

end Session

namespace Run

variable {cx : Context} {P Q : RunFailure → Prop} {α β : Type} {b : Bool} {s : Session}

/-- What a result says of how the session has evolved, and of which kind the failure is. -/
inductive Follows (cx : Context) (P : RunFailure → Prop) (s : Session) :
    EStateM.Result RunFailure Session α → Prop
  | ok {a : α} {t : Session} : s.Evolves cx none t → Follows cx P s (.ok a t)
  | error {e : RunFailure} {t : Session} : s.Evolves cx (some e) t → P e → Follows cx P s (.error e t)

/-- An action that lets sessions evolve and fails in ways of a kind. The mode tells whether the body
section is being executed. -/
def Evolves (cx : Context) (P : RunFailure → Prop) (b : Bool) (x : Run α) : Prop :=
  ∀ s : Session, s.inBody = b → Follows cx P s (x s)

theorem Follows.mono {r : EStateM.Result RunFailure Session α} (h : Follows cx P s r)
    (hPQ : ∀ e, P e → Q e) : Follows cx Q s r := by
  cases h with
  | ok h => exact .ok h
  | error h he => exact .error h (hPQ _ he)

theorem Follows.trans {t : Session} {r : EStateM.Result RunFailure Session α}
    (hst : s.Evolves cx none t) (h : Follows cx P t r) : Follows cx P s r := by
  cases h with
  | ok h => exact .ok (.trans hst h)
  | error h he => exact .error (.trans hst h) he

theorem Follows.open {r : EStateM.Result RunFailure Session α} (h : Follows cx P s r) {i : Nat}
    (hi : s.arena.Open i) : (sessionAfter r).arena.Open i := by
  cases h with
  | ok h => exact h.open hi
  | error h _ => exact h.open hi

theorem Follows.exists_evolves {r : EStateM.Result RunFailure Session α} (h : Follows cx P s r) :
    ∃ f, s.Evolves cx f (sessionAfter r) := by
  cases h with
  | ok h => exact ⟨none, h⟩
  | error h _ => exact ⟨_, h⟩

namespace Evolves

/-! ## Elementary actions -/

/-- Any failure is allowed. -/
theorem any {x : Run α} (h : Evolves cx P b x) : Evolves cx RunFailure.Any b x :=
  fun s hs => (h s hs).mono fun _ _ => trivial

theorem pure (a : α) : Evolves cx P b (Pure.pure a : Run α) := fun s _ => .ok (.refl s)

theorem throw {e : RunFailure} (hlimit : ¬ e.IsLimit) (h : P e) :
    Evolves cx P b (MonadExcept.throw e : Run α) :=
  fun s _ => .error (.fail s hlimit) h

theorem plain {e : RunFailure} (h : e.Plain) :
    Evolves cx RunFailure.Proper b (MonadExcept.throw e : Run α) :=
  .throw h.not_isLimit h.proper

theorem reject {pos : Position} {trouble : Trouble} {message : String}
    (h : trouble.isLimit = false) :
    Evolves cx RunFailure.Proper b (Run.reject (.located pos trouble message) : Run α) :=
  .throw (RunFailure.not_isLimit_rejected h) (RunFailure.proper_rejected _)

theorem reject_bind {pos : Position} {trouble : Trouble} {message : String} {f : α → Run β}
    (h : trouble.isLimit = false) :
    Evolves cx RunFailure.Any b (Run.reject (.located pos trouble message) >>= f) :=
  .any (.reject h)

theorem bind {x : Run α} {f : α → Run β} (hx : Evolves cx P b x) (hf : ∀ a, Evolves cx P b (f a)) :
    Evolves cx P b (x >>= f) := by
  intro s hs
  have hresult := hx s hs
  rw [Run.bind_apply]
  generalize x s = r at hresult
  cases hresult with
  | error h he => exact .error h he
  | ok h => exact (hf _ _ (h.inBody_eq.trans hs)).trans h

theorem get {f : Session → Run α} (h : ∀ s : Session, s.inBody = b → Evolves cx P b (f s)) :
    Evolves cx P b (MonadState.get >>= f) :=
  fun s hs => h s hs s hs

theorem ite {c : Prop} [Decidable c] {x y : Run α} (hx : Evolves cx P b x)
    (hy : Evolves cx P b y) : Evolves cx P b (if c then x else y) := by
  split
  · exact hx
  · exact hy

theorem ofFault (x : Except Fault α) : Evolves cx RunFailure.Proper b (Run.ofFault x) := by
  cases x with
  | ok a => exact .pure a
  | error f => exact .plain (.fault f)

theorem ofOperation {x : Operation} (h : FailsOnly RunFailure.Plain x) :
    Evolves cx RunFailure.Proper b (Run.ofOperation x) := by
  cases h with
  | ok v => exact .pure v
  | error he => exact .plain he

theorem visit (scope : Nat) (n : Node) :
    Evolves cx RunFailure.Proper b (Run.visit cx scope n) := by
  intro s _
  refine .ok ?_
  change s.Evolves cx none (if cx.recording then _ else _)
  split
  · exact .change (.visited s n scope)
  · exact .refl s

theorem step (pos : Position) : Evolves cx RunFailure.Proper b (Run.step cx pos) := by
  intro s _
  change Follows cx _ s (Run.ofDiagnostic (s.meter.step.checkSteps cx.settings.toLimits pos)
    { s with meter := s.meter.step })
  cases h : s.meter.step.checkSteps cx.settings.toLimits pos with
  | ok _ => exact .ok (.change (.counted h))
  | error d => exact .error (.refusedStep h) (RunFailure.proper_rejected d)

theorem reach (scope : Nat) (s : Stmt) : Evolves cx RunFailure.Proper b (Run.reach cx scope s) :=
  .bind (.visit scope _) fun _ => .step s.pos

theorem define (scope : Nat) (name : String) (v : Value) (kind : BindingKind) (pos : Position) :
    Evolves cx RunFailure.Proper b (Run.define scope name v kind pos) := by
  intro s _
  rw [Run.define]
  cases h : s.arena.define scope name ⟨v, kind, pos⟩ with
  | ok arena => exact .ok (.change (.defined h))
  | error e =>
    have hplain := Arena.plain_of_define h
    exact .error (.fail s hplain.not_isLimit) hplain.proper

theorem lookup (scope : Nat) (name : String) (pos : Position) :
    Evolves cx RunFailure.Proper b (Run.lookup scope name pos) := by
  intro s _
  rw [Run.lookup]
  cases h : s.arena.lookup scope name pos with
  | ok v => exact .ok (.refl s)
  | error e =>
    have hplain := Arena.plain_of_lookup h
    exact .error (.fail s hplain.not_isLimit) hplain.proper

theorem assign (scope : Nat) (name : String) (v : Value) (pos : Position) :
    Evolves cx RunFailure.Proper b (Run.assign scope name v pos) := by
  intro s _
  rw [Run.assign]
  cases h : s.arena.assign scope name v pos with
  | ok arena => exact .ok (.change (.assigned h))
  | error e =>
    have hplain := Arena.plain_of_assign h
    exact .error (.fail s hplain.not_isLimit) hplain.proper

theorem isBound (scope : Nat) (name : String) :
    Evolves cx RunFailure.Proper b (Run.isBound scope name) := by
  intro s _
  rw [Run.isBound]
  split
  · exact .ok (.refl s)
  · exact .ok (.refl s)
  · exact .error (.fail s id) RunFailure.Plain.dangling.proper

theorem printed (pos : Position) (text : String) :
    Evolves cx RunFailure.Proper b (Run.note (.printed pos text)) :=
  fun s _ => .ok (.change (.printed s pos text))

theorem emit (v : Value) : Evolves cx RunFailure.Proper b (Run.emit v) := by
  intro s _
  rw [Run.emit]
  split
  · next h => exact .ok (.change (.emitted v h))
  · exact .error (.fail s id) RunFailure.Plain.noSection.proper

theorem setProperty (p : Property) (value : Data) (pos : Position) :
    Evolves cx RunFailure.Proper b (Run.setProperty p value pos) := by
  intro s _
  rw [Run.setProperty]
  cases h : s.app.setProperty p value pos with
  | ok app => exact .ok (.change (.propertySet h))
  | error d =>
    have hplain := App.plain_of_setProperty h
    exact .error (.fail s hplain.not_isLimit) hplain.proper

/-- A scope is captured for a function whose declaration has been come to in that scope. -/
theorem declareFunction {scope : Nat} {pos : Position} {name : String} {parameters : List String}
    {body : Block} (hvisited : cx.recording = true →
      ∃ v ∈ s.visits, v.scope = scope ∧ v.node.IsFunction) :
    Follows cx RunFailure.Proper s (Run.declareFunction scope pos name parameters body s) := by
  -- the identity is used up even if the scope cannot be captured
  have hidentified : s.Evolves cx none { s with nextId := s.nextId + 1 } :=
    .change (.identified s)
  change Follows cx _ s (EStateM.bind (Run.capture scope) _ { s with nextId := s.nextId + 1 })
  unfold EStateM.bind Run.capture
  dsimp only
  by_cases hscope : scope < s.arena.size
  · rw [if_pos hscope]
    exact Follows.trans (hidentified.trans (.change (.captured hscope hvisited)))
      (Evolves.bind (.define _ _ _ _ _) (fun _ => .pure _) _ rfl)
  · rw [if_neg hscope]
    exact .error (hidentified.trans (.fail _ id)) RunFailure.Plain.dangling.proper

/-- The declaration of a function is recorded before it is executed. -/
theorem reach_declareFunction (scope : Nat) (pos : Position) (name : String)
    (parameters : List String) (body : Block) :
    Evolves cx RunFailure.Proper b (do
      Run.reach cx scope (.func pos name parameters body)
      Run.declareFunction scope pos name parameters body) := by
  intro s _
  obtain ⟨t, hvisit, hst, hvisited⟩ :
      ∃ t, Run.visit cx scope (.stmt (.func pos name parameters body)) s = .ok () t ∧
        s.Evolves cx none t ∧
        (cx.recording = true → ∃ v ∈ t.visits, v.scope = scope ∧ v.node.IsFunction) := by
    refine ⟨_, rfl, ?_⟩
    split
    · exact ⟨.change (.visited s _ scope), fun _ => ⟨_, Array.mem_push_self, rfl, trivial⟩⟩
    · next hrecording => exact ⟨.refl s, fun h => absurd h hrecording⟩
  rw [Run.reach, bind_assoc]
  rw [Run.bind_apply, hvisit]
  refine Follows.trans hst ?_
  -- counting a step changes neither the visits nor the arena
  change Follows cx _ t (EStateM.bind (Run.ofDiagnostic
    (t.meter.step.checkSteps cx.settings.toLimits pos)) _ { t with meter := t.meter.step })
  cases h : t.meter.step.checkSteps cx.settings.toLimits pos with
  | ok _ =>
    refine Follows.trans (.change (.counted h)) ?_
    exact declareFunction (s := { t with meter := t.meter.step }) hvisited
  | error d => exact .error (.refusedStep h) (RunFailure.proper_rejected d)

theorem bindParameters (scope : Nat) (pos : Position) (parameters : List String) (vs : List Value) :
    Evolves cx RunFailure.Proper b (Run.bindParameters scope pos parameters vs) := by
  induction parameters generalizing vs with
  | nil => exact .pure ()
  | cons p ps ih =>
    cases vs with
    | nil => exact .pure ()
    | cons v vs => exact .bind (.define _ _ _ _ _) fun _ => ih vs

theorem callResult (c : Completion) : Evolves cx RunFailure.Proper b (Run.callResult c) := by
  cases c with
  | normal => exact .pure _
  | returned v => exact .pure v
  | broke _ | continued _ => exact .reject rfl

theorem perform (pos : Position) (action : Action) (vs : List Value) :
    Evolves cx RunFailure.Proper b (Run.perform pos action vs) := by
  rw [Run.perform.eq_def]
  split
  · exact .bind (.ofFault _) fun _ => .bind (.printed pos _) fun _ => .pure _
  · exact .pure _
  · exact .reject rfl
  · exact .plain (.fault _)

/-! ## Calls, scopes and the body section -/

theorem inScope {x : Nat → Run α} (parent : Nat) (h : ∀ i, Evolves cx P b (x i)) :
    Evolves cx P b (Run.inScope cx parent x) := by
  intro s hs
  have hresult := h s.arena.size { s with arena := s.arena.allocate (some parent) } hs
  have hopen := hresult.open (Arena.open_allocate s.arena (some parent))
  change Follows cx P s (Run.closing (x s.arena.size) (Run.closeScope cx s.arena.size)
    { s with arena := s.arena.allocate (some parent) })
  rw [closing_closeScope hopen.lt_size, leaving]
  generalize x s.arena.size _ = r at hresult
  cases hresult with
  | ok h => exact .ok (.scope h)
  | error h he => exact .error (.scope h) he

theorem content {x : Nat → Run α} (hP : ∀ e, RunFailure.Proper e → P e) (style : String)
    (pos : Position) (parent : Nat) (h : ∀ i, Evolves cx P true (x i)) :
    Evolves cx P b (do
      let id ← Run.openBody style pos
      Run.inScope cx parent fun i => Run.inBody id (x i)) := by
  intro s _
  cases hopen : s.app.openBody style pos with
  | error d =>
    have hplain := App.plain_of_openBody hopen
    rw [Run.bind_apply, Run.openBody, hopen]
    exact .error (.fail s hplain.not_isLimit) (hP _ hplain.proper)
  | ok app =>
    -- the statements begin with all three changes made, and two of them are taken back
    have hresult := h s.arena.size { s with
      app, arena := s.arena.allocate (some parent), active := some s.app.nextSection } rfl
    have hstays := hresult.open (Arena.open_allocate s.arena (some parent))
    rw [Run.bind_apply, Run.openBody, hopen]
    change Follows cx P s (Run.closing (Run.inBody s.app.nextSection (x s.arena.size))
      (Run.closeScope cx s.arena.size) { s with app, arena := s.arena.allocate (some parent) })
    rw [closing_closeScope (by rw [inBody_apply, sessionAfter_leaving]; exact hstays.lt_size),
      leaving, inBody_apply, leaving]
    generalize x s.arena.size _ = r at hresult
    cases hresult with
    | ok h => exact .ok (.content hopen h)
    | error h he => exact .error (.content hopen h) he

theorem call {x : Run α} (hP : ∀ e, RunFailure.Proper e → P e) (name : String) (pos : Position)
    (h : Evolves cx P b x) :
    Evolves cx P b (do Run.enterCall cx name pos; Run.closing x Run.exitCall) := by
  intro s hs
  have hresult := h { s with meter := s.meter.enter name } hs
  change Follows cx P s (EStateM.bind (Run.ofDiagnostic
    ((s.meter.enter name).checkDepth cx.settings.toLimits pos)) _
    { s with meter := s.meter.enter name })
  cases hcheck : (s.meter.enter name).checkDepth cx.settings.toLimits pos with
  -- a refused call never gets to the end that would take it back
  | error d => exact .error (.refusedCall hcheck) (hP _ (RunFailure.proper_rejected d))
  | ok _ =>
    change Follows cx P s (Run.closing x Run.exitCall { s with meter := s.meter.enter name })
    rw [closing_exitCall, leaving]
    generalize x _ = r at hresult
    cases hresult with
    | ok h => exact .ok (.call hcheck h)
    | error h he => exact .error (.call hcheck h) he

/-! ## Parts of runs -/

/-- Ways to execute statements that let sessions evolve. -/
def Executes (cx : Context) (execute : Nat → Stmt → Run Completion) : Prop :=
  ∀ b i s, Evolves cx RunFailure.Any b (execute i s)

/-- Ways to evaluate expressions that let sessions evolve. -/
def Evaluates (cx : Context) (evaluate : Nat → Expr → Run Value) : Prop :=
  ∀ b i e, Evolves cx RunFailure.Any b (evaluate i e)

variable {execute : Nat → Stmt → Run Completion} {evaluate : Nat → Expr → Run Value} {i : Nat}

theorem loop {test : Run Bool} {body : Run Completion} {update : Run Unit} (pos : Position)
    (htest : Evolves cx RunFailure.Any b test) (hbody : Evolves cx RunFailure.Any b body)
    (hupdate : Evolves cx RunFailure.Any b update) (rounds : Nat) :
    Evolves cx RunFailure.Any b (Run.loop cx pos test body update rounds) := by
  induction rounds with
  | zero => exact .throw id trivial
  | succ rounds ih =>
    refine htest.bind fun go => ?_
    cases go with
    | false => exact .pure _
    | true =>
      refine (step pos).any.bind fun _ => hbody.bind fun c => ?_
      cases c with
      | normal | continued _ => exact hupdate.bind fun _ => ih
      | returned _ | broke _ => exact .pure _

section Statements

variable (hx : Executes cx execute)
include hx

theorem sequence (ss : List Stmt) :
    Evolves cx RunFailure.Any b (Run.sequence (execute i) ss) := by
  induction ss with
  | nil => exact .pure _
  | cons s ss ih =>
    refine (hx b i s).bind fun c => ?_
    cases c with
    | normal => exact ih
    | returned _ | broke _ | continued _ => exact .pure _

theorem block (i : Nat) (c : Block) :
    Evolves cx RunFailure.Any b (Run.block cx execute i c) :=
  (reach i _).any.bind fun _ => .inScope i fun _ => sequence hx c.body

theorem forInit (init : ForInit) :
    Evolves cx RunFailure.Any b (Run.forInit (execute i) init) := by
  cases init with
  | none => exact .pure _
  | declare _ _ _ _ | expr _ _ => exact (hx b i _).bind fun _ => .pure _

theorem invoke (f : Closure) (vs : List Value) :
    Evolves cx RunFailure.Any b (Run.invoke cx execute f vs) := by
  refine .bind (.inScope f.frame fun i => ?_) fun c => (callResult c).any
  exact (bindParameters i f.pos f.parameters vs).any.bind fun _ => sequence hx f.body.body

theorem callValue (pos : Position) (callee : Value) (vs : List Value) :
    Evolves cx RunFailure.Any b (Run.callValue cx execute pos callee vs) := by
  have hcall : ∀ (name : String) (arity : Option Nat) {x : Run Value},
      Evolves cx RunFailure.Any b x →
        Evolves cx RunFailure.Any b (Run.callWith cx pos name arity vs.length x) := by
    intro name arity x h
    cases arity with
    | none => exact .call (fun _ _ => trivial) name pos h
    | some expected =>
      have hcounted := call (fun _ _ => trivial) name pos h
      exact .ite (.reject_bind rfl) hcounted
  cases callee with
  | closure f => exact hcall f.name (some f.parameters.length) (invoke hx f vs)
  | builtin f => exact hcall f.name f.action.arity? (perform pos f.action vs).any
  | null | bool _ | number _ | str _ => exact .any (reject rfl)

end Statements

section Expressions

variable (he : Evaluates cx evaluate)
include he

theorem truth (e : Expr) : Evolves cx RunFailure.Any b (Run.truth (evaluate i) e) :=
  (he b i e).bind fun _ => .pure _

theorem orNull (e : Option Expr) : Evolves cx RunFailure.Any b (Run.orNull (evaluate i) e) := by
  cases e with
  | none => exact .pure _
  | some e => exact he b i e

theorem evaluateAll (es : List Expr) :
    Evolves cx RunFailure.Any b (Run.evaluateAll (evaluate i) es) := by
  induction es with
  | nil => exact .pure _
  | cons e es ih => exact (he b i e).bind fun _ => ih.bind fun _ => .pure _

theorem foldBinary (v : Value) (steps : List BinaryStep) :
    Evolves cx RunFailure.Any b (Run.foldBinary (evaluate i) v steps) := by
  induction steps generalizing v with
  | nil => exact .pure v
  | cons s steps ih =>
    refine (he b i s.right).bind fun r => ?_
    exact (ofOperation (Operation.plain_binary s.pos s.op v r)).any.bind ih

theorem foldLogical (v : Value) (steps : List LogicalStep) :
    Evolves cx RunFailure.Any b (Run.foldLogical (evaluate i) v steps) := by
  induction steps generalizing v with
  | nil => exact .pure v
  | cons s steps ih => exact .ite (ih v) ((he b i s.right).bind ih)

theorem declare (scope : Nat) (pos : Position) (kind : DeclarationKind) (name : String)
    (init : Option Expr) :
    Evolves cx RunFailure.Any b (Run.declare (evaluate i) scope pos kind name init) :=
  (orNull he init).bind fun _ => (define _ _ _ _ _).any.bind fun _ => .pure _

theorem propertyValue (p : Property) (argument : Option Expr) :
    Evolves cx RunFailure.Any b (Run.propertyValue cx (evaluate i) p argument) := by
  refine .ite (.pure _) ?_
  cases argument with
  | none => exact .pure _
  | some e =>
    refine (he b i e).bind fun v => ?_
    cases p.accepted? with
    | none => exact .any (.plain (.fault _))
    | some accepted =>
      exact .ite ((ofFault v.display).any.bind fun _ => .pure _) (.any (reject rfl))

theorem style (scope : Nat) (reference : Expr) :
    Evolves cx RunFailure.Any b (Run.style (evaluate i) scope reference) := by
  have hshown : Evolves cx RunFailure.Any b
      (do Run.ofFault (← evaluate i reference).display : Run String) :=
    (he b i reference).bind fun v => (ofFault v.display).any
  cases reference with
  | ident pos name => exact (isBound scope name).any.bind fun _ => .ite hshown (.pure _)
  | _ => exact hshown

theorem expressionStatement (e : Expr) :
    Evolves cx RunFailure.Any b (Run.expressionStatement (evaluate i) e) := by
  exact (he b i e).bind fun v => .get fun s _ =>
    .ite ((emit v).any.bind fun _ => .pure _) (.pure _)

end Expressions

section Both

variable (hx : Executes cx execute) (he : Evaluates cx evaluate)
include hx he

theorem otherwise (rest : Else) :
    Evolves cx RunFailure.Any b
      (Run.otherwise cx i (Run.truth (evaluate i)) (Run.block cx execute i) rest) := by
  cases rest with
  | none => exact .pure _
  | block c => exact block hx i c
  | elseIf _ test c rest =>
    refine (reach i _).any.bind fun _ => (truth he test).bind fun _ => ?_
    exact .ite (block hx i c) (otherwise rest)

/-- What a `for` does in its scope. -/
theorem clauses (pos : Position) (init : ForInit) (test update : Option Expr) (c : Block) :
    Evolves cx RunFailure.Any b (do
      Run.forInit (execute i) init
      Run.loop cx pos
        (match test with
          | none => Pure.pure true
          | some e => Run.truth (evaluate i) e)
        (Run.block cx execute i c)
        (match update with
          | none => Pure.pure ()
          | some e => do
            let _ ← evaluate i e)
        cx.patience) := by
  refine (forInit hx init).bind fun _ => loop pos ?_ (block hx i c) ?_ _
  · cases test with
    | none => exact .pure _
    | some test => exact truth he test
  · cases update with
    | none => exact .pure _
    | some update => exact (he b i update).bind fun _ => .pure _

theorem contentCall (pos : Position) (arguments : List Expr) :
    Evolves cx RunFailure.Any b
      (Run.contentCall (evaluate i) (Run.callValue cx execute pos) pos arguments) := by
  refine .get fun s hs => ?_
  rw [hs]
  cases b with
  | false => exact .reject_bind rfl
  | true =>
    refine .ite (.reject_bind rfl) (.ite (.reject_bind rfl) ?_)
    refine (evaluateAll he arguments).bind fun vs => ?_
    have hemit : ∀ v, Evolves cx RunFailure.Any true (do Run.emit v; return v) := fun v =>
      (emit v).any.bind fun _ => .pure v
    have hcall := (callValue hx (b := true) pos (vs.headD .null) vs.tail).bind hemit
    generalize vs.headD .null = v at hcall ⊢
    cases v with
    | closure _ | builtin _ => exact hcall
    | null | bool _ | number _ | str _ =>
      exact .ite (.bind (.pure _) hemit) (.reject_bind rfl)

end Both

/-! ## The recursion -/

section Recursion

variable {allowance : Nat} (hx : Executes cx (Run.execute cx allowance))
variable (he : Evaluates cx (Run.evaluate cx allowance))
include hx he

theorem evaluates_succ : Evaluates cx (Run.evaluate cx (allowance + 1)) := by
  intro b i e
  rw [Run.evaluate.eq_def]
  refine (visit i _).any.bind fun _ => ?_
  cases e with
  | ident pos name => exact (lookup i name pos).any
  | number _ _ _ | string _ _ | bool _ _ | null _ => exact .pure _
  | binary pos op l r => exact (he b i _).bind fun _ => foldBinary he _ _
  | logical pos op l r => exact (he b i _).bind fun _ => foldLogical he _ _
  | unary pos op e =>
    exact (he b i e).bind fun v => (ofOperation (Operation.plain_unary pos op v)).any
  | assign pos target e =>
    exact (he b i e).bind fun v => (assign i target v pos).any.bind fun _ => .pure _
  | call pos callee arguments =>
    exact (he b i callee).bind fun _ => (evaluateAll he arguments).bind fun vs =>
      callValue hx pos _ vs
  | content pos arguments => exact contentCall hx he pos arguments

theorem executes_succ : Executes cx (Run.execute cx (allowance + 1)) := by
  intro b i s
  have hreach : Evolves cx RunFailure.Any b (Run.reach cx i s) := (reach i s).any
  cases s with
  | block c => exact block hx i c
  | declare pos kind name init => exact hreach.bind fun _ => declare he i pos kind name init
  | func pos name parameters c => exact (reach_declareFunction i pos name parameters c).any
  | property pos p argument =>
    exact hreach.bind fun _ => (propertyValue he p argument).bind fun v =>
      (setProperty p v pos).any.bind fun _ => .pure _
  | body pos reference ss =>
    exact hreach.bind fun _ => (style he i reference).bind fun text =>
      content (fun _ _ => trivial) text pos i fun _ => sequence hx ss
  | ifElse pos test c rest => exact otherwise hx he (.elseIf pos test c rest)
  | «while» pos test c =>
    exact hreach.bind fun _ => loop pos (truth he test) (block hx i c) (.pure _) _
  | «for» pos init test update c =>
    exact hreach.bind fun _ => .inScope i fun _ => clauses hx he pos init test update c
  | «return» pos value => exact hreach.bind fun _ => (orNull he value).bind fun _ => .pure _
  | «break» pos | «continue» pos => exact hreach.bind fun _ => .pure _
  | expr pos e => exact hreach.bind fun _ => expressionStatement he e

end Recursion

/-- Executing and evaluating let sessions evolve, whatever the allowance. -/
theorem execute_evaluate (cx : Context) (allowance : Nat) :
    Executes cx (Run.execute cx allowance) ∧ Evaluates cx (Run.evaluate cx allowance) := by
  -- statements contain expressions and calls execute statements, so both go together
  induction allowance with
  | zero =>
    refine ⟨fun _ _ _ => ?_, fun _ _ _ => ?_⟩
    · rw [Run.execute]
      exact .throw id trivial
    · rw [Run.evaluate.eq_def]
      exact .throw id trivial
  | succ allowance ih => exact ⟨executes_succ ih.1 ih.2, evaluates_succ ih.1 ih.2⟩

theorem program (allowance : Nat) (p : Program) (scope : Nat) :
    Evolves cx RunFailure.Any b (Run.program cx allowance p scope) := by
  refine (visit scope _).any.bind fun _ => (step p.pos).any.bind fun _ => ?_
  refine (sequence (execute_evaluate cx allowance).1 p.body).bind fun c => ?_
  cases c with
  | normal | returned _ => exact .pure _
  | broke _ | continued _ => exact .any (reject rfl)

end Evolves

/-! ## What is done in scopes -/

namespace KeepsOpen

variable {execute : Nat → Stmt → Run Completion} {evaluate : Nat → Expr → Run Value}

theorem of_evolves {x : Run α} (h : ∀ b, Evolves cx P b x) : x.KeepsOpen :=
  fun s _ hi => (h s.inBody s rfl).open hi

variable (hx : Evolves.Executes cx execute) (i : Nat)
include hx

theorem sequence (ss : List Stmt) : (Run.sequence (execute i) ss).KeepsOpen :=
  of_evolves fun _ => .sequence hx ss

theorem content (id : Nat) (ss : List Stmt) :
    (Run.inBody id (Run.sequence (execute i) ss)).KeepsOpen :=
  .inBody (.sequence hx i ss) id

theorem call (f : Closure) (vs : List Value) : KeepsOpen (do
    Run.bindParameters i f.pos f.parameters vs
    Run.sequence (execute i) f.body.body) :=
  of_evolves fun _ => (Evolves.bindParameters i f.pos f.parameters vs).any.bind fun _ =>
    .sequence hx f.body.body

theorem clauses (he : Evolves.Evaluates cx evaluate) (pos : Position) (init : ForInit)
    (test update : Option Expr) (c : Block) : KeepsOpen (do
      Run.forInit (execute i) init
      Run.loop cx pos
        (match test with
          | none => Pure.pure true
          | some e => Run.truth (evaluate i) e)
        (Run.block cx execute i c)
        (match update with
          | none => Pure.pure ()
          | some e => do
            let _ ← evaluate i e)
        cx.patience) :=
  of_evolves fun _ => .clauses hx he pos init test update c

end KeepsOpen

end Run

/-! ## The scopes that a program is run in -/

/-- The frame of the builtin functions, whose identities are the given one and the next. -/
def Frame.builtins (id : Nat) : Frame Value where
  parent := none
  bindings := [("print", ⟨.builtin ⟨id, "print", .print⟩, .builtin, ⟨0, 0⟩⟩),
    ("len", ⟨.builtin ⟨id + 1, "len", .len⟩, .builtin, ⟨0, 0⟩⟩)]

/-- A session with the scopes that a program is run in: one with the builtin functions and one inside
it. -/
def Session.opened (s : Session) : Session :=
  { s with
    arena := ⟨(s.arena.frames.push (.builtins s.nextId)).push { parent := some s.arena.size }⟩
    nextId := s.nextId + 2 }

theorem Session.frame?_opened (s : Session) (i : Nat) :
    s.opened.arena.frame? i =
      if i = s.arena.size + 1 then some { parent := some s.arena.size }
      else if i = s.arena.size then some (.builtins s.nextId) else s.arena.frame? i := by
  have hsize : (s.arena.frames.push (.builtins s.nextId)).size = s.arena.size + 1 :=
    Array.size_push ..
  rw [opened, Arena.frame?, Array.getElem?_push, Array.getElem?_push, hsize]
  rfl

theorem Session.size_opened (s : Session) : s.opened.arena.size = s.arena.size + 2 := by
  rw [opened, Arena.size, Array.size_push, Array.size_push]
  rfl

theorem Arena.define_push {α : Type} {frames : Array (Frame α)} {f : Frame α} {name : String}
    (b : Binding α) (h : f.find? name = none) :
    Arena.define ⟨frames.push f⟩ frames.size name b = .ok ⟨frames.push (f.bind name b)⟩ := by
  have hframe : Arena.frame? ⟨frames.push f⟩ frames.size = some f := by simp [frame?]
  -- the frame is the last one, so binding in it is pushing the frame with the binding
  have hmodify : (frames.push f).modify frames.size (·.bind name b) =
      frames.push (f.bind name b) := by
    apply Array.ext_getElem?
    intro i
    rw [Array.getElem?_modify, Array.getElem?_push, Array.getElem?_push]
    by_cases hi : i = frames.size
    · simp [hi]
    · simp [hi, Ne.symm hi]
  rw [define, hframe]
  dsimp only
  rw [h, modify, hmodify]

/-- A builtin function is bound in the frame that was opened last. -/
theorem Run.install_push {s : Session} {frames : Array (Frame Value)} {f : Frame Value}
    {name : String} (action : Action) (harena : s.arena = ⟨frames.push f⟩)
    (hfind : f.find? name = none) :
    Run.install frames.size name action s = .ok () { s with
      arena := ⟨frames.push (f.bind name ⟨.builtin ⟨s.nextId, name, action⟩, .builtin, ⟨0, 0⟩⟩)⟩
      nextId := s.nextId + 1 } := by
  change Run.define frames.size name (.builtin ⟨s.nextId, name, action⟩) .builtin ⟨0, 0⟩
    { s with nextId := s.nextId + 1 } = _
  rw [Run.define, harena, Arena.define_push _ hfind]

/-- The builtin functions are bound in a frame of their own, in which no call is counted. -/
theorem Run.install_builtins (s : Session) :
    ∃ t : Session, Run.install s.arena.size "print" .print
        { s with arena := s.arena.allocate none } = .ok () t ∧ t.meter = s.meter ∧
      Run.install s.arena.size "len" .len t = .ok () { s with
        arena := ⟨s.arena.frames.push (.builtins s.nextId)⟩, nextId := s.nextId + 2 } := by
  have hprint : Run.install s.arena.size "print" .print { s with arena := s.arena.allocate none } =
      _ := install_push .print rfl rfl
  have hlen : Run.install s.arena.size "len" .len { s with
      arena := ⟨s.arena.frames.push (Frame.bind { parent := none } "print"
        ⟨.builtin ⟨s.nextId, "print", .print⟩, .builtin, ⟨0, 0⟩⟩)⟩
      nextId := s.nextId + 1 } = _ := install_push .len rfl rfl
  exact ⟨_, hprint, rfl, hlen⟩

/-- The scope of a program is opened inside that of the builtin functions. -/
theorem Run.openScope_builtins (s : Session) :
    Run.openScope (some s.arena.size) { s with
        arena := ⟨s.arena.frames.push (.builtins s.nextId)⟩, nextId := s.nextId + 2 } =
      .ok (s.arena.size + 1) s.opened := by
  have hsize : (s.arena.frames.push (.builtins s.nextId)).size = s.arena.size + 1 :=
    Array.size_push ..
  rw [← hsize]
  rfl

/-- A run is the run of its program in the scopes that are opened for it. -/
theorem Run.start_eq (cx : Context) (allowance : Nat) (p : Program) (s : Session) :
    Run.start cx allowance p s = Run.program cx allowance p (s.arena.size + 1) s.opened := by
  have hroot : Run.openScope none s =
      .ok s.arena.size { s with arena := s.arena.allocate none } := rfl
  obtain ⟨t, hprint, -, hlen⟩ := Run.install_builtins s
  rw [Run.start, Run.bind_apply, hroot]
  dsimp only
  rw [Run.bind_apply, hprint]
  dsimp only
  rw [Run.bind_apply, hlen]
  dsimp only
  rw [Run.bind_apply, Run.openScope_builtins]

/-- After a run the session has evolved out of the one that was opened for it. -/
theorem Session.run_evolves (cx : Context) (allowance : Nat) (path : String) (p : Program)
    (s : Session) :
    ∃ f, Session.Evolves cx (Session.opened { s with trace := #[], visits := #[] }) f
        (Session.run cx allowance path p s).2 ∧
      (Session.run cx allowance path p s).1 = f.map (·.inFile path) := by
  have hprogram : Run.Evolves cx RunFailure.Any s.inBody
      (Run.program cx allowance p (s.arena.size + 1)) := .program allowance p _
  have hresult := hprogram (Session.opened { s with trace := #[], visits := #[] }) rfl
  rw [Session.run, Run.start_eq]
  dsimp only
  generalize Run.program cx allowance p _ _ = r at hresult
  cases hresult with
  | ok h => exact ⟨none, h, rfl⟩
  | error h _ => exact ⟨some _, h, rfl⟩

end MiniApp
