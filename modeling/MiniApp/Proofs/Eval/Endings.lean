import MiniApp.Proofs.Eval.Congruence
import MiniApp.Proofs.Eval.Growth
import MiniApp.Proofs.Eval.Reclamation
import MiniApp.Proofs.Grammar.Decision

/-!
# How running a text ends

A text is scanned, parsed and run, and each of these may fail. All failures are foreseen: they are
diagnostics, except for a few faults of numbers. No frame is ever missing when it is used, captured
or released, since frames that are still in use are not reclaimed. No content is emitted without an
active section, since content is emitted only while a section is being executed. Every table has the
entries that are looked up in it, operators act on operands of the right kinds only, and builtin
functions on the right number of arguments. A loop comes to an end if there is a limit of steps,
since each round is a step.

## Main definitions

* `ParseFailure.Foreseen`, `RunFailure.Foreseen`: the failures that parsing and running end with
* `Session.Guarded`: what holds of a session while a program is run
* `Run.guarding`: the relation of actions that keep sessions guarded

## Main results

* `Program.foreseen_of_parseWithin`: how parsing fails
* `Run.start_foreseen`: how runs fail
* `Session.run_text_foreseen`: how running a text ends
-/

namespace MiniApp

/-- The failures that parsing ends with: a diagnostic, or an integer of too many digits. -/
inductive ParseFailure.Foreseen : ParseFailure → Prop
  | rejected (d : Diagnostic) : Foreseen (.rejected d)
  | nestedTooDeeply (d : Diagnostic) : Foreseen (.nestedTooDeeply d)
  | digitLimit {count : Nat} :
      Text.digitLimit < count → Foreseen (.fault (.digitLimit (some count)))

/-- The failures that runs end with: a diagnostic, a fault of numbers, a nesting that is too deep,
or that no end was found. The last does not happen if the steps are limited to fewer than the rounds
that a loop is given. -/
inductive RunFailure.Foreseen (cx : Context) : RunFailure → Prop
  | rejected (d : Diagnostic) : Foreseen cx (.rejected d)
  | fault {f : Fault} : f.IsNumeric → Foreseen cx (.fault f)
  | nestedTooDeeply : Foreseen cx .nestedTooDeeply
  | outOfPatience : (∀ n ∈ cx.settings.maxSteps, cx.patience ≤ n.toNat) →
      Foreseen cx .outOfPatience

/-! ## Parsing -/

namespace Program

variable {allowance : Nat} {path source : String}

/-- Parsing a text fails in ways that are foreseen. -/
theorem foreseen_of_parseWithin {e : ParseFailure}
    (h : parseWithin allowance path source = .error e) : e.Foreseen := by
  cases hscan : Token.scan path source with
  | error d =>
    rw [parseWithin, hscan] at h
    obtain rfl := Except.error.inj h
    exact .rejected d
  | ok tokens =>
    rw [parseWithin, hscan] at h
    have hscanned := Token.scanned_scan hscan
    rcases refusal_of_parseTokensWithin hscanned h with
      ⟨d, rfl, -⟩ | ⟨d, rfl, -⟩ | ⟨f, rfl, t, -, hlexed, hbad⟩
    · exact .rejected d
    · exact .nestedTooDeeply d
    · obtain ⟨-, hlength, rfl⟩ := fault_of_unreadable hlexed hbad
      exact .digitLimit hlength

end Program

/-! ## Runs -/

/-- What holds of a session in a mode while a program is run: a section is active if the mode says
so, and so many steps have been made as are given at least, and no more than allowed. -/
structure Session.Guarded (cx : Context) (b : Bool) (made : Nat) (s : Session) : Prop where
  inBody : s.inBody = b
  made : made ≤ s.meter.steps
  allowed : ∀ n ∈ cx.settings.maxSteps, s.meter.steps ≤ n.toNat

/-- The failures of actions in guarded sessions. Frames may be missing as far as this goes. -/
inductive RunFailure.Guarded (cx : Context) : RunFailure → Prop
  | ordinary {e : RunFailure} : e.Ordinary → Guarded cx e
  | outOfPatience : (∀ n ∈ cx.settings.maxSteps, cx.patience ≤ n.toNat) → Guarded cx .outOfPatience

theorem Session.Guarded.keeps {cx : Context} {b : Bool} {made : Nat} {s t : Session}
    (h : s.Keeps t) (hs : s.Guarded cx b made) : t.Guarded cx b made where
  inBody := h.inBody_eq.trans hs.inBody
  made := h.meter ▸ hs.made
  allowed := h.meter ▸ hs.allowed

namespace Run

variable {cx : Context} {α β : Type} {b : Bool} {made made' : Nat} {x : Run α}
variable {P Q R : Session → Prop}

/-- A result in a session of a kind, or a failure of an action in a guarded session. -/
inductive LeadsTo (cx : Context) (Q : Session → Prop) :
    EStateM.Result RunFailure Session α → Prop
  | ok {a : α} {t : Session} : Q t → LeadsTo cx Q (.ok a t)
  | error {e : RunFailure} {t : Session} : e.Guarded cx → LeadsTo cx Q (.error e t)

/-- An action that leads from sessions of one kind to sessions of another one. -/
def Leads (cx : Context) (P Q : Session → Prop) (x : Run α) : Prop :=
  ∀ s, P s → LeadsTo cx Q (x s)

namespace Leads

theorem calm (h : x.Calm) (hP : ∀ s t : Session, s.Keeps t → P s → P t) : Leads cx P P x := by
  intro s hs
  have hresult := h s
  generalize x s = r at hresult
  cases hresult with
  | ok hkeeps => exact .ok (hP _ _ hkeeps hs)
  | error _ he => exact .error (.ordinary he)

theorem bind {f : α → Run β} (hx : Leads cx P Q x) (hf : ∀ a, Leads cx Q R (f a)) :
    Leads cx P R (x >>= f) := by
  intro s hs
  have hresult := hx s hs
  rw [Run.bind_apply]
  generalize x s = r at hresult
  cases hresult with
  | ok ht => exact hf _ _ ht
  | error he => exact .error he

theorem mono (h : Leads cx P Q x) (hQ : ∀ s, Q s → R s) : Leads cx P R x := by
  intro s hs
  have hresult := h s hs
  generalize x s = r at hresult ⊢
  cases hresult with
  | ok ht => exact .ok (hQ _ ht)
  | error he => exact .error he

theorem leaving {change : Session → Session} (h : Leads cx P Q x)
    (hchange : ∀ t, Q t → R (change t)) : Leads cx P R (Run.leaving x change) := by
  intro s hs
  have hresult := h s hs
  rw [Run.leaving]
  generalize x s = r at hresult
  cases hresult with
  | ok ht => exact .ok (hchange _ ht)
  | error he => exact .error he

end Leads

/-! ### Guarded sessions -/

/-- An action that keeps sessions guarded; the steps are counted so that rounds can be. -/
abbrev Guards (cx : Context) (b : Bool) (made made' : Nat) (x : Run α) : Prop :=
  Leads cx (·.Guarded cx b made) (·.Guarded cx b made') x

namespace Guards

theorem calm (h : x.Calm) : Guards cx b made made x :=
  Leads.calm h fun _ _ => .keeps

/-- Fewer steps may be counted than are made. -/
theorem fewer {fewer : Nat} (hle : fewer ≤ made') (h : Guards cx b made made' x) :
    Guards cx b made fewer x :=
  h.mono fun _ hs => { hs with made := hle.trans hs.made }

theorem step (pos : Position) : Guards cx b made (made + 1) (Run.step cx pos) := by
  intro s hs
  have hguarded : (∀ n ∈ cx.settings.maxSteps, s.meter.step.steps ≤ n.toNat) →
      ({ s with meter := s.meter.step } : Session).Guarded cx b (made + 1) :=
    fun hallowed => ⟨hs.inBody, Nat.succ_le_succ hs.made, hallowed⟩
  change LeadsTo cx _ (Run.ofDiagnostic (s.meter.step.checkSteps cx.settings.toLimits pos)
    { s with meter := s.meter.step })
  rw [Meter.checkSteps]
  generalize cx.settings.maxSteps = limit at hguarded ⊢
  cases limit with
  | none => exact .ok (hguarded nofun)
  | some n =>
    dsimp only
    split
    · exact .error (.ordinary (.rejected _))
    · refine .ok (hguarded fun n' hn' => ?_)
      obtain rfl := Option.some.inj hn'
      omega

theorem enterCall (name : String) (pos : Position) :
    Guards cx b made made (Run.enterCall cx name pos) := by
  intro s hs
  change LeadsTo cx _ (Run.ofDiagnostic ((s.meter.enter name).checkDepth cx.settings.toLimits pos)
    { s with meter := s.meter.enter name })
  rw [Meter.checkDepth]
  split
  · exact .error (.ordinary (.rejected _))
  · exact .ok { hs with }

theorem note (e : Event) : Guards cx b made made (Run.note e) := fun _ hs => .ok { hs with }

theorem setProperty (p : Property) (value : Data) (pos : Position) :
    Guards cx b made made (Run.setProperty p value pos) := by
  intro s hs
  rw [Run.setProperty]
  cases h : s.app.setProperty p value pos with
  | error d => exact .error (.ordinary (.rejected d))
  | ok a => exact .ok { hs with }

theorem openBody (style : String) (pos : Position) :
    Guards cx b made made (Run.openBody style pos) := by
  intro s hs
  rw [Run.openBody]
  cases s.app.openBody style pos with
  | error d => exact .error (.ordinary (.rejected d))
  | ok a => exact .ok { hs with }

/-- While a section is active, content can be emitted. -/
theorem emit (v : Value) : Guards cx true made made (Run.emit v) := by
  intro s hs
  obtain ⟨id, hid⟩ := Option.isSome_iff_exists.mp hs.inBody
  rw [Run.emit, hid]
  exact .ok { hs with inBody := rfl }

/-- A section is active while it is being executed, and only then. -/
theorem inBody (id : Nat) (h : Guards cx true made made' x) :
    Guards cx b made made' (Run.inBody id x) := by
  intro s hs
  rw [Run.inBody_apply]
  exact h.leaving (fun t ht => { ht with inBody := hs.inBody }) _ { hs with inBody := rfl }

theorem content {y : Nat → Run α} (style : String) (pos : Position) (scope : Nat)
    (h : ∀ i, Guards cx true made made' (y i)) :
    Guards cx b made made' (do
      let id ← Run.openBody style pos
      Run.enclosed cx scope fun i => Run.inBody id (y i)) :=
  (openBody style pos).bind fun id => .bind (Guards.calm (.openScope _)) fun i =>
    ((h i).inBody id).leaving fun _ ht => { ht with }

theorem loop {test : Run Bool} {body : Run Completion} {update : Run Unit} (pos : Position)
    (htest : ∀ made, Guards cx b made made test) (hbody : ∀ made, Guards cx b made made body)
    (hupdate : ∀ made, Guards cx b made made update) (rounds made : Nat)
    (hrounds : cx.patience ≤ made + rounds) :
    Guards cx b made made (Run.loop cx pos test body update rounds) := by
  induction rounds generalizing made with
  | zero =>
    -- all rounds have been made, and each was a step
    exact fun s hs => .error (.outOfPatience fun n hn =>
      hrounds.trans (hs.made.trans (hs.allowed n hn)))
  | succ rounds ih =>
    refine (htest made).bind fun go => ?_
    cases go with
    | false => exact Guards.calm (.pure _)
    | true =>
      refine Guards.fewer (Nat.le_succ made) ((step pos).bind fun _ => (hbody _).bind fun c => ?_)
      cases c with
      | normal | continued _ => exact (hupdate _).bind fun _ => ih _ (by omega)
      | returned _ | broke _ => exact Guards.calm (.pure _)

end Guards

/-- Actions that keep sessions guarded, however many steps are counted. All that runs are put
together from respects the relation. -/
def guarding (cx : Context) : Congruence where
  left := cx
  right := cx
  Rel b _ x _ := ∀ made, Guards cx b made made x
  contexts := .refl cx
  calm h _ := .calm h
  bind hx hf made := (hx made).bind fun a => hf a made
  get h made s hs := h s hs.inBody made s hs
  leaving hchange hx made := (hx made).leaving fun t ht => ht.keeps (hchange t)
  step pos made := Guards.fewer (Nat.le_succ made) (.step pos)
  call {b α x y} name pos hx made := by
    rw [closing_exitCall]
    exact (Guards.enterCall name pos).bind fun _ => (hx made).leaving fun _ ht => { ht with }
  printed _ _ _ := .note _
  setProperty p value pos _ := .setProperty p value pos
  emit v _ := .emit v
  content style pos scope h made := .content style pos scope fun i => h i made
  loop pos htest hbody hupdate made := .loop pos htest hbody hupdate _ made (Nat.le_add_left _ _)

/-- Runs fail in ways that are foreseen. -/
theorem start_foreseen (cx : Context) (allowance : Nat) (p : Program) {e : RunFailure} {t : Session}
    (h : Run.start cx allowance p {} = .error e t) : e.Foreseen cx := by
  have hguarded : ({} : Session).Guarded cx false 0 :=
    ⟨rfl, le_rfl, fun _ _ => Nat.zero_le _⟩
  have hleads : LeadsTo cx _ (Run.start cx allowance p {}) :=
    (guarding cx).start (b := false) allowance p 0 _ hguarded
  rw [h] at hleads
  cases hleads with
  | error he =>
    cases he with
    | ordinary he =>
      cases he with
      | rejected d => exact .rejected d
      | fault hf => exact .fault hf
      | dangling => exact absurd h (Run.start_not_dangling cx allowance p rfl)
      | nestedTooDeeply => exact .nestedTooDeeply
    | outOfPatience hsteps => exact .outOfPatience hsteps

end Run

theorem RunFailure.Foreseen.inFile {cx : Context} {e : RunFailure} (h : e.Foreseen cx)
    (path : String) : (e.inFile path).Foreseen cx := by
  cases h with
  | rejected d => exact .rejected _
  | fault hf => exact .fault hf
  | nestedTooDeeply => exact .nestedTooDeeply
  | outOfPatience hsteps => exact .outOfPatience hsteps

/-- Running a text never ends in a way that is not foreseen. Scanning fails with a diagnostic by its
type. Parsing fails with a diagnostic, or with a fault on an integer of too many digits. A run fails
with a diagnostic, with one of four faults of numbers or by too deep a nesting, or goes on for
longer than the patience allows, though not if its steps are limited to less.

So nothing that a run does is dangling: whatever frame is looked up, captured or released is there,
after every unwinding too, since a failure to release takes the place of any other one. No content
is emitted unless a section is active, no builtin function acts on a wrong number of arguments, no
operator on operands of a wrong kind, and no table lacks the entry of a property.

A value that cannot be shown is a number of too many digits; a binary operator meets a fault only
for the reasons listed, and is answered by a diagnostic if its operands are of a wrong kind; a unary
operator meets none. -/
theorem Session.run_text_foreseen (cx : Context) (nesting allowance : Nat) (path source : String) :
    (match Program.parseWithin nesting path source with
      | .error e => e.Foreseen
      | .ok p => ∀ e ∈ (Session.run cx allowance path p {}).1, e.Foreseen cx) ∧
    (∀ v : Value, FailsOnly
      (fun f => f = .digitLimit none ∧ ∃ n, v = .number n ∧ n.ShowsLong) v.display) ∧
    (∀ pos op l r, FailsOnly (Operation.Failure op l r) (Operation.binary pos op l r)) ∧
    ∀ pos op v, FailsOnly (fun e => ∃ d, e = .rejected d) (Operation.unary pos op v) := by
  refine ⟨?_, Value.failsOnly_display, Operation.failsOnly_binary, Operation.failsOnly_unary⟩
  cases hparse : Program.parseWithin nesting path source with
  | error e => exact Program.foreseen_of_parseWithin hparse
  | ok p =>
    intro e he
    rw [Session.run] at he
    split at he
    · cases he
    · next hstart =>
      obtain rfl := Option.some.inj he
      exact (Run.start_foreseen cx allowance p hstart).inFile path

end MiniApp
