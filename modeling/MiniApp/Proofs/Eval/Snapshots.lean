import Mathlib
import MiniApp.Proofs.Eval.Recount
import MiniApp.Proofs.Eval.Restoration

/-!
# The calls in progress

Which calls are in progress is a matter of where a run is: in the function that was called last, which
is called from another one, and so on. The counters of the session are another matter: they are
changed when a call begins and when it ends. A told run knows the first and takes a snapshot of the
second at every moment, and so the two can be compared. They agree until a call is refused for its
depth. From then on the session counts one call more than there are.

## Main definitions

* `Session.Counts`: the counters at a moment and the calls in progress
* `Told.Tracks`: actions whose snapshots are in step, and whose account tells of sessions within them

## Main results

* `Told.tracks_execute_evaluate`: executing and evaluating are tracked
* `Session.AtRest.reachable_of_entry`: the account of a run tells of sessions within the run
* `Session.run_calls`: the calls that are counted during a run and after it
-/

namespace MiniApp

open Run (Follows)

namespace Session

variable {cx : Context} {s t : Session} {m : Snapshot}

/-! ## Counters at a moment -/

/-- At some moment the calls in progress have been counted, on top of those that were counted before.
If a call has been refused for its depth, this call has been counted too. -/
structure Counts (s : Session) (m : Snapshot) : Prop where
  balanced : (∀ e ∈ m.failure, ¬ e.HasTrouble .callDepth) →
    m.session.meter.depth = s.meter.depth + m.calls.length ∧
      m.session.meter.stack = s.meter.stack ++ m.calls
  refused : (∃ e ∈ m.failure, e.HasTrouble .callDepth) →
    m.session.meter.depth = s.meter.depth + m.calls.length + 1 ∧
      ∃ name, m.session.meter.stack = s.meter.stack ++ m.calls ++ [name]

namespace Counts

theorem of_called (hcalls : m.calls = []) (h : s.Called m.failure m.session) : s.Counts m := by
  constructor
  · intro hf
    obtain ⟨hdepth, hstack⟩ := h.balanced hf
    rw [hcalls, List.append_nil, hdepth]
    exact ⟨(add_zero _).symm, congrArg List.reverse hstack⟩
  · intro hf
    obtain ⟨hdepth, name, hstack⟩ := h.refused hf
    rw [hcalls, List.append_nil, hdepth]
    exact ⟨by simp, name, (congrArg List.reverse hstack).trans List.reverse_cons⟩

/-- Nothing is counted unless the meter is changed. -/
theorem of_meter (hcalls : m.calls = []) (hmeter : m.session.meter = s.meter)
    (hf : ∀ e ∈ m.failure, ¬ e.HasTrouble .callDepth) : s.Counts m :=
  .of_called hcalls (.of_eq (congrArg Meter.depth hmeter) (congrArg Meter.calls hmeter) hf)

/-- Nothing is counted where the meter stays as it is and nothing fails. -/
theorem still (hcalls : m.calls = []) (hmeter : m.session.meter = s.meter)
    (hnone : m.failure = none) : s.Counts m :=
  .of_meter hcalls hmeter fun e he => absurd (hnone ▸ he) (Option.not_mem_none e)

/-- What an action leaves has been counted, whether it succeeds or fails. -/
theorem after {α : Type} {P : RunFailure → Prop} {r : EStateM.Result RunFailure Session α}
    (h : Follows cx P s r) : s.Counts (.after r) := by
  cases h with
  | ok h => exact of_called rfl h.called
  | error h _ => exact of_called rfl h.called

/-- A section is opened without a call, or refused. -/
theorem openBody (style : String) (pos : Position) (s : Session) :
    s.Counts (.after (Run.openBody style pos s)) := by
  rw [Run.openBody]
  cases h : s.app.openBody style pos with
  | ok app => exact .still rfl rfl rfl
  | error d =>
    refine .of_meter rfl rfl fun e he => ?_
    obtain rfl := Option.some.inj he
    exact (RunFailure.not_hasTrouble_of_not_isLimit (App.plain_of_openBody h).not_isLimit).1

/-- Which section is being executed is not counted. -/
theorem inBody {α : Type} {x : Run α} (hx : Run.Evolves cx RunFailure.Any true x) (id : Nat)
    (s : Session) : s.Counts (.after (Run.inBody id x s)) := by
  have hresult := hx { s with active := some id } rfl
  rw [Run.inBody_apply, Run.leaving]
  generalize x _ = r at hresult
  cases hresult with
  | ok h => exact .of_called rfl ⟨h.called.balanced, h.called.refused⟩
  | error h _ => exact .of_called rfl ⟨h.called.balanced, h.called.refused⟩

/-- What is counted on top of one session is counted on top of another one with the same calls. -/
theorem of_calls (h : t.Counts m) (hdepth : t.meter.depth = s.meter.depth)
    (hcalls : t.meter.calls = s.meter.calls) : s.Counts m := by
  have hstack : t.meter.stack = s.meter.stack := congrArg List.reverse hcalls
  exact ⟨hdepth ▸ hstack ▸ h.balanced, hdepth ▸ hstack ▸ h.refused⟩

theorem of_evolves (hst : s.Evolves cx none t) (h : t.Counts m) : s.Counts m := by
  obtain ⟨hdepth, hcalls⟩ := hst.called.balanced fun _ he => nomatch he
  exact h.of_calls hdepth hcalls

/-- A call that has been entered is in progress. -/
theorem within {name : String} (h : Counts { s with meter := s.meter.enter name } m) :
    s.Counts (m.within name) := by
  have hdepth (n : Nat) : s.meter.depth + 1 + n = s.meter.depth + (n + 1 : Nat) := by omega
  have hstack (l : List String) : (s.meter.enter name).stack ++ l = s.meter.stack ++ name :: l := by
    rw [Meter.stack, Meter.enter, List.reverse_cons, List.append_assoc]
    rfl
  constructor
  · intro hf
    obtain ⟨h, h'⟩ := h.balanced hf
    exact ⟨h.trans (hdepth _), h'.trans (hstack _)⟩
  · intro hf
    obtain ⟨h, name', h'⟩ := h.refused hf
    refine ⟨h.trans (congrArg (· + 1) (hdepth _)), name', ?_⟩
    exact h'.trans (congrArg (· ++ [name']) (hstack _))

/-- The depth is the number of calls on the stack, even if a call has been refused. -/
theorem depth_eq (h : s.Counts m) (hs : s.meter.depth = s.meter.stack.length) :
    m.session.meter.depth = m.session.meter.stack.length := by
  by_cases hf : ∃ e ∈ m.failure, e.HasTrouble .callDepth
  · obtain ⟨hdepth, name, hstack⟩ := h.refused hf
    rw [hdepth, hstack, hs, List.length_append, List.length_append, List.length_singleton]
    rfl
  · obtain ⟨hdepth, hstack⟩ := h.balanced fun e he hcall => hf ⟨e, he, hcall⟩
    rw [hdepth, hstack, hs, List.length_append]
    rfl

end Counts

end Session

/-- A section that has been opened is the one that is declared next. -/
theorem Run.openBody_eq_ok {style : String} {pos : Position} {s t : Session} {id : Nat}
    (h : Run.openBody style pos s = .ok id t) :
    ∃ app, s.app.openBody style pos = .ok app ∧ s.app.nextSection = id ∧ { s with app } = t := by
  rw [Run.openBody] at h
  cases hopen : s.app.openBody style pos with
  | error d =>
    rw [hopen] at h
    cases h
  | ok app =>
    rw [hopen] at h
    cases h
    exact ⟨app, rfl, rfl, rfl⟩

/-- A call is counted first and checked second, so a refused call has been counted. -/
theorem Run.enterCall_cases (cx : Context) (name : String) (pos : Position) (s : Session) :
    ((s.meter.enter name).checkDepth cx.settings.toLimits pos = .ok () ∧
      Run.enterCall cx name pos s = .ok () { s with meter := s.meter.enter name }) ∨
    ∃ d, Run.enterCall cx name pos s =
      .error (.rejected d) { s with meter := s.meter.enter name } := by
  have hentered : Run.enterCall cx name pos s =
      Run.ofDiagnostic ((s.meter.enter name).checkDepth cx.settings.toLimits pos)
        { s with meter := s.meter.enter name } := rfl
  rw [hentered]
  cases (s.meter.enter name).checkDepth cx.settings.toLimits pos with
  | ok _ => exact .inl ⟨rfl, rfl⟩
  | error d => exact .inr ⟨d, rfl⟩

/-! ## Tracked actions -/

namespace Told

variable {cx : Context} {b : Bool} {α β : Type} {x : Told α}

/-- The account and the snapshots of an action tell what happens meanwhile: the entries are made at
sessions that it comes to, the counters are known at every snapshot, and the last snapshot is the
result. The mode tells whether a body section is being executed. -/
structure Tells (cx : Context) (b : Bool) (x : Told α) : Prop where
  entries {s : Session} {n : Entry} : s.inBody = b → n ∈ x.account s →
    ∃ names, Session.ComesTo cx names s n.session
  snapshots {s : Session} {m : Snapshot} : s.inBody = b → m ∈ x.snapshots s → s.Counts m
  ends {s : Session} : s.inBody = b → (x.snapshots s).getLast? = some (.after (x.run s))

/-- Actions that let sessions evolve, and tell what happens meanwhile. -/
structure Tracks (cx : Context) (b : Bool) (x : Told α) : Prop extends Tells cx b x where
  evolves : Run.Evolves cx RunFailure.Any b x.run

section Results

variable {g : α → Told β} {s t : Session} {v : α} {e : RunFailure}

theorem snapshots_bind_ok (h : x.run s = .ok v t) :
    (x >>= g).snapshots s = x.snapshots s ++ (g v).snapshots t := by
  change x.snapshots s ++ _ = _
  rw [h]

theorem snapshots_bind_error (h : x.run s = .error e t) :
    (x >>= g).snapshots s = x.snapshots s := by
  change x.snapshots s ++ _ = _
  rw [h, List.append_nil]

theorem snapshots_silent_bind {y : Run α} (h : y s = .ok v t) :
    (silent y >>= g).snapshots s = { session := t } :: (g v).snapshots t := by
  refine (snapshots_bind_ok h).trans ?_
  change [Snapshot.after (y s)] ++ _ = _
  rw [h]
  rfl

/-- What is told of a scope: its opening, what is done in it, and the result. -/
theorem snapshots_inScope (parent : Nat) (x : Nat → Told α) (s : Session) :
    (inScope cx parent x).snapshots s =
      { session := { s with arena := s.arena.allocate (some parent) } } ::
        (x s.arena.size).snapshots { s with arena := s.arena.allocate (some parent) } ++
          [.after ((inScope cx parent x).run s)] := rfl

theorem ends_inScope (parent : Nat) (x : Nat → Told α) (s : Session) :
    ((inScope cx parent x).snapshots s).getLast? = some (.after ((inScope cx parent x).run s)) := by
  rw [snapshots_inScope]
  exact List.getLast?_concat

variable {name : String} {pos : Position}

/-- What is told of a call that is counted: its action, within the call, and the result. -/
theorem calling_ok (h : Run.enterCall cx name pos s = .ok () t) (x : Told α) :
    (calling cx name pos x).account s = x.account t ∧
      (calling cx name pos x).snapshots s =
        ({ session := t } :: x.snapshots t).map (.within name) ++
          [.after ((calling cx name pos x).run s)] := by
  have hentered : (silent (Run.enterCall cx name pos)).run s = .ok () t := h
  have hrun : (calling cx name pos x).run s = Run.closing x.run Run.exitCall t :=
    run_bind_ok hentered
  refine ⟨(account_bind_ok hentered).trans (List.nil_append _), ?_⟩
  rw [hrun, calling]
  dsimp only
  rw [h]

/-- A call that is refused is never in progress. -/
theorem calling_error (h : Run.enterCall cx name pos s = .error e t) (x : Told α) :
    (calling cx name pos x).account s = [] ∧
      (calling cx name pos x).snapshots s = [.after ((calling cx name pos x).run s)] := by
  have hrefused : (silent (Run.enterCall cx name pos)).run s = .error e t := h
  have hrun : (calling cx name pos x).run s = .error e t := run_bind_error hrefused
  refine ⟨account_bind_error hrefused, ?_⟩
  rw [hrun, calling]
  dsimp only
  rw [h]
  rfl

end Results

namespace Tells

theorem silent {x : Run α} (h : ∀ s : Session, s.inBody = b → s.Counts (.after (x s))) :
    Tells cx b (Told.silent x) where
  entries _ hn := absurd hn List.not_mem_nil
  snapshots {s m} hs hm := by
    obtain rfl := List.mem_singleton.mp hm
    exact h s hs
  ends _ := rfl

/-- Actions one behind the other. What the second one tells is said of the session before both. -/
theorem bind {g : α → Told β} (hx : Tells cx b x)
    (hentries : ∀ {s t : Session} {v : α}, s.inBody = b → x.run s = .ok v t →
      ∀ n ∈ (g v).account t, ∃ names, Session.ComesTo cx names s n.session)
    (hsnapshots : ∀ {s t : Session} {v : α}, s.inBody = b → x.run s = .ok v t →
      ∀ m ∈ (g v).snapshots t, s.Counts m)
    (hends : ∀ {s t : Session} {v : α}, s.inBody = b → x.run s = .ok v t →
      ((g v).snapshots t).getLast? = some (.after ((g v).run t))) :
    Tells cx b (x >>= g) where
  entries {s n} hs hn := by
    cases hr : x.run s with
    | error e t =>
      rw [account_bind_error hr] at hn
      exact hx.entries hs hn
    | ok v t =>
      rw [account_bind_ok hr] at hn
      exact (List.mem_append.mp hn).elim (hx.entries hs) (hentries hs hr n)
  snapshots {s m} hs hm := by
    cases hr : x.run s with
    | error e t =>
      rw [snapshots_bind_error hr] at hm
      exact hx.snapshots hs hm
    | ok v t =>
      rw [snapshots_bind_ok hr] at hm
      exact (List.mem_append.mp hm).elim (hx.snapshots hs) (hsnapshots hs hr m)
  ends {s} hs := by
    cases hr : x.run s with
    | error e t =>
      rw [snapshots_bind_error hr, run_bind_error hr, hx.ends hs, hr]
      rfl
    | ok v t =>
      rw [snapshots_bind_ok hr, run_bind_ok hr, List.getLast?_append, hends hs hr, Option.some_or]

end Tells

namespace Tracks

/-! ### Elementary actions -/

theorem silent {x : Run α} (h : Run.Evolves cx RunFailure.Any b x) :
    Tracks cx b (Told.silent x) :=
  ⟨.silent fun s hs => .after (h s hs), h⟩

theorem pure (v : α) : Tracks cx b (Pure.pure v) := .silent (.pure v)

theorem reject {pos : Position} {trouble : Trouble} {message : String}
    (h : trouble.isLimit = false) :
    Tracks cx b (Told.silent (Run.reject (.located pos trouble message) : Run α)) :=
  .silent (.any (.reject h))

theorem bind {g : α → Told β} (hx : Tracks cx b x) (hg : ∀ v, Tracks cx b (g v)) :
    Tracks cx b (x >>= g) := by
  have hstep : ∀ {s t : Session} {v : α}, s.inBody = b → x.run s = .ok v t →
      s.Evolves cx none t := by
    intro s t v hs hr
    have hresult := hx.evolves s hs
    rw [hr] at hresult
    cases hresult with
    | ok h => exact h
  refine ⟨hx.toTells.bind (fun hs hr n hn => ?_) (fun hs hr m hm => ?_) fun hs hr => ?_,
    .bind hx.evolves fun v => (hg v).evolves⟩
  · have hst := hstep hs hr
    obtain ⟨names, hcomes⟩ := (hg _).entries (hst.inBody_eq.trans hs) hn
    exact ⟨names, .after hst hcomes⟩
  · have hst := hstep hs hr
    exact .of_evolves hst ((hg _).snapshots (hst.inBody_eq.trans hs) hm)
  · exact (hg _).ends ((hstep hs hr).inBody_eq.trans hs)

theorem reject_bind {g : α → Told β} {pos : Position} {trouble : Trouble} {message : String}
    (h : trouble.isLimit = false) :
    Tracks cx b (Told.silent (Run.reject (.located pos trouble message)) >>= g) where
  toTells := (Tracks.reject h).toTells.bind (fun _ hr => nomatch hr) (fun _ hr => nomatch hr)
    fun _ hr => nomatch hr
  evolves := Run.Evolves.reject_bind h

/-- Two elementary actions, where it is known what they do together. -/
theorem pair {x : Run α} {f : α → Run β} (hx : Run.Evolves cx RunFailure.Any b x)
    (h : Run.Evolves cx RunFailure.Any b (x >>= f)) :
    Tracks cx b (Told.silent x >>= fun v => Told.silent (f v)) := by
  refine ⟨(Tracks.silent hx).toTells.bind (fun _ _ n hn => absurd hn List.not_mem_nil)
    (fun {s t v} hs hr m hm => ?_) fun _ _ => rfl, h⟩
  obtain rfl := List.mem_singleton.mp hm
  have hresult := h s hs
  have hr : x s = .ok v t := hr
  rw [Run.bind_apply, hr] at hresult
  exact .after hresult

theorem get {g : Session → Told α} (h : ∀ s : Session, s.inBody = b → Tracks cx b (g s)) :
    Tracks cx b (Told.silent MonadState.get >>= g) := by
  refine ⟨.bind (.silent fun s _ => ?_) (fun {s t v} hs hr n hn => ?_) (fun {s t v} hs hr m hm => ?_)
    fun {s t v} hs hr => ?_, .get fun s hs => (h s hs).evolves⟩
  · exact .still rfl rfl rfl
  · cases hr
    exact (h s hs).entries hs hn
  · cases hr
    exact (h s hs).snapshots hs hm
  · cases hr
    exact (h s hs).ends hs

theorem ite {c : Prop} [Decidable c] {y : Told α} (hx : Tracks cx b x) (hy : Tracks cx b y) :
    Tracks cx b (if c then x else y) := by
  split
  · exact hx
  · exact hy

theorem telling (around : Surroundings) (deed : α → Deed) (hx : Tracks cx b x) :
    Tracks cx b (Told.telling around deed x) where
  evolves := hx.evolves
  entries {s n} hs hn := by
    have hresult := hx.evolves s hs
    cases hr : x.run s with
    | error e t =>
      rw [account_telling_error hr] at hn
      exact hx.entries hs hn
    | ok v t =>
      rw [account_telling_ok hr] at hn
      rcases List.mem_append.mp hn with hn | hn
      · exact hx.entries hs hn
      · obtain rfl := List.mem_singleton.mp hn
        rw [hr] at hresult
        cases hresult with
        | ok hst => exact ⟨[], .after hst (.here t)⟩
  snapshots := hx.snapshots
  ends := hx.ends

/-! ### Scopes, calls and the body section -/

theorem inScope {x : Nat → Told α} (parent : Nat) (h : ∀ i, Tracks cx b (x i)) :
    Tracks cx b (Told.inScope cx parent x) := by
  have hevolves : Run.Evolves cx RunFailure.Any b (Told.inScope cx parent x).run :=
    .inScope parent fun i => (h i).evolves
  refine ⟨⟨fun {s n} hs hn => ?_, fun {s m} hs hm => ?_, fun {s} _ => ends_inScope ..⟩, hevolves⟩
  · have hmode : Session.inBody { s with arena := s.arena.allocate (some parent) } = b := hs
    obtain ⟨names, hcomes⟩ := (h s.arena.size).entries hmode hn
    exact ⟨names, .scope hcomes⟩
  · have hmode : Session.inBody { s with arena := s.arena.allocate (some parent) } = b := hs
    rw [snapshots_inScope, List.mem_append, List.mem_cons, List.mem_singleton] at hm
    obtain (rfl | hm) | rfl := hm
    · exact .still rfl rfl rfl
    · exact ((h _).snapshots hmode hm).of_calls rfl rfl
    · exact .after (hevolves s hs)

/-- The statements of a section are executed in a scope of their own, with the section active. -/
theorem content {x : Nat → Told α} (style : String) (pos : Position) (parent : Nat)
    (h : ∀ i, Tracks cx true (x i)) :
    Tracks cx b (do
      let id ← Run.openBody style pos
      Told.inScope cx parent fun i => Told.inBody id (x i)) := by
  have hevolves : Run.Evolves cx RunFailure.Any b (do
      let id ← Run.openBody style pos
      Run.inScope cx parent fun i => Run.inBody id (x i).run) :=
    .content (fun _ _ => trivial) style pos parent fun i => (h i).evolves
  refine ⟨.bind (.silent fun s _ => ?_) (fun {s t id} hs hr n hn => ?_)
    (fun {s t id} hs hr m hm => ?_) fun _ _ => ends_inScope .., hevolves⟩
  · exact .openBody style pos s
  · obtain ⟨app, hopen, rfl, rfl⟩ := Run.openBody_eq_ok hr
    obtain ⟨names, hcomes⟩ := (h s.arena.size).entries rfl hn
    exact ⟨names, .content hopen hcomes⟩
  · have hwhole := hevolves s hs
    have hr' : Run.openBody style pos s = .ok id t := hr
    rw [Run.bind_apply, hr'] at hwhole
    obtain ⟨app, hopen, rfl, rfl⟩ := Run.openBody_eq_ok hr
    -- the scope is entered before the section is being executed, and left after that
    let u : Session := { s with app, arena := s.arena.allocate (some parent) }
    change m ∈ { session := u } :: ({ session := { u with active := some s.app.nextSection } } ::
      (x s.arena.size).snapshots { u with active := some s.app.nextSection } ++
        [.after (Run.inBody s.app.nextSection (x s.arena.size).run u)]) ++ [.after _] at hm
    rw [List.mem_append, List.mem_cons, List.mem_append, List.mem_cons, List.mem_singleton,
      List.mem_singleton] at hm
    obtain (rfl | (rfl | hm) | rfl) | rfl := hm
    · exact .still rfl rfl rfl
    · exact .still rfl rfl rfl
    · exact ((h _).snapshots rfl hm).of_calls rfl rfl
    · exact (Session.Counts.inBody (h _).evolves _ u).of_calls rfl rfl
    · exact .after hwhole

/-- A call is in progress while its action is taken. -/
theorem calling (name : String) (pos : Position) (h : Tracks cx b x) :
    Tracks cx b (Told.calling cx name pos x) := by
  have hevolves : Run.Evolves cx RunFailure.Any b (Told.calling cx name pos x).run :=
    .call (fun _ _ => trivial) name pos h.evolves
  have hmode : ∀ {s : Session}, s.inBody = b →
      Session.inBody { s with meter := s.meter.enter name } = b := id
  refine ⟨⟨fun {s n} hs hn => ?_, fun {s m} hs hm => ?_, fun {s} hs => ?_⟩, hevolves⟩
  · rcases Run.enterCall_cases cx name pos s with ⟨hcheck, hr⟩ | ⟨d, hr⟩
    · rw [(calling_ok hr x).1] at hn
      obtain ⟨names, hcomes⟩ := h.entries (hmode hs) hn
      exact ⟨name :: names, .call hcheck hcomes⟩
    · rw [(calling_error hr x).1] at hn
      exact absurd hn List.not_mem_nil
  · rcases Run.enterCall_cases cx name pos s with ⟨-, hr⟩ | ⟨d, hr⟩
    · rw [(calling_ok hr x).2, List.mem_append, List.mem_map, List.mem_singleton] at hm
      obtain ⟨m, hm, rfl⟩ | rfl := hm
      · rcases List.mem_cons.mp hm with rfl | hm
        · exact .within (.still rfl rfl rfl)
        · exact .within (h.snapshots (hmode hs) hm)
      · exact .after (hevolves s hs)
    · rw [(calling_error hr x).2] at hm
      obtain rfl := List.mem_singleton.mp hm
      exact .after (hevolves s hs)
  · rcases Run.enterCall_cases cx name pos s with ⟨-, hr⟩ | ⟨d, hr⟩
    · rw [(calling_ok hr x).2, List.getLast?_concat]
    · rw [(calling_error hr x).2]
      rfl

/-! ### Parts of runs -/

/-- An elementary action that does not give the run up. -/
theorem proper {x : Run α} (h : Run.Evolves cx RunFailure.Proper b x) :
    Tracks cx b (Told.silent x) := .silent h.any

/-- Ways to execute statements that are tracked. -/
def Executes (cx : Context) (execute : Nat → Stmt → Told Completion) : Prop :=
  ∀ b i s, Tracks cx b (execute i s)

/-- Ways to evaluate expressions that are tracked. -/
def Evaluates (cx : Context) (evaluate : Nat → Expr → Told Value) : Prop :=
  ∀ b i e, Tracks cx b (evaluate i e)

variable {execute : Nat → Stmt → Told Completion} {evaluate : Nat → Expr → Told Value}
variable {a : Surroundings} {i : Nat}

theorem loop {test : Told Bool} {body : Told Completion} {update : Told Unit} (pos : Position)
    (htest : Tracks cx b test) (hbody : Tracks cx b body) (hupdate : Tracks cx b update)
    (rounds : Nat) : Tracks cx b (Told.loop cx pos test body update rounds) := by
  induction rounds with
  | zero => exact .silent (.throw id trivial)
  | succ rounds ih =>
    refine htest.bind fun go => ?_
    cases go with
    | false => exact .pure _
    | true =>
      refine .bind (.proper (.step pos)) fun _ => hbody.bind fun c => ?_
      cases c with
      | normal | continued _ => exact hupdate.bind fun _ => ih
      | returned _ | broke _ => exact .pure _

theorem callWith (pos : Position) (name : String) (arity : Option Nat) (count : Nat)
    {x : Told Value} (h : Tracks cx b x) :
    Tracks cx b (Told.callWith cx pos name arity count x) := by
  cases arity with
  | none => exact .calling name pos h
  | some expected => exact .ite (.reject_bind rfl) (.calling name pos h)

section Statements

variable (hx : Executes cx execute)
include hx

theorem sequence (ss : List Stmt) : Tracks cx b (Told.sequence (execute i) ss) := by
  induction ss with
  | nil => exact .pure _
  | cons s ss ih =>
    refine (hx b i s).bind fun c => ?_
    cases c with
    | normal => exact ih
    | returned _ | broke _ | continued _ => exact .pure _

theorem block (i : Nat) (c : Block) : Tracks cx b (Told.block cx a execute i c) :=
  .telling a _ <| .bind (.proper (.reach i _)) fun _ => .inScope i fun _ => sequence hx c.body

theorem forInit (init : ForInit) : Tracks cx b (Told.forInit (execute i) init) := by
  cases init with
  | none => exact .pure _
  | declare _ _ _ _ | expr _ _ => exact (hx b i _).bind fun _ => .pure _

theorem invoke (f : Closure) (vs : List Value) :
    Tracks cx b (Told.invoke cx execute f vs) := by
  refine .bind (.inScope f.frame fun i => ?_) fun c => .proper (.callResult c)
  exact .bind (.proper (.bindParameters i f.pos f.parameters vs)) fun _ => sequence hx f.body.body

theorem callValue (pos : Position) (callee : Value) (vs : List Value) :
    Tracks cx b (Told.callValue cx execute pos callee vs) := by
  rw [Told.callValue.eq_def]
  cases callee with
  | closure f => exact callWith pos _ _ _ (invoke hx f vs)
  | builtin f => exact callWith pos _ _ _ (.proper (.perform pos f.action vs))
  | null | bool _ | number _ | str _ => exact .reject rfl

end Statements

section Expressions

variable (he : Evaluates cx evaluate)
include he

theorem truth (e : Expr) : Tracks cx b (Told.truth (evaluate i) e) :=
  (he b i e).bind fun _ => .pure _

theorem orNull (e : Option Expr) : Tracks cx b (Told.orNull (evaluate i) e) := by
  cases e with
  | none => exact .pure _
  | some e => exact he b i e

theorem evaluateAll (es : List Expr) : Tracks cx b (Told.evaluateAll (evaluate i) es) := by
  induction es with
  | nil => exact .pure _
  | cons e es ih => exact (he b i e).bind fun _ => ih.bind fun _ => .pure _

theorem foldBinary (v : Value) (steps : List BinaryStep) :
    Tracks cx b (Told.foldBinary (evaluate i) v steps) := by
  induction steps generalizing v with
  | nil => exact .pure v
  | cons s steps ih =>
    refine (he b i s.right).bind fun r => ?_
    exact .bind (.proper (.ofOperation (Operation.plain_binary s.pos s.op v r))) ih

theorem foldLogical (v : Value) (steps : List LogicalStep) :
    Tracks cx b (Told.foldLogical (evaluate i) v steps) := by
  induction steps generalizing v with
  | nil => exact .pure v
  | cons s steps ih => exact .ite (.bind (.pure v) ih) ((he b i s.right).bind ih)

theorem declare (scope : Nat) (pos : Position) (kind : DeclarationKind) (name : String)
    (init : Option Expr) : Tracks cx b (Told.declare (evaluate i) scope pos kind name init) :=
  (orNull he init).bind fun _ => .bind (.proper (.define _ _ _ _ _)) fun _ => .pure _

theorem propertyValue (p : Property) (argument : Option Expr) :
    Tracks cx b (Told.propertyValue cx (evaluate i) p argument) := by
  refine .ite (.pure _) ?_
  cases argument with
  | none => exact .pure _
  | some e =>
    refine (he b i e).bind fun v => ?_
    cases p.accepted? with
    | none => exact .proper (.plain (.fault _))
    | some accepted =>
      exact .ite (.bind (.proper (.ofFault v.display)) fun _ => .pure _) (.reject rfl)

theorem style (scope : Nat) (reference : Expr) :
    Tracks cx b (Told.style (evaluate i) scope reference) := by
  have hshown : Tracks cx b (do
      let v ← evaluate i reference
      Run.ofFault v.display : Told String) :=
    (he b i reference).bind fun v => .proper (.ofFault v.display)
  cases reference with
  | ident pos name => exact .bind (.proper (.isBound scope name)) fun _ => .ite hshown (.pure _)
  | _ => exact hshown

theorem expressionStatement (e : Expr) :
    Tracks cx b (Told.expressionStatement (evaluate i) e) :=
  (he b i e).bind fun v => .get fun _ _ =>
    .ite (.bind (.proper (.emit v)) fun _ => .pure _) (.pure _)

end Expressions

section Both

variable (hx : Executes cx execute) (he : Evaluates cx evaluate)
include hx he

theorem otherwise (rest : Else) : Tracks cx b
    (Told.otherwise cx a i (Told.truth (evaluate i)) (Told.block cx a execute i) rest) := by
  cases rest with
  | none => exact .pure _
  | block c => exact block hx i c
  | elseIf _ test c rest =>
    refine .telling a _ (.bind (.proper (.reach i _)) fun _ => (truth he test).bind fun _ => ?_)
    exact .ite (block hx i c) (otherwise rest)

theorem contentCall (pos : Position) (arguments : List Expr) : Tracks cx b
    (Told.contentCall (evaluate i) (Told.callValue cx execute pos) pos arguments) := by
  refine .get fun s _ => .ite (.reject_bind rfl) (.ite (.reject_bind rfl) ?_)
  refine (evaluateAll he arguments).bind fun vs => ?_
  have hemit : ∀ v : Value, Tracks cx b (do Run.emit v; Pure.pure v) := fun v =>
    .bind (.proper (.emit v)) fun _ => .pure v
  have hcall := (callValue hx (b := b) pos (vs.headD .null) vs.tail).bind hemit
  dsimp only
  generalize vs.headD .null = v at hcall ⊢
  cases v with
  | closure _ | builtin _ => exact hcall
  | null | bool _ | number _ | str _ =>
    exact .ite (.bind (.pure _) hemit) (.reject_bind rfl)

end Both

end Tracks

/-! ### The recursion -/

section Recursion

variable {allowance : Nat} (hx : ∀ a, Tracks.Executes cx (execute cx allowance a))
variable (he : ∀ a, Tracks.Evaluates cx (evaluate cx allowance a))
include hx he

theorem tracks_evaluate_succ (a : Surroundings) :
    Tracks.Evaluates cx (evaluate cx (allowance + 1) a) := by
  intro b i e
  rw [evaluate.eq_def]
  refine .telling a _ (.bind (.proper (.visit i _)) fun _ => ?_)
  cases e with
  | ident pos name => exact .proper (.lookup i name pos)
  | number _ _ _ | string _ _ | bool _ _ | null _ => exact .pure _
  | binary pos op l r => exact (he a b i _).bind fun _ => .foldBinary (he a) _ _
  | logical pos op l r => exact (he a b i _).bind fun _ => .foldLogical (he a) _ _
  | unary pos op e =>
    exact (he a b i e).bind fun v => .proper (.ofOperation (Operation.plain_unary pos op v))
  | assign pos target e =>
    exact (he a b i e).bind fun v => .bind (.proper (.assign i target v pos)) fun _ => .pure _
  | call pos callee arguments =>
    exact (he a b i callee).bind fun _ => (Tracks.evaluateAll (he a) arguments).bind fun vs =>
      .callValue (hx a.callee) pos _ vs
  | content pos arguments => exact .contentCall (hx a.callee) (he a) pos arguments

theorem tracks_execute_succ (a : Surroundings) :
    Tracks.Executes cx (execute cx (allowance + 1) a) := by
  intro b i s
  have hreach : Tracks cx b (silent (Run.reach cx i s)) := .proper (.reach i s)
  cases s with
  | block c => exact .block (hx a) i c
  | declare pos kind name init =>
    exact .telling a _ (hreach.bind fun _ => .declare (he a) i pos kind name init)
  | func pos name parameters c =>
    -- a scope is captured where the declaration has been come to, so the two belong together
    exact .telling a _ (.pair (Run.Evolves.reach i _).any
      (Run.Evolves.reach_declareFunction i pos name parameters c).any)
  | property pos p argument =>
    exact .telling a _ (hreach.bind fun _ => (Tracks.propertyValue (he a) p argument).bind fun v =>
      .bind (.proper (.setProperty p v pos)) fun _ => .pure _)
  | body pos reference ss =>
    exact .telling a _ (hreach.bind fun _ => (Tracks.style (he a) i reference).bind fun text =>
      .content text pos i fun _ => .sequence (hx a.content) ss)
  | ifElse pos test c rest => exact .otherwise (hx a) (he a) (.elseIf pos test c rest)
  | «while» pos test c =>
    exact .telling a _ (hreach.bind fun _ =>
      .loop pos (.truth (he a) test) (.block (hx a.round) i c) (.pure _) _)
  | «for» pos init test update c =>
    refine .telling a _ (hreach.bind fun _ => .inScope i fun j => ?_)
    refine (Tracks.forInit (hx a) init).bind fun _ => .loop pos ?_ (.block (hx a.round) j c) ?_ _
    · cases test with
      | none => exact .pure _
      | some test => exact .truth (he a) test
    · cases update with
      | none => exact .pure _
      | some update => exact (he a b j update).bind fun _ => .pure _
  | «return» pos value =>
    exact .telling a _ (hreach.bind fun _ => (Tracks.orNull (he a) value).bind fun _ => .pure _)
  | «break» pos | «continue» pos => exact .telling a _ (hreach.bind fun _ => .pure _)
  | expr pos e => exact .telling a _ (hreach.bind fun _ => .expressionStatement (he a) e)

end Recursion

/-- Executing and evaluating are tracked, whatever the allowance. -/
theorem tracks_execute_evaluate (cx : Context) (allowance : Nat) :
    (∀ a, Tracks.Executes cx (execute cx allowance a)) ∧
      ∀ a, Tracks.Evaluates cx (evaluate cx allowance a) := by
  -- statements contain expressions and calls execute statements, so both go together
  induction allowance with
  | zero =>
    refine ⟨fun _ _ _ _ => ?_, fun _ _ _ _ => ?_⟩
    · rw [execute]
      exact .silent (.throw id trivial)
    · rw [evaluate.eq_def]
      exact .silent (.throw id trivial)
  | succ allowance ih => exact ⟨tracks_execute_succ ih.1 ih.2, tracks_evaluate_succ ih.1 ih.2⟩

theorem tracks_program (cx : Context) (allowance : Nat) (b : Bool) (p : Program) (scope : Nat) :
    Tracks cx b (program cx allowance p scope) := by
  have hx := (tracks_execute_evaluate cx allowance).1 {}
  refine .bind (.proper (.visit scope _)) fun _ => .bind (.proper (.step p.pos)) fun _ => ?_
  refine (Tracks.sequence hx p.body).bind fun c => ?_
  cases c with
  | normal | returned _ => exact .pure _
  | broke _ | continued _ => exact .reject rfl

end Told

/-! ## Runs -/

namespace Session

variable {cx : Context} {s : Session}

/-- A run takes four snapshots while its scopes are opened, and then those of its program. -/
theorem snapshots_eq (cx : Context) (allowance : Nat) (p : Program) (s : Session) :
    ∃ l : List Snapshot, (∀ m ∈ l, m.calls = [] ∧ m.failure = none ∧ m.session.meter = s.meter) ∧
      s.snapshots cx allowance p = l ++ (Told.program cx allowance p (s.arena.size + 1)).snapshots
        (opened { s with trace := #[], visits := #[] }) := by
  obtain ⟨t, hprint, hmeter, hlen⟩ :=
    Run.install_builtins { s with trace := #[], visits := #[] }
  refine ⟨[_, _, _, _], ?_, (Told.snapshots_silent_bind rfl).trans <| congrArg (List.cons _) <|
    (Told.snapshots_silent_bind hprint).trans <| congrArg (List.cons _) <|
      (Told.snapshots_silent_bind hlen).trans <| congrArg (List.cons _) <|
        Told.snapshots_silent_bind (Run.openScope_builtins _)⟩
  simp only [List.forall_mem_cons, List.not_mem_nil, IsEmpty.forall_iff, implies_true, and_true,
    true_and]
  exact ⟨hmeter, rfl⟩

/-- The snapshots of a run count the calls in progress, and the last one is the result. -/
theorem snapshots_run (cx : Context) (allowance : Nat) (path : String) (p : Program) (s : Session) :
    (∀ m ∈ s.snapshots cx allowance p, s.Counts m) ∧
      ∃ m, (s.snapshots cx allowance p).getLast? = some m ∧ m.calls = [] ∧
        Session.run cx allowance path p s = (m.failure.map (·.inFile path), m.session) := by
  obtain ⟨l, hl, hsnapshots⟩ := snapshots_eq cx allowance p s
  have htracks := Told.tracks_program cx allowance s.inBody p (s.arena.size + 1)
  let u : Session := opened { s with trace := #[], visits := #[] }
  rw [hsnapshots]
  constructor
  · intro m hm
    rcases List.mem_append.mp hm with hm | hm
    · obtain ⟨hcalls, hnone, hmeter⟩ := hl m hm
      exact .still hcalls hmeter hnone
    · exact (htracks.snapshots (s := u) rfl hm).of_calls rfl rfl
  · rw [List.getLast?_append, htracks.ends (s := u) rfl, Option.some_or, Told.run_program,
      Session.run, Run.start_eq]
    refine ⟨_, rfl, ?_⟩
    dsimp only
    cases Run.program cx allowance p _ _ <;> exact ⟨rfl, rfl⟩

/-- The account of a run tells of sessions within the run. -/
theorem AtRest.reachable_of_entry (hs : AtRest cx s) {allowance : Nat} {p : Program} {n : Entry}
    (hn : n ∈ s.account cx allowance p) : Reachable cx n.session := by
  have htracks := Told.tracks_program cx allowance s.inBody p (s.arena.size + 1)
  let u : Session := opened { s with trace := #[], visits := #[] }
  rw [account_eq] at hn
  obtain ⟨names, hcomes⟩ := htracks.entries (s := u) rfl hn
  exact ⟨s, names, hs, hcomes⟩

/-- The calls in progress, during a run and after it. At every moment each of them has been counted, on
top of what was counted before, and no other call has, except for one that is refused for its depth:
it stays counted while the run fails. The last moment is the end of the run, with no calls in progress.
So a run that does not fail for the depth of its calls leaves what was counted before, and a run that
does leaves one call more. In any case the depth is the number of calls on the stack if it was so
before, as it is between runs. -/
theorem run_calls (cx : Context) (allowance : Nat) (path : String) (p : Program) (s : Session) :
    let result := Session.run cx allowance path p s
    (∀ m ∈ s.snapshots cx allowance p, s.Counts m ∧
      (s.meter.depth = s.meter.stack.length →
        m.session.meter.depth = m.session.meter.stack.length)) ∧
    (∃ m, (s.snapshots cx allowance p).getLast? = some m ∧ m.calls = [] ∧
      result = (m.failure.map (·.inFile path), m.session)) ∧
    ((∀ e ∈ result.1, ¬ e.HasTrouble .callDepth) →
      result.2.meter.depth = s.meter.depth ∧ result.2.meter.stack = s.meter.stack) ∧
    ((∃ e ∈ result.1, e.HasTrouble .callDepth) →
      result.2.meter.depth = s.meter.depth + 1 ∧
        ∃ name, result.2.meter.stack = s.meter.stack ++ [name]) ∧
    (s.meter.depth = s.meter.stack.length →
      result.2.meter.depth = result.2.meter.stack.length) ∧
    (AtRest cx s → s.meter.depth = s.meter.stack.length) := by
  intro result
  obtain ⟨hcounts, m, hlast, hcalls, hresult⟩ := snapshots_run cx allowance path p s
  have hm : s.Counts m := hcounts m (List.mem_of_getLast? hlast)
  have hfailure : result.1 = m.failure.map (·.inFile path) := congrArg Prod.fst hresult
  have hsession : result.2 = m.session := congrArg Prod.snd hresult
  rw [hfailure, hsession]
  refine ⟨fun m hm => ⟨hcounts m hm, (hcounts m hm).depth_eq⟩, ⟨m, hlast, hcalls, hresult⟩,
    fun hf => ?_, fun hf => ?_, hm.depth_eq, fun hs => hs.depth_eq⟩
  · obtain ⟨hdepth, hstack⟩ := hm.balanced (RunFailure.forall_inFile.mp hf)
    rw [hcalls] at hdepth hstack
    exact ⟨hdepth.trans (add_zero _), hstack.trans (List.append_nil _)⟩
  · obtain ⟨hdepth, name, hstack⟩ := hm.refused (RunFailure.exists_inFile.mp hf)
    rw [hcalls] at hdepth hstack
    rw [List.append_nil] at hstack
    exact ⟨hdepth.trans (congrArg (· + 1) (add_zero _)), name, hstack⟩

/-- A function that calls itself under a limit of one call: when the second call has been refused, two
calls are counted and one is in progress; after the run one is counted and none is in progress. -/
theorem run_calls_refused :
    let cx : Context := { settings := { maxCallDepth := 1 }, patience := 5 }
    ∃ p, let result := Session.run cx 20 "" p {}
      (∃ e ∈ result.1, e.HasTrouble .callDepth) ∧
        result.2.meter.depth = 1 ∧ result.2.meter.stack = ["f"] ∧
        ∃ m ∈ Session.snapshots cx 20 p {}, m.calls = ["f"] ∧ m.session.meter.depth = 2 ∧
          m.session.meter.stack = ["f", "f"] := by
  intro cx
  obtain ⟨p, hfailure, hmeter, hsnapshot⟩ : ∃ p, let result := Session.run cx 20 "" p {}
      result.1.map (·.HasTrouble .callDepth) = some True ∧ result.2.meter = ⟨4, 1, ["f"]⟩ ∧
        (Session.snapshots cx 20 p {}).any
          (fun m => m.calls = ["f"] ∧ m.session.meter = ⟨4, 2, ["f", "f"]⟩) = true := by
    refine ⟨⟨⟨1, 1⟩, [
      .func ⟨1, 1⟩ "f" [] (.mk ⟨1, 10⟩ [.expr ⟨1, 12⟩ (.call ⟨1, 12⟩ (.ident ⟨1, 12⟩ "f") [])]),
      .expr ⟨2, 1⟩ (.call ⟨2, 1⟩ (.ident ⟨2, 1⟩ "f") [])]⟩, ?_, ?_, ?_⟩ <;> cbv
  obtain ⟨e, he, htrouble⟩ := Option.map_eq_some_iff.mp hfailure
  obtain ⟨m, hm, hcounted⟩ := List.any_eq_true.mp hsnapshot
  obtain ⟨hcalls, hcounted⟩ := of_decide_eq_true hcounted
  exact ⟨p, ⟨e, he, of_eq_true htrouble⟩, congrArg Meter.depth hmeter, congrArg Meter.stack hmeter,
    m, hm, hcalls, congrArg Meter.depth hcounted, congrArg Meter.stack hcounted⟩

end Session

end MiniApp
