import MiniApp.Proofs.Eval.Account
import MiniApp.Proofs.Eval.Quiet

/-!
# What accounts tell

An account and what happens to the application record go together: a session *recounts* an account if
it changes step by step as the account tells. Content is emitted by content calls and by texts that
stand as statements, a property is written by a property declaration of the program, jumps are taken
by loops and refused by calls, and the statements that are executed are statements of the program.

Runs recount their accounts. So whatever holds of accounts and sessions is shown by induction on how
a session recounts an account, with one case for each thing that can happen.

## Main definitions

* `Entry.emission`: the content that an entry tells of
* `Ending`: how a part of a run ends
* `Session.Recounts`: sessions that change as an account tells
* `Told.Faithful`: told actions whose sessions recount what they tell

## Main results

* `Told.execute_evaluate_faithful`: executing and evaluating
* `Session.run_recounts`: runs recount their accounts
-/

namespace MiniApp

/-! ## What an entry tells -/

/-- The keyword and the place of a jump. -/
def Stmt.jump? : Stmt → Option (String × Position)
  | .break pos => some ("break", pos)
  | .continue pos => some ("continue", pos)
  | _ => none

/-- The statements that a `for` may start with. -/
def Stmt.isClause : Stmt → Bool
  | .declare .. | .expr .. => true
  | _ => false

/-- The statement that has been executed. -/
def Deed.stmt? : Deed → Option Stmt
  | .executed s => some s
  | .evaluated .. => none

/-- The jump that has been executed. -/
def Deed.jump? (d : Deed) : Option (String × Position) := d.stmt?.bind Stmt.jump?

/-- The content that an entry tells of: the value of a content call, or a text that stands as a
statement, if a body section is being executed. -/
def Entry.emission (m : Entry) : List Value :=
  match m.deed with
  | .evaluated (.content ..) v => [v]
  | .executed (.expr _ (.string _ text)) => if m.around.inBody then [.str text] else []
  | _ => []

/-- How a part of a run ends: normally, with a value that has become content but whose entry is still
to come, by a jump, or with a failure. -/
inductive Ending where
  | done
  | owing (v : Value)
  | jumped (keyword : String) (pos : Position)
  | failed (e : RunFailure)

namespace Ending

/-- A loop takes the jumps of its rounds. -/
def round : Ending → Ending
  | .jumped .. => .done
  | f => f

/-- A call refuses jumps. -/
def call : Ending → Ending
  | .jumped keyword pos => .failed (.rejected (Run.strayJump keyword pos))
  | f => f

/-- The content whose entry is still to come. -/
def due : Ending → List Value
  | .owing v => [v]
  | _ => []

/-- An entry has been made. -/
def told : Ending → Ending
  | .owing _ => .done
  | f => f

end Ending

/-- How an expression ends that is executed as a statement, before its entry has been made. -/
def Expr.ending (a : Surroundings) : Expr → Ending
  | .string _ text => if a.inBody then .owing (.str text) else .done
  | _ => .done

theorem Expr.due_ending (a : Surroundings) (pos : Position) (e : Expr) (t : Session) :
    (Entry.mk (.executed (.expr pos e)) a t).emission = (e.ending a).due := by
  cases e with
  | string _ text =>
    change (if a.inBody then [Value.str text] else []) =
      (if a.inBody then Ending.owing (.str text) else .done).due
    split <;> rfl
  | _ => rfl

theorem Expr.told_ending (a : Surroundings) (e : Expr) : (e.ending a).told = .done := by
  cases e with
  | string _ text =>
    rw [Expr.ending]
    split <;> rfl
  | _ => rfl

/-- How a part of a run ends whose statements have completed in a way. -/
def Completion.ending : Completion → Ending
  | .normal | .returned _ => .done
  | .broke pos => .jumped "break" pos
  | .continued pos => .jumped "continue" pos

theorem Completion.due_ending (c : Completion) : c.ending.due = [] := by cases c <;> rfl

/-- What a property declaration may write: that it is there, the configured version, or the text of
its argument. -/
inductive Property.Writes (cx : Context) (q : Property) : Option Expr → Data → Prop
  | flag {argument : Option Expr} : q = .webPackage → Writes cx q argument (.bool true)
  | default : q ≠ .webPackage → Writes cx q none cx.settings.defaultWebVersion
  | text {e : Expr} {v : Value} {text : String} :
      (∃ accepted ∈ q.accepted?, accepted.contains v.typeName = true) → v.display = .ok text →
      Writes cx q (some e) (.str text)

/-! ## Sessions that recount accounts -/

namespace Session

/-- `Recounts cx p a s l f t`: in these surroundings the session changes from `s` to `t` as the
account `l` tells, and this ends as `f` says. -/
inductive Recounts (cx : Context) (p : Program) :
    Surroundings → Session → List Entry → Ending → Session → Prop
  | quiet {a : Surroundings} {s t : Session} : s.Mild t → Recounts cx p a s [] .done t
  | failed {a : Surroundings} {s t : Session} {e : RunFailure} :
      s.Mild t → ¬ e.HasTrouble .controlFlow → Recounts cx p a s [] (.failed e) t
  | trans {a : Surroundings} {s t u : Session} {l l' : List Entry} {f : Ending} :
      Recounts cx p a s l .done t → Recounts cx p a t l' f u → Recounts cx p a s (l ++ l') f u
  | leave {a : Surroundings} {s t u : Session} {l : List Entry} {f : Ending} :
      Recounts cx p a s l f t → t.Mild u → Recounts cx p a s l f u
  | round {a : Surroundings} {s t : Session} {l : List Entry} {f : Ending} :
      Recounts cx p a.round s l f t → Recounts cx p a s l f.round t
  | call {a : Surroundings} {s t : Session} {l : List Entry} {f : Ending} :
      Recounts cx p a.callee s l f t → Recounts cx p a s l f.call t
  -- the section that was being executed before is again when the one within it is left
  | content {a : Surroundings} {s t : Session} {l : List Entry} {f : Ending} {style : String}
      {pos : Position} {app : App} :
      s.app.openBody style pos = .ok app → f.due = [] →
      Recounts cx p a.content { s with app, active := some s.app.nextSection } l f t →
      Recounts cx p a s l f { t with active := s.active }
  -- an entry comes after what it tells of, so it settles the content that is still due
  | told {a : Surroundings} {s t : Session} {l : List Entry} {f : Ending} {deed : Deed} :
      Recounts cx p a s l f t → (Entry.mk deed a t).emission = f.due → deed.jump? = none →
      (∀ stmt ∈ deed.stmt?, p.Contains a.inLoop stmt) →
      Recounts cx p a s (l ++ [⟨deed, a, t⟩]) f.told t
  | jumped {a : Surroundings} {s : Session} {stmt : Stmt} {keyword : String} {pos : Position} :
      stmt.jump? = some (keyword, pos) → p.Contains a.inLoop stmt →
      Recounts cx p a s [⟨.executed stmt, a, s⟩] (.jumped keyword pos) s
  | emitted {a : Surroundings} {s : Session} {id : Nat} {v : Value} :
      s.active = some id →
      Recounts cx p a s [] (.owing v)
        { s with app := s.app.emit id v, trace := s.trace.push (.emitted v) }
  | written {a : Surroundings} {s : Session} {q : Property} {argument : Option Expr}
      {value : Data} {pos : Position} {app : App} :
      p.Contains a.inLoop (.property pos q argument) → q.Writes cx argument value →
      s.app.setProperty q value pos = .ok app →
      Recounts cx p a s [] .done { s with app, trace := s.trace.push (.propertySet q.field value) }

/-- The body section that was being executed before is being executed afterwards. -/
theorem Recounts.active_eq {cx : Context} {p : Program} {a : Surroundings} {s t : Session}
    {l : List Entry} {f : Ending} (h : s.Recounts cx p a l f t) : t.active = s.active := by
  induction h with
  | quiet h | failed h _ => exact h.active
  | trans _ _ ih ih' => exact ih'.trans ih
  | leave _ h ih => exact h.active.trans ih
  | round _ ih | call _ ih | told _ _ _ _ ih => exact ih
  | content _ _ _ _ | jumped _ _ | emitted _ | written _ _ _ => rfl

theorem Recounts.inBody_eq {cx : Context} {p : Program} {a : Surroundings} {s t : Session}
    {l : List Entry} {f : Ending} (h : s.Recounts cx p a l f t) : t.inBody = s.inBody :=
  congrArg Option.isSome h.active_eq

end Session

/-! ## Faithful accounts -/

namespace Told

section Results

variable {α β : Type} {x : Told α} {g : α → Told β} {s t : Session} {v : α} {e : RunFailure}

theorem run_bind_ok (h : x.run s = .ok v t) : (x >>= g).run s = (g v).run t := by
  change (x.run >>= fun v => (g v).run) s = _
  rw [Run.bind_apply, h]

theorem run_bind_error (h : x.run s = .error e t) : (x >>= g).run s = .error e t := by
  change (x.run >>= fun v => (g v).run) s = _
  rw [Run.bind_apply, h]

theorem account_bind_ok (h : x.run s = .ok v t) :
    (x >>= g).account s = x.account s ++ (g v).account t := by
  change x.account s ++ _ = _
  rw [h]

theorem account_bind_error (h : x.run s = .error e t) : (x >>= g).account s = x.account s := by
  change x.account s ++ _ = _
  rw [h, List.append_nil]

theorem account_telling_ok {around : Surroundings} {deed : α → Deed} (h : x.run s = .ok v t) :
    (telling around deed x).account s = x.account s ++ [⟨deed v, around, t⟩] := by
  change x.account s ++ _ = _
  rw [h]

theorem account_telling_error {around : Surroundings} {deed : α → Deed}
    (h : x.run s = .error e t) : (telling around deed x).account s = x.account s := by
  change x.account s ++ _ = _
  rw [h, List.append_nil]

/-- What comes before without being told may be left out of what is told. -/
theorem telling_silent_bind (around : Surroundings) (deed : β → Deed) (y : Run α)
    (g : α → Told β) :
    telling around deed (silent y >>= g) = silent y >>= fun v => telling around deed (g v) := by
  refine congrArg (Told.mk _ · _) (funext fun s => ?_)
  change (silent y >>= g).account s ++ _ =
    (silent y >>= fun v => telling around deed (g v)).account s
  cases h : (silent y).run s with
  | error e t => rw [account_bind_error h, account_bind_error h, run_bind_error h, List.append_nil]
  | ok v t =>
    rw [account_bind_ok h, account_bind_ok h, run_bind_ok h, List.append_assoc]
    rfl

end Results

variable {cx : Context} {p : Program} {root : Nat} {a : Surroundings} {α β : Type}
variable {ending : α → Ending} {Q R : α → Prop} {x : Told α} {s : Session}

/-- Completions with known values. -/
def Known (p : Program) (root : Nat) (c : Completion) : Prop :=
  ∀ v, c = .returned v → v.Known p root

/-- What a result and an account say: the session recounts the account, the program is still known,
and something holds of the value. -/
inductive Recounted (cx : Context) (p : Program) (root : Nat) (a : Surroundings)
    (ending : α → Ending) (Q : α → Prop) (s : Session) (l : List Entry) :
    EStateM.Result RunFailure Session α → Prop
  | ok {v : α} {t : Session} : s.Recounts cx p a l (ending v) t → t.arena.Knows p root → Q v →
      Recounted cx p root a ending Q s l (.ok v t)
  | error {e : RunFailure} {t : Session} : s.Recounts cx p a l (.failed e) t →
      Recounted cx p root a ending Q s l (.error e t)

/-- What is recounted after an account that has ended normally is recounted along with it. -/
theorem Recounted.after {t : Session} {l l' : List Entry}
    {r : EStateM.Result RunFailure Session α} (h : s.Recounts cx p a l .done t)
    (hr : Recounted cx p root a ending Q t l' r) :
    Recounted cx p root a ending Q s (l ++ l') r := by
  cases hr with
  | ok h' ht hv => exact .ok (.trans h h') ht hv
  | error h' => exact .error (.trans h h')

/-- Actions one behind the other, where the first may stand in surroundings `b` of its own: a failure
of the first is one of the whole, and what the first has recounted goes before the second. -/
theorem Recounted.bind {b : Surroundings} {g : α → Told β} {ending' : β → Ending} {R : β → Prop}
    (hx : Recounted cx p root b ending Q s (x.account s) (x.run s))
    (herror : ∀ e t, s.Recounts cx p b (x.account s) (.failed e) t →
      s.Recounts cx p a (x.account s) (.failed e) t)
    (hok : ∀ v t, s.Recounts cx p b (x.account s) (ending v) t → t.arena.Knows p root → Q v →
      Recounted cx p root a ending' R s (x.account s ++ (g v).account t) ((g v).run t)) :
    Recounted cx p root a ending' R s ((x >>= g).account s) ((x >>= g).run s) := by
  cases hr : x.run s with
  | error e t =>
    rw [hr] at hx
    rw [account_bind_error hr, run_bind_error hr]
    cases hx with
    | error h => exact .error (herror e t h)
  | ok v t =>
    rw [hr] at hx
    rw [account_bind_ok hr, run_bind_ok hr]
    cases hx with
    | ok h ht hv => exact hok v t h ht hv

/-- What is recounted of an action is recounted of it with a mild change behind it. -/
theorem Recounted.leaving {u : Session} {l : List Entry} {x : Run α}
    (h : Recounted cx p root a ending Q s l (x u)) (change : Session → Session)
    (hmild : ∀ t : Session, t.Mild (change t))
    (hknows : ∀ t : Session, t.arena.Knows p root → (change t).arena.Knows p root) :
    Recounted cx p root a ending Q s l (Run.leaving x change u) := by
  rw [Run.leaving]
  generalize x u = r at h
  cases h with
  | ok h ht hv => exact .ok (.leave h (hmild _)) (hknows _ ht) hv
  | error h => exact .error (.leave h (hmild _))

/-- A told action whose sessions recount what it tells. How it ends, and what holds of its value, is
stated along with it. -/
def Faithful (cx : Context) (p : Program) (root : Nat) (a : Surroundings) (ending : α → Ending)
    (Q : α → Prop) (x : Told α) : Prop :=
  ∀ s : Session, s.inBody = a.inBody → s.arena.Knows p root →
    Recounted cx p root a ending Q s (x.account s) (x.run s)

namespace Faithful

/-! ### Elementary actions -/

theorem silent {x : Run α} (h : Run.Quiet p root Q x) :
    Faithful cx p root a (fun _ => .done) Q (silent x) := by
  intro s _ hknows
  have hresult := h s hknows
  change Recounted cx p root a _ Q s [] (x s)
  generalize x s = r at hresult
  cases hresult with
  | ok hmild ht hv => exact .ok (.quiet hmild) ht hv
  | error hmild he => exact .error (.failed hmild he)

theorem pure {v : α} (hending : ending v = .done) (hv : Q v) :
    Faithful cx p root a ending Q (Pure.pure v) := by
  intro s _ hknows
  refine .ok (v := v) ?_ hknows hv
  rw [hending]
  exact .quiet (.refl s)

theorem throw {e : RunFailure} (h : ¬ e.HasTrouble .controlFlow) :
    Faithful cx p root a ending Q (Told.silent (MonadExcept.throw e)) :=
  fun s _ _ => .error (.failed (.refl s) h)

theorem reject {pos : Position} {trouble : Trouble} {message : String}
    (h : trouble.isPlain = true) :
    Faithful cx p root a ending Q (Told.silent (Run.reject (.located pos trouble message))) :=
  .throw (RunFailure.Plain.located h).not_controlFlow

/-- What is known of a value may also tell how the action has ended. -/
theorem imp {ending' : α → Ending} (h : Faithful cx p root a ending Q x)
    (hQ : ∀ v, Q v → ending v = ending' v ∧ R v) : Faithful cx p root a ending' R x := by
  intro s hs hknows
  have hresult := h s hs hknows
  generalize x.run s = r at hresult
  cases hresult with
  | ok h ht hv => exact .ok ((hQ _ hv).1 ▸ h) ht (hQ _ hv).2
  | error h => exact .error h

theorem mono (h : Faithful cx p root a ending Q x) (hQ : ∀ v, Q v → R v) :
    Faithful cx p root a ending R x :=
  h.imp fun v hv => ⟨rfl, hQ v hv⟩

theorem bind {g : α → Told β} {ending' : β → Ending} {R : β → Prop}
    (hx : Faithful cx p root a (fun _ => .done) Q x)
    (hg : ∀ v, Q v → Faithful cx p root a ending' R (g v)) :
    Faithful cx p root a ending' R (x >>= g) := by
  intro s hs hknows
  refine (hx s hs hknows).bind (fun _ _ h => h) fun v t h ht hv => ?_
  exact (hg v hv t (h.inBody_eq.trans hs) ht).after h

theorem reject_bind {g : α → Told β} {ending' : β → Ending} {R : β → Prop} {pos : Position}
    {trouble : Trouble} {message : String} (h : trouble.isPlain = true) :
    Faithful cx p root a ending' R
      (Told.silent (Run.reject (.located pos trouble message)) >>= g) :=
  .bind (Q := fun _ => False) (.reject h) fun _ hv => hv.elim

theorem get {g : Session → Told α}
    (h : ∀ s : Session, s.inBody = a.inBody → Faithful cx p root a ending Q (g s)) :
    Faithful cx p root a ending Q (Told.silent MonadState.get >>= g) :=
  fun s hs hknows => h s hs s hs hknows

theorem ite {c : Prop} [Decidable c] {y : Told α} (hx : Faithful cx p root a ending Q x)
    (hy : Faithful cx p root a ending Q y) :
    Faithful cx p root a ending Q (if c then x else y) := by
  split
  · exact hx
  · exact hy

/-! ### Entries -/

/-- An entry is faithful if it tells of the content that is due, and of no jump. -/
theorem telling (deed : α → Deed) (hx : Faithful cx p root a ending Q x)
    (hdue : ∀ v t, Q v → (Entry.mk (deed v) a t).emission = (ending v).due)
    (hjump : ∀ v, (deed v).jump? = none)
    (hstmt : ∀ v, ∀ stmt ∈ (deed v).stmt?, p.Contains a.inLoop stmt) :
    Faithful cx p root a (fun v => (ending v).told) Q (telling a deed x) := by
  intro s hs hknows
  have hresult := hx s hs hknows
  change Recounted cx p root a _ Q s _ (x.run s)
  cases hr : x.run s with
  | error e t =>
    rw [hr] at hresult
    rw [account_telling_error hr]
    cases hresult with
    | error h => exact .error h
  | ok v t =>
    rw [hr] at hresult
    rw [account_telling_ok hr]
    cases hresult with
    | ok h ht hv => exact .ok (.told h (hdue v t hv) (hjump v) (hstmt v)) ht hv

/-- The entry of a statement that is no expression and no jump. -/
theorem executed {stmt : Stmt} {x : Told Completion} {Q : Completion → Prop}
    (hstmt : p.Contains a.inLoop stmt) (hjump : stmt.jump? = none)
    (hemission : ∀ t, (Entry.mk (.executed stmt) a t).emission = [])
    (hx : Faithful cx p root a Completion.ending Q x) :
    Faithful cx p root a Completion.ending Q (Told.telling a (fun _ => .executed stmt) x) := by
  have htold : ∀ c : Completion, c.ending.told = c.ending := fun c => by cases c <;> rfl
  have htelling := hx.telling (fun _ => .executed stmt)
    (fun c t _ => (hemission t).trans c.due_ending.symm) (fun _ => hjump)
    fun _ _ h => Option.some.inj h ▸ hstmt
  simpa only [htold] using htelling

/-- The entry of a jump. -/
theorem jumped {stmt : Stmt} {x : Run Unit} {c : Completion} {keyword : String} {pos : Position}
    {Q : Completion → Prop} (hstmt : p.Contains a.inLoop stmt)
    (hjump : stmt.jump? = some (keyword, pos)) (hc : c.ending = .jumped keyword pos) (hQ : Q c)
    (hx : Run.Quiet p root (fun _ => True) x) :
    Faithful cx p root a Completion.ending Q
      (Told.telling a (fun _ => .executed stmt) (Told.silent x >>= fun _ => Pure.pure c)) := by
  rw [telling_silent_bind]
  refine .bind (.silent hx) fun _ _ s _ hknows => .ok ?_ hknows hQ
  rw [hc]
  exact .jumped hjump hstmt

/-! ### Scopes, calls, loops and the body section -/

/-- A scope is there to be left if what is done in it keeps scopes open. -/
theorem inScope {parent : Nat} {x : Nat → Told α} (hparent : root ≤ parent)
    (hopen : ∀ i, (x i).run.KeepsOpen)
    (h : ∀ i, root < i → Faithful cx p root a ending Q (x i)) :
    Faithful cx p root a ending Q (Told.inScope cx parent x) := by
  intro s hs hknows
  have hbody := h s.arena.size hknows.root_lt_size
    { s with arena := s.arena.allocate (some parent) } hs (hknows.allocate hparent)
  have hopened : Session.Mild s { s with arena := s.arena.allocate (some parent) } := ⟨rfl, rfl⟩
  change Recounted cx p root a ending Q s ([] ++ (x s.arena.size).account _)
    (Run.closing (x s.arena.size).run (Run.closeScope cx s.arena.size) _)
  rw [Run.closing_closeScope (hopen _ _ _ (Arena.open_allocate s.arena _)).lt_size]
  refine .after (.quiet hopened) (hbody.leaving (Session.closed cx _) (fun _ => ⟨rfl, rfl⟩) ?_)
  exact fun _ ht => ht.release _ hknows.root_lt_size

/-- A loop takes the jumps of its rounds. -/
theorem round {x : Told Completion} {Q : Completion → Prop}
    (hx : Faithful cx p root a.round Completion.ending Q x) :
    Faithful cx p root a (fun _ => .done) Q x := by
  have hround : ∀ c : Completion, c.ending.round = .done := fun c => by cases c <;> rfl
  intro s hs hknows
  have hresult := hx s hs hknows
  generalize x.run s = r at hresult
  cases hresult with
  | ok h ht hc => exact .ok (hround _ ▸ .round h) ht hc
  | error h => exact .error (.round h)

/-- A call, and the program as a whole, refuses the jumps of its statements. -/
theorem call {x : Told Completion} {g : Completion → Told β} {R : β → Prop}
    (hx : Faithful cx p root a.callee Completion.ending (Known p root) x)
    (hdone : ∀ c, c.ending = .done → Known p root c →
      Faithful cx p root a (fun _ => .done) R (g c))
    (hjump : ∀ c keyword pos, c.ending = .jumped keyword pos →
      g c = Told.silent (MonadExcept.throw (.rejected (Run.strayJump keyword pos)))) :
    Faithful cx p root a (fun _ => .done) R (x >>= g) := by
  intro s hs hknows
  refine (hx s hs hknows).bind (fun _ _ h => .call h) fun c t h ht hc => ?_
  cases hending : c.ending with
  | done =>
    rw [hending] at h
    exact (hdone c hending hc t (h.inBody_eq.trans hs) ht).after (.call h)
  | jumped keyword pos =>
    -- the refusal itself makes no entry: the jump has been told of where it was executed
    rw [hending] at h
    rw [hjump c keyword pos hending]
    change Recounted cx p root a _ R s (x.account s ++ []) (.error _ t)
    rw [List.append_nil]
    exact .error (.call h)
  | owing v => cases c <;> cases hending
  | failed e => cases c <;> cases hending

/-- The statements of a body section are executed in a scope of their own. -/
theorem content {style : String} {pos : Position} {scope : Nat} {x : Nat → Told Completion}
    (hscope : root ≤ scope) (hopen : ∀ i, (x i).run.KeepsOpen)
    (h : ∀ i, root < i → Faithful cx p root a.content Completion.ending (Known p root) (x i)) :
    Faithful cx p root a Completion.ending (Known p root) (do
      let id ← Run.openBody style pos
      Told.inScope cx scope fun i => Told.inBody id (x i)) := by
  intro s hs hknows
  cases hbody : s.app.openBody style pos with
  | error d =>
    have hr : (Told.silent (Run.openBody style pos)).run s = .error (.rejected d) s := by
      change Run.openBody style pos s = _
      rw [Run.openBody, hbody]
    refine (account_bind_error hr).symm ▸ (run_bind_error hr).symm ▸ .error ?_
    exact .failed (.refl s) (App.plain_of_openBody hbody).not_controlFlow
  | ok app =>
    have hr : (Told.silent (Run.openBody style pos)).run s =
        .ok s.app.nextSection { s with app } := by
      change Run.openBody style pos s = _
      rw [Run.openBody, hbody]
    -- the scope is entered before the section is being executed, and left after that
    have hresult := h s.arena.size hknows.root_lt_size
      { s with app, arena := s.arena.allocate (some scope), active := some s.app.nextSection } rfl
      (hknows.allocate hscope)
    refine (account_bind_ok hr).symm ▸ (run_bind_ok hr).symm ▸ ?_
    change Recounted cx p root a _ _ s ((x s.arena.size).account _)
      (Run.closing (Run.inBody s.app.nextSection (x s.arena.size).run)
        (Run.closeScope cx s.arena.size)
        { s with app, arena := s.arena.allocate (some scope) })
    have hthere := (hopen s.arena.size).inBody s.app.nextSection
      { s with app, arena := s.arena.allocate (some scope) } _
      (Arena.open_allocate s.arena (some scope))
    rw [Run.closing_closeScope hthere.lt_size]
    refine .leaving ?_ (Session.closed cx s.arena.size) (fun _ => ⟨rfl, rfl⟩)
      fun _ ht => ht.release _ hknows.root_lt_size
    rw [Run.inBody_apply, Run.leaving]
    have hopened : Session.Mild s { s with arena := s.arena.allocate (some scope) } := ⟨rfl, rfl⟩
    generalize (x s.arena.size).run _ = r at hresult
    refine Recounted.after (l := []) (.quiet hopened) ?_
    cases hresult with
    | ok h ht hv => exact .ok (.content hbody (Completion.due_ending _) h) ht hv
    | error h => exact .error (.content hbody rfl h)

end Faithful

/-! ### Parts of runs -/

/-- What is known of the completion of a statement. The clause that a `for` starts with completes
normally. -/
structure Completes (p : Program) (root : Nat) (stmt : Stmt) (c : Completion) : Prop where
  known : Known p root c
  normal : stmt.isClause = true → c = .normal

/-- What is known of the value of an expression. -/
structure Values (p : Program) (root : Nat) (e : Expr) (v : Value) : Prop where
  known : v.Known p root
  literal : ∀ pos text, e = .string pos text → v = .str text

/-- Faithful ways to execute the statements of the program, which let sessions evolve. -/
structure Executes (cx : Context) (p : Program) (root : Nat) (a : Surroundings)
    (execute : Nat → Stmt → Told Completion) : Prop where
  faithful {i : Nat} {stmt : Stmt} : root ≤ i → p.Contains a.inLoop stmt →
    Faithful cx p root a Completion.ending (Completes p root stmt) (execute i stmt)
  evolves : Run.Evolves.Executes cx fun i stmt => (execute i stmt).run

theorem Executes.keepsOpen_sequence {execute : Nat → Stmt → Told Completion}
    (hx : Executes cx p root a execute) (i : Nat) (ss : List Stmt) :
    (Told.sequence (execute i) ss).run.KeepsOpen := by
  rw [run_sequence]
  exact .sequence hx.evolves i ss

/-- Faithful ways to evaluate expressions. -/
def Evaluates (cx : Context) (p : Program) (root : Nat) (a : Surroundings)
    (evaluate : Nat → Expr → Told Value) : Prop :=
  ∀ i e, root ≤ i → Faithful cx p root a (fun _ => .done) (Values p root e) (evaluate i e)

namespace Faithful

variable {execute : Nat → Stmt → Told Completion} {evaluate : Nat → Expr → Told Value}
variable {i : Nat} {v : Value} {vs : List Value}

theorem normal : Faithful cx p root a Completion.ending (Known p root) (Pure.pure .normal) :=
  .pure rfl fun _ h => by cases h

/-- What stands behind a statement is executed if the statement completes normally. -/
theorem next {x : Told Completion} {g : Completion → Told Completion}
    (hx : Faithful cx p root a Completion.ending (Known p root) x)
    (hnormal : Faithful cx p root a Completion.ending (Known p root) (g .normal))
    (hjump : ∀ c, c ≠ .normal → g c = Pure.pure c) :
    Faithful cx p root a Completion.ending (Known p root) (x >>= g) := by
  intro s hs hknows
  refine (hx s hs hknows).bind (fun _ _ h => h) fun c t h ht hc => ?_
  by_cases hcompletes : c = .normal
  · subst hcompletes
    exact (hnormal t (h.inBody_eq.trans hs) ht).after h
  · rw [hjump c hcompletes]
    change Recounted cx p root a _ _ s (x.account s ++ []) (.ok c t)
    rw [List.append_nil]
    exact .ok h ht hc

theorem loop {test : Told Bool} {body : Told Completion} {update : Told Unit} (pos : Position)
    (htest : Faithful cx p root a (fun _ => .done) (fun _ => True) test)
    (hbody : Faithful cx p root a.round Completion.ending (Known p root) body)
    (hupdate : Faithful cx p root a (fun _ => .done) (fun _ => True) update) (rounds : Nat) :
    Faithful cx p root a Completion.ending (Known p root)
      (Told.loop cx pos test body update rounds) := by
  induction rounds with
  | zero => exact .throw not_false
  | succ rounds ih =>
    refine htest.bind fun go _ => ?_
    cases go with
    | false => exact .normal
    | true =>
      refine .bind (.silent (.step cx pos)) fun _ _ => hbody.round.bind fun c hc => ?_
      cases c with
      | normal | continued _ => exact hupdate.bind fun _ _ => ih
      | returned v => exact .pure rfl hc
      | broke _ => exact .normal

section Statements

variable (hx : Executes cx p root a execute) (hi : root ≤ i)
include hx hi

theorem sequence {ss : List Stmt} (hss : ∀ s ∈ ss, p.Contains a.inLoop s) :
    Faithful cx p root a Completion.ending (Known p root) (Told.sequence (execute i) ss) := by
  induction ss with
  | nil => exact .normal
  | cons stmt ss ih =>
    obtain ⟨hstmt, hss⟩ := List.forall_mem_cons.mp hss
    refine ((hx.faithful hi hstmt).mono fun c hc => hc.known).next (ih hss) fun c hc => ?_
    cases c with
    | normal => exact absurd rfl hc
    | returned _ | broke _ | continued _ => rfl

theorem block {b : Block} (hb : p.Contains a.inLoop (.block b)) :
    Faithful cx p root a Completion.ending (Known p root) (Told.block cx a execute i b) := by
  refine .executed hb rfl (fun _ => rfl) ?_
  refine .bind (.silent (.reach cx i _)) fun _ _ => .inScope hi ?_ fun j hj => ?_
  · exact fun j => hx.keepsOpen_sequence j b.body
  · exact sequence hx hj.le fun s hs => hb.block hs

theorem forInit {init : ForInit} (hinit : ∀ s ∈ init.stmts, p.Contains a.inLoop s) :
    Faithful cx p root a (fun _ => .done) (fun _ => True) (Told.forInit (execute i) init) := by
  have hclause : ∀ stmt ∈ init.stmts, stmt.isClause = true →
      Faithful cx p root a (fun _ => .done) (fun _ => True)
        (execute i stmt >>= fun _ => Pure.pure ()) := by
    intro stmt hstmt hclause
    refine .bind (Q := fun _ => True) ((hx.faithful hi (hinit stmt hstmt)).imp fun c hc => ?_)
      fun _ _ => .pure rfl trivial
    obtain rfl := hc.normal hclause
    exact ⟨rfl, trivial⟩
  cases init with
  | none => exact .pure rfl trivial
  | declare _ _ _ _ | expr _ _ => exact hclause _ (List.mem_singleton_self _) rfl

end Statements

theorem callWith {x : Told Value} (pos : Position) (name : String) (arity : Option Nat)
    (count : Nat) (h : Faithful cx p root a (fun _ => .done) (Value.Known p root) x) :
    Faithful cx p root a (fun _ => .done) (Value.Known p root)
      (Told.callWith cx pos name arity count x) := by
  have hcounted : Faithful cx p root a (fun _ => .done) (Value.Known p root) (do
      Run.enterCall cx name pos
      Told.closing x Run.exitCall) :=
    .bind (.silent (.enterCall cx name pos)) fun _ _ s hs hknows => by
      change Recounted cx p root a _ _ s (x.account s) (Run.closing x.run Run.exitCall s)
      rw [Run.closing_exitCall]
      exact (h s hs hknows).leaving _ (fun _ => ⟨rfl, rfl⟩) fun _ ht => ht
  cases arity with
  | none => exact hcounted
  | some expected => exact .ite (.reject_bind rfl) hcounted

section Calls

variable (hx : Executes cx p root a.callee execute)
include hx

theorem invoke {f : Closure} (hf : (Value.closure f).Known p root)
    (hvs : ∀ v ∈ vs, v.Known p root) :
    Faithful cx p root a (fun _ => .done) (Value.Known p root) (Told.invoke cx execute f vs) := by
  obtain ⟨hframe, hbody⟩ := hf
  refine .call (.inScope hframe (fun i => ?_) fun i hi => ?_) (fun c hc hknown => ?_) ?_
  · have hrun : (do
        Run.bindParameters i f.pos f.parameters vs
        Told.sequence (execute i) f.body.body : Told Completion).run = _ :=
      run_bind rfl fun _ => run_sequence (execute i) f.body.body
    rw [hrun]
    exact .call hx.evolves i f vs
  · refine .bind (.silent (.bindParameters i f.pos f.parameters hvs)) fun _ _ => ?_
    exact sequence hx hi.le hbody
  · cases c with
    | normal => exact .silent (.pure trivial)
    | returned v => exact .silent (.pure (hknown v rfl))
    | broke _ | continued _ => cases hc
  · intro c keyword pos hc
    cases c with
    | normal | returned _ => cases hc
    | broke _ | continued _ =>
      cases hc
      rfl

theorem callValue {callee : Value} (pos : Position) (hcallee : callee.Known p root)
    (hvs : ∀ v ∈ vs, v.Known p root) :
    Faithful cx p root a (fun _ => .done) (Value.Known p root)
      (Told.callValue cx execute pos callee vs) := by
  cases callee with
  | closure f => exact callWith pos _ _ _ (invoke hx hcallee hvs)
  | builtin f => exact callWith pos _ _ _ (.silent (.perform pos f.action vs))
  | null | bool _ | number _ | str _ => exact .reject rfl

end Calls

section Expressions

variable (he : Evaluates cx p root a evaluate) (hi : root ≤ i)
include he hi

theorem value (e : Expr) :
    Faithful cx p root a (fun _ => .done) (Value.Known p root) (evaluate i e) :=
  (he i e hi).mono fun _ hv => hv.known

theorem truth (e : Expr) :
    Faithful cx p root a (fun _ => .done) (fun _ => True) (Told.truth (evaluate i) e) :=
  (value he hi e).bind fun _ _ => .pure rfl trivial

theorem orNull (e : Option Expr) :
    Faithful cx p root a (fun _ => .done) (Value.Known p root) (Told.orNull (evaluate i) e) := by
  cases e with
  | none => exact .pure rfl trivial
  | some e => exact value he hi e

theorem evaluateAll (es : List Expr) :
    Faithful cx p root a (fun _ => .done) (fun vs => ∀ v ∈ vs, v.Known p root)
      (Told.evaluateAll (evaluate i) es) := by
  induction es with
  | nil => exact .pure rfl fun _ hv => absurd hv List.not_mem_nil
  | cons e es ih =>
    exact (value he hi e).bind fun v hv => ih.bind fun vs hvs =>
      .pure rfl (List.forall_mem_cons.mpr ⟨hv, hvs⟩)

theorem foldBinary {v : Value} (hv : v.Known p root) (steps : List BinaryStep) :
    Faithful cx p root a (fun _ => .done) (Value.Known p root)
      (Told.foldBinary (evaluate i) v steps) := by
  induction steps generalizing v with
  | nil => exact .pure rfl hv
  | cons step steps ih =>
    refine (value he hi step.right).bind fun r _ => ?_
    exact .bind (.silent (.ofOperation (Operation.plain_binary step.pos step.op v r)
      fun _ h => Operation.known_binary h)) fun w hw => ih hw

theorem foldLogical {v : Value} (hv : v.Known p root) (steps : List LogicalStep) :
    Faithful cx p root a (fun _ => .done) (Value.Known p root)
      (Told.foldLogical (evaluate i) v steps) := by
  induction steps generalizing v with
  | nil => exact .pure rfl hv
  | cons step steps ih => exact .ite (ih hv) ((value he hi step.right).bind fun w hw => ih hw)

theorem declare (pos : Position) (kind : DeclarationKind) (name : String) (init : Option Expr) :
    Faithful cx p root a Completion.ending (· = .normal)
      (Told.declare (evaluate i) i pos kind name init) :=
  (orNull he hi init).bind fun _ hv => .bind (.silent (.define i name _ pos hv)) fun _ _ =>
    .pure rfl rfl

theorem propertyValue (q : Property) (argument : Option Expr) :
    Faithful cx p root a (fun _ => .done) (q.Writes cx argument)
      (Told.propertyValue cx (evaluate i) q argument) := by
  change Faithful cx p root a _ _ (if q = .webPackage then Pure.pure (Data.bool true) else _)
  by_cases hflag : q = .webPackage
  · rw [if_pos hflag]
    exact .pure rfl (.flag hflag)
  · rw [if_neg hflag]
    cases argument with
    | none => exact .pure rfl (.default hflag)
    | some e =>
      refine (value he hi e).bind fun v _ => ?_
      cases htypes : q.accepted? with
      | none => exact .silent (.throw (.fault _))
      | some accepted =>
        dsimp only
        by_cases haccepted : accepted.contains v.typeName = true
        · rw [if_pos haccepted]
          exact .bind (.silent (.ofFault (Q := (v.display = .ok ·)) fun _ h => h))
            fun text htext => .pure rfl (.text ⟨accepted, htypes, haccepted⟩ htext)
        · rw [if_neg haccepted]
          exact .reject rfl

theorem style (reference : Expr) :
    Faithful cx p root a (fun _ => .done) (fun _ => True)
      (Told.style (evaluate i) i reference) := by
  have hshown : Faithful cx p root a (fun _ => .done) (fun _ => True)
      (do let v ← evaluate i reference; Run.ofFault v.display) :=
    (value he hi reference).bind fun v _ => .silent (.ofFault fun _ _ => trivial)
  cases reference with
  | ident pos name =>
    exact .bind (.silent (.isBound i name)) fun _ _ => .ite hshown (.pure rfl trivial)
  | _ => exact hshown

end Expressions

/-- Content is emitted only while the body section is being executed. -/
theorem emit {v : Value} {w : α} (hbody : a.inBody = true) (hw : Q w) :
    Faithful cx p root a (fun _ => .owing v) Q (do Run.emit v; Pure.pure w) := by
  intro s hs hknows
  obtain ⟨id, hid⟩ := Option.isSome_iff_exists.mp (hs.trans hbody)
  have hr : (Told.silent (Run.emit v)).run s =
      .ok () { s with app := s.app.emit id v, trace := s.trace.push (.emitted v) } := by
    change Run.emit v s = _
    rw [Run.emit, hid]
  exact (account_bind_ok hr).symm ▸ (run_bind_ok hr).symm ▸
    .ok (v := w) (.emitted hid) hknows hw

theorem setProperty {q : Property} {argument : Option Expr} {value : Data} {pos : Position}
    (hstmt : p.Contains a.inLoop (.property pos q argument)) (hvalue : q.Writes cx argument value) :
    Faithful cx p root a (fun _ => .done) (fun _ => True)
      (Told.silent (Run.setProperty q value pos)) := by
  intro s _ hknows
  change Recounted cx p root a _ _ s [] (Run.setProperty q value pos s)
  rw [Run.setProperty]
  cases hset : s.app.setProperty q value pos with
  | ok app => exact .ok (v := ()) (.written hstmt hvalue hset) hknows trivial
  | error d => exact .error (.failed (.refl s) (App.plain_of_setProperty hset).not_controlFlow)

theorem expressionStatement (he : Evaluates cx p root a evaluate) (hi : root ≤ i) (e : Expr) :
    Faithful cx p root a (fun _ => e.ending a) (· = .normal)
      (Told.expressionStatement (evaluate i) e) := by
  -- whether a text becomes content depends on the section alone, so the section is split first
  refine (he i e hi).bind fun v hv => .get fun s hs => ?_
  rw [hs]
  cases hbody : a.inBody with
  | false =>
    have hending : e.ending a = .done := by
      cases e <;> simp [Expr.ending, hbody]
    exact .pure hending rfl
  | true =>
    cases e with
    | string pos text =>
      have hending : (Expr.string pos text).ending a = .owing (.str text) := if_pos hbody
      rw [hending, hv.literal pos text rfl]
      exact .emit hbody rfl
    | _ => exact .pure rfl rfl

theorem contentCall (hx : Executes cx p root a.callee execute) (he : Evaluates cx p root a evaluate)
    (hi : root ≤ i) (pos : Position) (arguments : List Expr) :
    Faithful cx p root a .owing (Value.Known p root)
      (Told.contentCall (evaluate i) (Told.callValue cx execute pos) pos arguments) := by
  refine .get fun s hs => ?_
  rw [hs]
  cases hbody : a.inBody with
  | false => exact .reject_bind rfl
  | true =>
    refine .ite (.reject_bind rfl) (.ite (.reject_bind rfl) ?_)
    refine (evaluateAll he hi arguments).bind fun vs hvs => ?_
    -- the value of the call is the content, which is due until the call has its entry
    have hemit : ∀ v : Value, v.Known p root →
        Faithful cx p root a .owing (Value.Known p root) (do Run.emit v; Pure.pure v) := by
      intro v hv
      refine (Faithful.emit (Q := (· = v)) hbody rfl).imp ?_
      rintro _ rfl
      exact ⟨rfl, hv⟩
    have hhead : (vs.headD .null).Known p root := by
      cases vs with
      | nil => trivial
      | cons v vs => exact hvs v List.mem_cons_self
    have htail : ∀ v ∈ vs.tail, v.Known p root := fun v hv => hvs v (List.mem_of_mem_tail hv)
    have hcall := (callValue hx pos hhead htail).bind hemit
    dsimp only
    generalize vs.headD .null = v at hhead hcall ⊢
    cases v with
    | closure _ | builtin _ => exact hcall
    | null | bool _ | number _ | str _ =>
      exact .ite (.bind (.pure rfl hhead) hemit) (.reject_bind rfl)

theorem otherwise (hx : Executes cx p root a execute) (he : Evaluates cx p root a evaluate)
    (hi : root ≤ i) {rest : Else} (hrest : ∀ s ∈ rest.stmts, p.Contains a.inLoop s) :
    Faithful cx p root a Completion.ending (Known p root)
      (Told.otherwise cx a i (Told.truth (evaluate i)) (Told.block cx a execute i) rest) := by
  cases rest with
  | none => exact .normal
  | block b => exact block hx hi (hrest _ (List.mem_singleton_self _))
  | elseIf pos test b rest =>
    have hif := hrest _ (List.mem_singleton_self _)
    refine .executed hif rfl (fun _ => rfl) ?_
    refine .bind (.silent (.reach cx i _)) fun _ _ => (truth he hi test).bind fun _ _ => ?_
    exact .ite (block hx hi hif.consequent) (otherwise hx he hi fun s hs => hif.alternate hs)

/-- The entry of an expression, after the node has been come to. -/
theorem evaluated {e : Expr} {x : Told Value} {ending : Value → Ending}
    (hx : Faithful cx p root a ending (Values p root e) x)
    (hemission : ∀ v t, (Entry.mk (.evaluated e v) a t).emission = (ending v).due)
    (hdone : ∀ v, (ending v).told = .done) :
    Faithful cx p root a (fun _ => .done) (Values p root e)
      (Told.telling a (.evaluated e) (do Run.visit cx i (.expr e); x)) := by
  have hvisited : Faithful cx p root a ending (Values p root e)
      (do Run.visit cx i (.expr e); x) := .bind (.silent (.visit cx i _)) fun _ _ => hx
  have htelling := hvisited.telling (.evaluated e) (fun v t _ => hemission v t)
    (fun _ => rfl) fun _ _ h => by cases h
  simpa only [hdone] using htelling

/-- The entry of an expression that is neither a text nor a content call. -/
theorem computed {e : Expr} {x : Told Value} (hstring : e.isStringLiteral = false)
    (hemission : ∀ v t, (Entry.mk (.evaluated e v) a t).emission = [])
    (hx : Faithful cx p root a (fun _ => .done) (Value.Known p root) x) :
    Faithful cx p root a (fun _ => .done) (Values p root e)
      (Told.telling a (.evaluated e) (do Run.visit cx i (.expr e); x)) :=
  .evaluated (hx.mono fun _ hv => ⟨hv, fun _ _ h => by rw [h] at hstring; cases hstring⟩) hemission
    fun _ => rfl

end Faithful

/-! ### The recursion -/

/-- What is executed does not depend on its surroundings. -/
theorem run_execute_around (cx : Context) (allowance : Nat) (a b : Surroundings) :
    (fun i s => (execute cx allowance a i s).run) =
      fun i s => (execute cx allowance b i s).run := by
  funext i s
  rw [(run_execute_evaluate cx allowance).1, (run_execute_evaluate cx allowance).1]

theorem evolves_execute (cx : Context) (allowance : Nat) (a : Surroundings) :
    Run.Evolves.Executes cx fun i s => (execute cx allowance a i s).run := by
  intro b i s
  dsimp only
  rw [(run_execute_evaluate cx allowance).1]
  exact (Run.Evolves.execute_evaluate cx allowance).1 b i s

theorem evolves_evaluate (cx : Context) (allowance : Nat) (a : Surroundings) :
    Run.Evolves.Evaluates cx fun i e => (evaluate cx allowance a i e).run := by
  intro b i e
  dsimp only
  rw [(run_execute_evaluate cx allowance).2]
  exact (Run.Evolves.execute_evaluate cx allowance).2 b i e

section Recursion

variable {allowance : Nat} (hx : ∀ a, Executes cx p root a (execute cx allowance a))
variable (he : ∀ a, Evaluates cx p root a (evaluate cx allowance a))
include hx he

theorem evaluates_succ (a : Surroundings) :
    Evaluates cx p root a (evaluate cx (allowance + 1) a) := by
  intro i e hi
  rw [evaluate.eq_def]
  have hvalue := Faithful.value (he a) hi
  cases e with
  | ident pos name =>
    exact .computed rfl (fun _ _ => rfl) (.silent (.lookup name pos hi))
  | string pos text =>
    have hliteral : Faithful cx p root a (fun _ => .done) (Values p root (.string pos text))
        (Pure.pure (.str text)) := .pure rfl ⟨trivial, fun _ _ h => by cases h; rfl⟩
    exact .evaluated hliteral (fun _ _ => rfl) fun _ => rfl
  | number _ _ _ | bool _ _ | null _ =>
    exact .computed rfl (fun _ _ => rfl) (.pure rfl trivial)
  | binary pos op l r =>
    refine .computed rfl (fun _ _ => rfl) ?_
    exact (hvalue _).bind fun v hv => .foldBinary (he a) hi hv _
  | logical pos op l r =>
    refine .computed rfl (fun _ _ => rfl) ?_
    exact (hvalue _).bind fun v hv => .foldLogical (he a) hi hv _
  | unary pos op e =>
    refine .computed rfl (fun _ _ => rfl) ((hvalue e).bind fun v _ => ?_)
    exact .silent (.ofOperation (Operation.plain_unary pos op v) fun _ h => Operation.known_unary h)
  | assign pos target e =>
    refine .computed rfl (fun _ _ => rfl) ((hvalue e).bind fun v hv => ?_)
    exact .bind (.silent (.assign i target pos hv)) fun _ _ => .pure rfl hv
  | call pos callee arguments =>
    refine .computed rfl (fun _ _ => rfl) ((hvalue callee).bind fun f hf => ?_)
    exact (Faithful.evaluateAll (he a) hi arguments).bind fun vs hvs =>
      .callValue (hx a.callee) pos hf hvs
  | content pos arguments =>
    have hcall := Faithful.contentCall (hx a.callee) (he a) hi pos arguments
    refine .evaluated (hcall.mono fun v hv => ⟨hv, fun _ _ h => ?_⟩) (fun _ _ => rfl) fun _ => rfl
    cases h

theorem execute_succ_faithful (a : Surroundings) {i : Nat} {stmt : Stmt} (hi : root ≤ i)
    (hstmt : p.Contains a.inLoop stmt) :
    Faithful cx p root a Completion.ending (Completes p root stmt)
      (execute cx (allowance + 1) a i stmt) := by
  have hreach : ∀ {α : Type} {ending : α → Ending} {Q : α → Prop} {x : Told α},
      Faithful cx p root a ending Q x →
      Faithful cx p root a ending Q (do Run.reach cx i stmt; x) :=
    fun h => .bind (.silent (.reach cx i stmt)) fun _ _ => h
  -- only clauses owe it to their `for` that they complete normally
  have hfree : stmt.isClause = false → ∀ c, Known p root c → Completes p root stmt c :=
    fun hclause c hc => ⟨hc, fun h => by rw [hclause] at h; cases h⟩
  have hnormal : ∀ c : Completion, c = .normal → Completes p root stmt c := by
    rintro _ rfl
    exact ⟨(fun _ h => by cases h), fun _ => rfl⟩
  cases stmt with
  | block b => exact (Faithful.block (hx a) hi hstmt).mono (hfree rfl)
  | declare pos kind name init =>
    refine .executed hstmt rfl (fun _ => rfl) (hreach ?_)
    exact (Faithful.declare (he a) hi pos kind name init).mono hnormal
  | func pos name parameters b =>
    refine .executed hstmt rfl (fun _ => rfl) (hreach ?_)
    refine (Faithful.silent (.declareFunction hi fun s hs => hstmt.func hs)).imp ?_
    rintro _ rfl
    exact ⟨rfl, hnormal _ rfl⟩
  | property pos q argument =>
    refine .executed hstmt rfl (fun _ => rfl) (hreach ?_)
    refine (Faithful.propertyValue (he a) hi q argument).bind fun value hvalue => ?_
    exact (Faithful.setProperty hstmt hvalue).bind fun _ _ => .pure rfl (hnormal _ rfl)
  | body pos reference ss =>
    refine .executed hstmt rfl (fun _ => rfl) (hreach ?_)
    refine (Faithful.style (he a) hi reference).bind fun text _ => ?_
    refine (Faithful.content hi (fun j => ?_) fun j hj => ?_).mono (hfree rfl)
    · exact (hx a.content).keepsOpen_sequence j ss
    · exact .sequence (hx a.content) hj.le fun s hs => hstmt.content hs
  | ifElse pos test b rest =>
    refine (Faithful.otherwise (hx a) (he a) hi fun s hs => ?_).mono (hfree rfl)
    obtain rfl := List.mem_singleton.mp hs
    exact hstmt
  | «while» pos test b =>
    refine .executed hstmt rfl (fun _ => rfl) (hreach ?_)
    refine (Faithful.loop pos (.truth (he a) hi test) ?_ (.pure rfl trivial) _).mono (hfree rfl)
    exact .block (hx a.round) hi hstmt.while
  | «for» pos init test update b =>
    refine .executed hstmt rfl (fun _ => rfl) ?_
    refine hreach (.mono (.inScope hi (fun j => ?_) fun j hj => ?_) (hfree rfl))
    · rw [run_clauses rfl (run_execute_around cx allowance a.round a) rfl]
      exact .clauses (evolves_execute cx allowance a) j (evolves_evaluate cx allowance a) pos init
        test update b
    refine (Faithful.forInit (hx a) hj.le fun s hs => hstmt.clause hs).bind fun _ _ => ?_
    refine .loop pos ?_ (.block (hx a.round) hj.le hstmt.for) ?_ _
    · cases test with
      | none => exact .pure rfl trivial
      | some test => exact .truth (he a) hj.le test
    · cases update with
      | none => exact .pure rfl trivial
      | some update => exact (Faithful.value (he a) hj.le update).bind fun _ _ => .pure rfl trivial
  | «return» pos value =>
    refine .executed hstmt rfl (fun _ => rfl) (hreach ?_)
    refine (Faithful.orNull (he a) hi value).bind fun v hv => .pure rfl (hfree rfl _ ?_)
    rintro _ h
    cases h
    exact hv
  | «break» pos | «continue» pos =>
    exact .jumped hstmt rfl rfl (hfree rfl _ fun _ h => by cases h) (.reach cx i _)
  | expr pos e =>
    have hstatement : Faithful cx p root a (fun _ => e.ending a) (· = .normal) (do
        Run.reach cx i (.expr pos e)
        Told.expressionStatement (evaluate cx allowance a i) e) :=
      hreach (.expressionStatement (he a) hi e)
    have htelling := hstatement.telling (fun _ => .executed (.expr pos e))
      (fun _ t _ => e.due_ending a pos t) (fun _ => rfl) fun _ _ h => Option.some.inj h ▸ hstmt
    refine htelling.imp ?_
    rintro _ rfl
    exact ⟨e.told_ending a, hnormal _ rfl⟩

end Recursion

/-- Executing the statements of the program and evaluating expressions are faithful, whatever the
allowance. -/
theorem execute_evaluate_faithful (cx : Context) (p : Program) (root allowance : Nat) :
    (∀ a, Executes cx p root a (execute cx allowance a)) ∧
      ∀ a, Evaluates cx p root a (evaluate cx allowance a) := by
  -- statements contain expressions and calls execute statements, so both go together
  induction allowance with
  | zero =>
    refine ⟨fun a => ⟨fun {i stmt} _ _ => ?_, evolves_execute cx 0 a⟩, fun a i e _ => ?_⟩
    · rw [execute]
      exact .throw not_false
    · rw [evaluate.eq_def]
      exact .throw not_false
  | succ allowance ih =>
    refine ⟨fun a => ⟨?_, evolves_execute cx (allowance + 1) a⟩, evaluates_succ ih.1 ih.2⟩
    exact execute_succ_faithful ih.1 ih.2 a

theorem faithful_program (cx : Context) (p : Program) {root i : Nat} (allowance : Nat)
    (hi : root ≤ i) :
    Faithful cx p root {} (fun _ => .done) (fun _ => True) (program cx allowance p i) := by
  have hx := (execute_evaluate_faithful cx p root allowance).1 {}
  refine .bind (.silent (.visit cx i _)) fun _ _ => .bind (.silent (.step cx p.pos)) fun _ _ => ?_
  refine .call (.sequence hx hi fun s hs => .own hs) (fun c hc _ => ?_) fun c keyword pos hc => ?_
  · cases c with
    | normal | returned _ => exact .pure rfl trivial
    | broke _ | continued _ => cases hc
  · cases c with
    | normal | returned _ => cases hc
    | broke _ | continued _ =>
      cases hc
      rfl

theorem account_silent_bind {α β : Type} {y : Run α} {g : α → Told β} {v : α} {s t : Session}
    (h : y s = .ok v t) : (silent y >>= g).account s = (g v).account t :=
  (account_bind_ok h).trans (List.nil_append _)

end Told

/-- The account of a run is that of its program in the scopes that are opened for it. -/
theorem Session.account_eq (cx : Context) (allowance : Nat) (p : Program) (s : Session) :
    s.account cx allowance p = (Told.program cx allowance p (s.arena.size + 1)).account
      (opened { s with trace := #[], visits := #[] }) := by
  obtain ⟨t, hprint, -, hlen⟩ :=
    Run.install_builtins { s with trace := #[], visits := #[] }
  exact (Told.account_silent_bind rfl).trans <| (Told.account_silent_bind hprint).trans <|
    (Told.account_silent_bind hlen).trans (Told.account_silent_bind (Run.openScope_builtins _))

/-- After a run the session has changed as the account of the run tells, and a failure of the run is
the one that its account ends with. -/
theorem Session.run_recounts (cx : Context) (allowance : Nat) (path : String) (p : Program)
    {s : Session} (hs : s.inBody = false) :
    ∃ f : Option RunFailure, (opened { s with trace := #[], visits := #[] }).Recounts cx p {}
        (s.account cx allowance p) (f.elim .done .failed) (Session.run cx allowance path p s).2 ∧
      (Session.run cx allowance path p s).1 = f.map (·.inFile path) := by
  have hfaithful := Told.faithful_program cx p allowance (Nat.le_succ s.arena.size)
  have hresult := hfaithful (opened { s with trace := #[], visits := #[] }) hs (knows_opened p _)
  rw [Told.run_program] at hresult
  rw [account_eq, Session.run, Run.start_eq]
  dsimp only
  generalize Run.program cx allowance p _ _ = r at hresult
  cases hresult with
  | ok h _ _ => exact ⟨none, h, rfl⟩
  | error h => exact ⟨some _, h, rfl⟩

end MiniApp
