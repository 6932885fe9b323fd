import MiniApp.Proofs.Eval.Limits

/-!
# Nesting

A run that is nested too deeply is given up; one that is not has nothing to do with the allowance it
was given. So with a larger allowance an action *deepens*: unless it was given up with the smaller
one, it does the same and leaves the same session.

## Main definitions

* `Run.TooDeep`: results of actions that were nested too deeply
* `Run.Deepens`: actions that do the same unless the first one is nested too deeply
* `Nesting.congruence`: the relation of runs with a smaller and with a larger allowance

## Main results

* `Run.evaluate_deepens`, `Run.execute_deepens`: a larger allowance changes nothing else
-/

namespace MiniApp

variable {α β : Type}

/-- A result of an action that was nested too deeply. -/
def Run.TooDeep (r : EStateM.Result RunFailure Session α) : Prop :=
  ∃ t, r = .error .nestedTooDeeply t

/-- The second action does the same as the first one, unless that is nested too deeply. -/
def Run.Deepens (x y : Run α) : Prop := ∀ s, Run.TooDeep (x s) ∨ y s = x s

namespace Run.Deepens

variable {x y : Run α} {f g : α → Run β}

theorem refl (x : Run α) : x.Deepens x := fun _ => .inr rfl

theorem bind (h : x.Deepens y) (hfg : ∀ a, (f a).Deepens (g a)) :
    (x >>= f).Deepens (y >>= g) := by
  intro s
  rw [Run.bind_apply, Run.bind_apply]
  rcases h s with ⟨t, ht⟩ | heq
  · exact .inl ⟨t, by rw [ht]⟩
  · rw [heq]
    cases x s with
    | ok a t => exact hfg a t
    | error e t => exact .inr rfl

end Run.Deepens

namespace Nesting

/-- What the results with a smaller and with a larger allowance have in common, begun in one
session. -/
structure LeadsTo (s : Session) (r r' : EStateM.Result RunFailure Session α) : Prop where
  inBody : (Run.sessionAfter r).inBody = s.inBody
  same : Run.TooDeep r ∨ r' = r

/-- Actions with a smaller and a larger allowance, begun in the same session in a given mode. -/
def Rel (b : Bool) (x y : Run α) : Prop := ∀ s : Session, s.inBody = b → LeadsTo s (x s) (y s)

variable {b : Bool} {x y : Run α}

namespace Rel

theorem same (h : ∀ s : Session, (Run.sessionAfter (x s)).inBody = s.inBody) : Rel b x x :=
  fun s _ => ⟨h s, .inr rfl⟩

theorem calm (h : x.Calm) : Rel b x x := by
  refine same fun s => ?_
  have hs := h s
  cases hr : x s with
  | ok a t | error e t =>
    rw [hr] at hs
    cases hs
    exact Session.Keeps.inBody_eq ‹_›

theorem tooDeep (y : Run α) : Rel b (throw .nestedTooDeeply) y := fun s _ => ⟨rfl, .inl ⟨s, rfl⟩⟩

theorem bind {f g : α → Run β} (h : Rel b x y) (hfg : ∀ a, Rel b (f a) (g a)) :
    Rel b (x >>= f) (y >>= g) := by
  intro s hb
  have hs := h s hb
  rw [Run.bind_apply, Run.bind_apply]
  generalize x s = r, y s = r' at hs
  obtain ⟨hinBody, ⟨t, rfl⟩ | rfl⟩ := hs
  · exact ⟨hinBody, .inl ⟨t, rfl⟩⟩
  · cases r' with
    | error e t => exact ⟨hinBody, .inr rfl⟩
    | ok a t =>
      have ht := hfg a t (hinBody.trans hb)
      exact ⟨ht.inBody.trans hinBody, ht.same⟩

theorem get {f g : Session → Run α} (h : ∀ s : Session, s.inBody = b → Rel b (f s) (g s)) :
    Rel b (MonadState.get >>= f) (MonadState.get >>= g) :=
  fun s hb => h s hb s hb

theorem leaving_from {change : Session → Session} {s t : Session} (h : LeadsTo t (x t) (y t))
    (hchange : ∀ u : Session, u.inBody = t.inBody → (change u).inBody = s.inBody) :
    LeadsTo s (Run.leaving x change t) (Run.leaving y change t) := by
  rw [Run.leaving, Run.leaving]
  generalize x t = r, y t = r' at h
  obtain ⟨hinBody, ⟨u, rfl⟩ | rfl⟩ := h
  · exact ⟨hchange u hinBody, .inl ⟨change u, rfl⟩⟩
  · cases r' with
    | ok a u | error e u => exact ⟨hchange u hinBody, .inr rfl⟩

theorem leaving {change : Session → Session} (hchange : ∀ s, (change s).inBody = s.inBody)
    (h : Rel b x y) : Rel b (Run.leaving x change) (Run.leaving y change) :=
  fun s hb => leaving_from (h s hb) fun u hu => (hchange u).trans hu

theorem inBody (id : Nat) (h : Rel true x y) : Rel b (Run.inBody id x) (Run.inBody id y) := by
  intro s _
  rw [Run.inBody_apply, Run.inBody_apply]
  exact leaving_from (h { s with active := some id } rfl) fun _ _ => rfl

theorem inBody_ofDiagnostic (x : Except Diagnostic α) (s : Session) :
    (Run.sessionAfter (Run.ofDiagnostic x s)).inBody = s.inBody := by
  cases x <;> rfl

theorem step (cx : Context) (pos : Position) : Rel b (Run.step cx pos) (Run.step cx pos) :=
  same fun s => inBody_ofDiagnostic _ { s with meter := s.meter.step }

theorem enterCall (cx : Context) (name : String) (pos : Position) :
    Rel b (Run.enterCall cx name pos) (Run.enterCall cx name pos) :=
  same fun s => inBody_ofDiagnostic _ { s with meter := s.meter.enter name }

theorem setProperty (p : Property) (value : Data) (pos : Position) :
    Rel b (Run.setProperty p value pos) (Run.setProperty p value pos) := by
  refine same fun s => ?_
  rw [Run.setProperty]
  cases s.app.setProperty p value pos <;> rfl

theorem openBody (style : String) (pos : Position) :
    Rel b (Run.openBody style pos) (Run.openBody style pos) := by
  refine same fun s => ?_
  rw [Run.openBody]
  cases s.app.openBody style pos <;> rfl

theorem emit (v : Value) : Rel b (Run.emit v) (Run.emit v) := by
  refine same fun s => ?_
  rw [Run.emit]
  split <;> rfl

theorem loop {cx : Context} {test test' : Run Bool} {body body' : Run Completion}
    {update update' : Run Unit} (pos : Position) (htest : Rel b test test')
    (hbody : Rel b body body') (hupdate : Rel b update update') (rounds : Nat) :
    Rel b (Run.loop cx pos test body update rounds)
      (Run.loop cx pos test' body' update' rounds) := by
  induction rounds with
  | zero => exact same fun _ => rfl
  | succ rounds ih =>
    refine htest.bind fun go => ?_
    cases go with
    | false => exact .calm (.pure _)
    | true =>
      refine (step cx pos).bind fun _ => hbody.bind fun c => ?_
      cases c with
      | normal | continued _ => exact hupdate.bind fun _ => ih
      | returned _ | broke _ => exact .calm (.pure _)

end Rel

/-- The relation of runs with a smaller and with a larger allowance is respected by all that runs
are put together from. -/
def congruence (cx : Context) : Congruence where
  left := cx
  right := cx
  Rel b := Rel b
  contexts := .refl cx
  calm := .calm
  bind := .bind
  get := .get
  leaving hchange := .leaving fun s => (hchange s).inBody_eq
  step := .step cx
  call name pos h := (Rel.enterCall cx name pos).bind fun _ => by
    rw [Run.closing_exitCall, Run.closing_exitCall]
    exact .leaving (fun _ => rfl) h
  printed _ _ := .same fun _ => rfl
  setProperty := .setProperty
  emit := .emit
  content style pos _ h := (Rel.openBody style pos).bind fun id =>
    .bind (.calm (.openScope _)) fun i => .leaving (fun _ => rfl) (.inBody id (h i))
  loop pos htest hbody hupdate := .loop pos htest hbody hupdate _

theorem execute_evaluate (cx : Context) {m n : Nat} (h : m ≤ n) :
    (congruence cx).Executes (Run.execute cx m) (Run.execute cx n) ∧
      (congruence cx).Evaluates (Run.evaluate cx m) (Run.evaluate cx n) := by
  induction m generalizing n with
  | zero =>
    -- where the smaller allowance is used up, nothing is asked of the larger one
    refine ⟨Congruence.executes fun _ _ _ => ?_, Congruence.evaluates fun _ _ _ => ?_⟩
    · rw [Run.execute]
      exact Rel.tooDeep _
    · rw [Run.evaluate.eq_def]
      exact Rel.tooDeep _
  | succ m ih =>
    obtain ⟨k, rfl⟩ := Nat.exists_eq_add_of_lt h
    obtain ⟨hx, he⟩ := ih (Nat.le_add_right m k)
    exact ⟨Congruence.executes_succ (C := congruence cx) hx he,
      Congruence.evaluates_succ (C := congruence cx) hx he⟩

end Nesting

namespace Run

variable (cx : Context) {m n : Nat} (h : m ≤ n) (scope : Nat)
include h

/-- A larger allowance changes the execution of no statement that was not nested too deeply. -/
theorem execute_deepens (s : Stmt) : (execute cx m scope s).Deepens (execute cx n scope s) :=
  fun t => ((Nesting.execute_evaluate cx h).1.rel t.inBody scope s t rfl).same

/-- A larger allowance changes the evaluation of no expression that was not nested too deeply. -/
theorem evaluate_deepens (e : Expr) : (evaluate cx m scope e).Deepens (evaluate cx n scope e) :=
  fun t => ((Nesting.execute_evaluate cx h).2.rel t.inBody scope e t rfl).same

end Run

end MiniApp
