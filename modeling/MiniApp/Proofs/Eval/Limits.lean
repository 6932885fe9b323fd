import Mathlib
import MiniApp.Proofs.Eval.Congruence
import MiniApp.Proofs.Eval.Growth

/-!
# Limits only cut runs short

Two runs of one program differ in their limits only, and the limits of one of them, the *strict* one,
are at most those of the other, the *loose* one. As long as no limit of the strict run is hit, both
do the same. When one is hit, the strict run ends and the loose run goes on, and whatever it does then
is added to what the strict run has left behind.

## Main definitions

* `Limits.LeadsTo`: what the results of the strict and of the loose run have in common
* `Limits.congruence`: the relation of strict and loose runs

## Main results

* `Session.run_limits`: limits only cut runs short
-/

namespace MiniApp

namespace Limits

/-- The limits of the strict context are at most those of the loose one, and everything else is the
same. -/
structure AtMost (strict loose : Context) : Prop where
  depth : strict.settings.maxCallDepth ≤ loose.settings.maxCallDepth
  steps : ∀ n' ∈ loose.settings.maxSteps, ∃ n ∈ strict.settings.maxSteps, n ≤ n'
  rest : strict = { loose with
    settings := { loose.settings with
      maxCallDepth := strict.settings.maxCallDepth, maxSteps := strict.settings.maxSteps } }

theorem AtMost.compatible {strict loose : Context} (h : AtMost strict loose) :
    strict.Compatible loose where
  recording := by rw [h.rest]
  reclamation := by rw [h.rest]
  defaultWebVersion := by rw [h.rest]

variable {α β : Type}

/-- What the results of the strict and of the loose run have in common, begun in one session: the
loose run has only added to that session, and the results are equal unless the strict run has hit a
limit; then the loose run has only added to what the strict run has left behind. -/
structure LeadsTo (s : Session) (r r' : EStateM.Result RunFailure Session α) : Prop where
  grows : s.Extends (Run.sessionAfter r')
  sound : (Run.sessionAfter r').app.Sound
  inBody : (Run.sessionAfter r').inBody = s.inBody
  cut : r = r' ∨ ∃ e t, r = .error e t ∧ e.IsLimit ∧ t.Extends (Run.sessionAfter r')

/-- Actions of the strict and of the loose run, begun in the same session in a given mode. -/
def Rel (b : Bool) (x y : Run α) : Prop :=
  ∀ s : Session, s.inBody = b → s.app.Sound → LeadsTo s (x s) (y s)

variable {b : Bool} {x y : Run α} {s : Session}

namespace Rel

/-- An action that is the same in both runs only has to let sessions grow. -/
theorem same (h : ∀ s : Session, s.app.Sound → s.Extends (Run.sessionAfter (x s)) ∧
    (Run.sessionAfter (x s)).app.Sound ∧ (Run.sessionAfter (x s)).inBody = s.inBody) :
    Rel b x x := by
  intro s _ hsound
  obtain ⟨hgrows, hsound', hinBody⟩ := h s hsound
  exact ⟨hgrows, hsound', hinBody, .inl rfl⟩

theorem calm (h : x.Calm) : Rel b x x := by
  refine same fun s hsound => ?_
  have hs := h s
  generalize x s = r at hs
  have hkeeps : s.Keeps (Run.sessionAfter r) := by cases hs <;> assumption
  exact ⟨hkeeps.extends, hkeeps.app ▸ hsound, hkeeps.inBody_eq⟩

theorem throw (e : RunFailure) : Rel b (MonadExcept.throw e : Run α) (MonadExcept.throw e) :=
  same fun s hsound => ⟨.refl s, hsound, rfl⟩

theorem bind {f g : α → Run β} (h : Rel b x y) (hfg : ∀ a, Rel b (f a) (g a)) :
    Rel b (x >>= f) (y >>= g) := by
  intro s hb hsound
  have hs := h s hb hsound
  rw [Run.bind_apply, Run.bind_apply]
  generalize x s = r, y s = r' at hs
  obtain ⟨hgrows, hsound', hinBody, hcut⟩ := hs
  cases r' with
  | error e t =>
    -- a failure of the loose run is one of the strict run too
    refine ⟨hgrows, hsound', hinBody, ?_⟩
    rcases hcut with rfl | ⟨e', t', rfl, hlimit, hextends⟩
    · exact .inl rfl
    · exact .inr ⟨e', t', rfl, hlimit, hextends⟩
  | ok a t =>
    have ht := hfg a t (hinBody.trans hb) hsound'
    refine ⟨hgrows.trans ht.grows, ht.sound, ht.inBody.trans hinBody, ?_⟩
    rcases hcut with rfl | ⟨e', t', rfl, hlimit, hextends⟩
    · exact ht.cut
    · exact .inr ⟨e', t', rfl, hlimit, hextends.trans ht.grows⟩

theorem get {f g : Session → Run α} (h : ∀ s : Session, s.inBody = b → Rel b (f s) (g s)) :
    Rel b (MonadState.get >>= f) (MonadState.get >>= g) :=
  fun s hb hsound => h s hb s hb hsound

/-- What is changed in the end adds nothing and takes nothing away. It may be the mark of the body
section that is put back. -/
theorem leaving_from {change : Session → Session} {s t : Session} (h : LeadsTo t (x t) (y t))
    (hst : s.Extends t) (happ : ∀ u, (change u).app = u.app)
    (htrace : ∀ u, (change u).trace = u.trace)
    (hinBody : ∀ u : Session, u.inBody = t.inBody → (change u).inBody = s.inBody) :
    LeadsTo s (Run.leaving x change t) (Run.leaving y change t) := by
  -- the change touches neither the application nor the trace, on whichever side it stands
  have hextends : ∀ u v : Session, u.Extends v → u.Extends (change v) := fun u v huv =>
    ⟨(happ v).symm ▸ huv.app, (htrace v).symm ▸ huv.trace⟩
  have hextends' : ∀ u v : Session, u.Extends v → (change u).Extends v := fun u v huv =>
    ⟨(happ u).symm ▸ huv.app, (htrace u).symm ▸ huv.trace⟩
  refine ⟨?_, ?_, ?_, ?_⟩
  · rw [Run.sessionAfter_leaving]
    exact hextends _ _ (hst.trans h.grows)
  · rw [Run.sessionAfter_leaving, happ]
    exact h.sound
  · rw [Run.sessionAfter_leaving]
    exact hinBody _ h.inBody
  · rw [Run.sessionAfter_leaving]
    rcases h.cut with heq | ⟨e, u, hx, hlimit, hgrows⟩
    · exact .inl (by rw [Run.leaving, Run.leaving, heq])
    · refine .inr ⟨e, change u, by rw [Run.leaving, hx], hlimit, ?_⟩
      exact hextends _ _ (hextends' _ _ hgrows)

theorem leaving {change : Session → Session} (happ : ∀ s, (change s).app = s.app)
    (htrace : ∀ s, (change s).trace = s.trace) (hinBody : ∀ s, (change s).inBody = s.inBody)
    (h : Rel b x y) : Rel b (Run.leaving x change) (Run.leaving y change) :=
  fun s hb hsound => leaving_from (h s hb hsound) (.refl s) happ htrace
    fun u hu => (hinBody u).trans hu

theorem inBody (id : Nat) (h : Rel true x y) : Rel b (Run.inBody id x) (Run.inBody id y) := by
  intro s _ hsound
  rw [Run.inBody_apply, Run.inBody_apply]
  exact leaving_from (h { s with active := some id } rfl hsound) ⟨.refl _, List.prefix_rfl⟩
    (fun _ => rfl) (fun _ => rfl) fun _ _ => rfl

/-- Counting and checking: what the loose limit refuses, the strict one refuses too. -/
theorem meter (count : Meter → Meter) (check check' : Meter → Except Diagnostic Unit)
    (h : ∀ m, check m = check' m ∨ ∃ d, check m = .error d ∧ RunFailure.IsLimit (.rejected d)) :
    Rel b
      (do
        modify fun s => { s with meter := count s.meter }
        Run.ofDiagnostic (check (← MonadState.get).meter))
      (do
        modify fun s => { s with meter := count s.meter }
        Run.ofDiagnostic (check' (← MonadState.get).meter)) := by
  intro s _ hsound
  change LeadsTo s (Run.ofDiagnostic (check (count s.meter)) { s with meter := count s.meter })
    (Run.ofDiagnostic (check' (count s.meter)) { s with meter := count s.meter })
  -- whether a check passes or not, it leaves the session as it is
  have hafter : Run.sessionAfter (Run.ofDiagnostic (check' (count s.meter))
      { s with meter := count s.meter }) = { s with meter := count s.meter } := by
    cases check' (count s.meter) <;> rfl
  refine ⟨?_, ?_, ?_, ?_⟩
  · rw [hafter]
    exact ⟨.refl _, List.prefix_rfl⟩
  · rw [hafter]
    exact hsound
  · rw [hafter]
    rfl
  · rcases h (count s.meter) with heq | ⟨d, hd, hlimit⟩
    · exact .inl (by rw [heq])
    · rw [hafter, hd]
      exact .inr ⟨_, _, rfl, hlimit, .refl _⟩

theorem printed (pos : Position) (text : String) :
    Rel b (Run.note (.printed pos text)) (Run.note (.printed pos text)) := by
  refine same fun s hsound => ⟨⟨.refl _, ?_⟩, hsound, rfl⟩
  have hpush : s.trace.toList <+: (s.trace.push (.printed pos text)).toList := by simp
  exact hpush

theorem setProperty (p : Property) (value : Data) (pos : Position) :
    Rel b (Run.setProperty p value pos) (Run.setProperty p value pos) := by
  refine same fun s hsound => ?_
  rw [Run.setProperty]
  cases h : s.app.setProperty p value pos with
  | error d => exact ⟨.refl s, hsound, rfl⟩
  | ok a =>
    exact ⟨⟨App.extends_setProperty h, by simp [Run.sessionAfter]⟩, hsound.setProperty h, rfl⟩

theorem openBody (style : String) (pos : Position) :
    Rel b (Run.openBody style pos) (Run.openBody style pos) := by
  refine same fun s hsound => ?_
  rw [Run.openBody]
  cases h : s.app.openBody style pos with
  | error d => exact ⟨.refl s, hsound, rfl⟩
  | ok a => exact ⟨⟨App.extends_openBody hsound h, List.prefix_rfl⟩, App.sound_openBody h, rfl⟩

theorem emit (v : Value) : Rel b (Run.emit v) (Run.emit v) := by
  refine same fun s hsound => ?_
  rw [Run.emit]
  split
  · next id _ =>
    exact ⟨⟨App.extends_emit _ id v, by simp [Run.sessionAfter]⟩, hsound.emit id v, rfl⟩
  · exact ⟨.refl s, hsound, rfl⟩

end Rel

/-! ## Strict and loose runs -/

namespace AtMost

variable {strict loose : Context} (h : AtMost strict loose)
include h

theorem step (pos : Position) : Rel b (Run.step strict pos) (Run.step loose pos) := by
  refine .meter Meter.step (·.checkSteps strict.settings.toLimits pos)
    (·.checkSteps loose.settings.toLimits pos) fun m => ?_
  rw [Meter.checkSteps, Meter.checkSteps]
  have hsteps := h.steps
  generalize strict.settings.maxSteps = n, loose.settings.maxSteps = n' at hsteps ⊢
  cases n with
  | none =>
    -- a loose limit would come with a strict one
    cases n' with
    | none => exact .inl rfl
    | some n' => simpa using hsteps n' rfl
  | some n =>
    by_cases hstrict : n < m.steps
    · exact .inr ⟨_, if_pos hstrict, .inr rfl⟩
    · cases n' with
      | none => exact .inl (if_neg hstrict)
      | some n' =>
        obtain ⟨k, hk, hle⟩ := hsteps n' rfl
        obtain rfl := Option.some.inj hk
        exact .inl ((if_neg hstrict).trans (if_neg (by omega)).symm)

theorem enterCall (name : String) (pos : Position) :
    Rel b (Run.enterCall strict name pos) (Run.enterCall loose name pos) := by
  refine .meter (·.enter name) (·.checkDepth strict.settings.toLimits pos)
    (·.checkDepth loose.settings.toLimits pos) fun m => ?_
  have hdepth := h.depth
  rw [Meter.checkDepth, Meter.checkDepth]
  by_cases hstrict : strict.settings.maxCallDepth < m.depth
  · exact .inr ⟨_, if_pos hstrict, .inl rfl⟩
  · rw [if_neg hstrict, if_neg (by omega)]
    exact .inl rfl

theorem loop {test test' : Run Bool} {body body' : Run Completion} {update update' : Run Unit}
    (pos : Position) (htest : Rel b test test') (hbody : Rel b body body')
    (hupdate : Rel b update update') (rounds : Nat) :
    Rel b (Run.loop strict pos test body update rounds)
      (Run.loop loose pos test' body' update' rounds) := by
  induction rounds with
  | zero => exact .throw _
  | succ rounds ih =>
    refine htest.bind fun go => ?_
    cases go with
    | false => exact .calm (.pure _)
    | true =>
      refine (h.step pos).bind fun _ => hbody.bind fun c => ?_
      cases c with
      | normal | continued _ => exact hupdate.bind fun _ => ih
      | returned _ | broke _ => exact .calm (.pure _)

end AtMost

/-- The relation of strict and loose runs is respected by all that runs are put together from. -/
def congruence {strict loose : Context} (h : AtMost strict loose) : Congruence where
  left := strict
  right := loose
  Rel b := Rel b
  contexts := h.compatible
  calm := .calm
  bind := .bind
  get := .get
  leaving hchange := .leaving (fun s => (hchange s).app) (fun s => (hchange s).trace)
    fun s => (hchange s).inBody_eq
  step := h.step
  call name pos hxy := (h.enterCall name pos).bind fun _ => by
    rw [Run.closing_exitCall, Run.closing_exitCall]
    exact .leaving (fun _ => rfl) (fun _ => rfl) (fun _ => rfl) hxy
  printed := .printed
  setProperty := .setProperty
  emit := .emit
  content style pos scope hxy := (Rel.openBody style pos).bind fun id =>
    .bind (.calm (.openScope _)) fun i =>
      .leaving (fun _ => rfl) (fun _ => rfl) (fun _ => rfl) (.inBody id (hxy i))
  loop {_ _ _ _ _ _ _} pos htest hbody hupdate := by
    have hpatience : strict.patience = loose.patience := by rw [h.rest]
    rw [hpatience]
    exact h.loop pos htest hbody hupdate _

end Limits

theorem RunFailure.isLimit_inFile (e : RunFailure) (path : String) :
    (e.inFile path).IsLimit ↔ e.IsLimit := by
  cases e with
  | rejected d =>
    rw [RunFailure.inFile, Diagnostic.inFileIfUnnamed]
    split <;> rfl
  | _ => rfl

namespace Session

variable {cx cx' : Context} {allowance : Nat} {p : Program}

theorem run_snd (cx : Context) (allowance : Nat) (path : String) (p : Program) :
    (Session.run cx allowance path p {}).2 = Run.sessionAfter (Run.start cx allowance p {}) := by
  rw [Session.run]
  cases Run.start cx allowance p _ <;> rfl

theorem run_congr (path : String) (h : Run.start cx allowance p {} = Run.start cx' allowance p {}) :
    Session.run cx allowance path p {} = Session.run cx' allowance path p {} := by
  rw [Session.run, Session.run, h]

theorem run_of_error {e : RunFailure} {t : Session} (path : String)
    (h : Run.start cx allowance p {} = .error e t) :
    Session.run cx allowance path p {} = (some (e.inFile path), t) := by
  rw [Session.run, h]

/-- The strict run is the loose one, or it has hit a limit, and then the loose one has only added to
what it has left behind. -/
theorem run_cut {strict loose : Context} (h : Limits.AtMost strict loose) (allowance : Nat)
    (path : String) (p : Program) :
    Session.run strict allowance path p {} = Session.run loose allowance path p {} ∨
      (∃ e ∈ (Session.run strict allowance path p {}).1, e.IsLimit) ∧
        (Session.run strict allowance path p {}).2.Extends
          (Session.run loose allowance path p {}).2 := by
  have hsound : App.Sound {} := fun h => by cases h
  have hleads : Limits.LeadsTo {} (Run.start strict allowance p {})
      (Run.start loose allowance p {}) :=
    (Limits.congruence h).start (b := false) allowance p {} rfl hsound
  rcases hleads.cut with heq | ⟨e, t, he, hlimit, hextends⟩
  · exact .inl (run_congr path heq)
  · rw [run_of_error path he, run_snd]
    exact .inr ⟨⟨_, rfl, (e.isLimit_inFile path).mpr hlimit⟩, hextends⟩

end Session

/-- Limits only cut runs short. If the limits of the calls in progress and of the steps are lowered
and the run does not hit them, it is the same run: it ends alike and leaves the same session, with the
same output, application, counters and arena. If it hits one of them, what it has printed and the
content that it has emitted come first in the other run too, and the properties that it has set have
the same values there. -/
theorem Session.run_limits (cx : Context) (maxCallDepth : Int) (maxSteps : Option Int)
    (allowance : Nat) (path : String) (p : Program)
    (hdepth : maxCallDepth ≤ cx.settings.maxCallDepth)
    (hsteps : ∀ n' ∈ cx.settings.maxSteps, ∃ n ∈ maxSteps, n ≤ n') :
    let strict := Session.run { cx with settings := { cx.settings with maxCallDepth, maxSteps } }
      allowance path p {}
    let loose := Session.run cx allowance path p {}
    ((∀ e ∈ strict.1, ¬ e.IsLimit) → strict = loose) ∧
    ((∃ e ∈ strict.1, e.IsLimit) →
      (∃ rest, loose.2.output = strict.2.output ++ rest) ∧
      (∀ x ∈ strict.2.app.body, ∃ y ∈ loose.2.app.body,
        y.style = x.style ∧ x.content.toList <+: y.content.toList) ∧
      ∀ q : Property, q.field ∈ strict.2.app.declared.map (·.1) →
        loose.2.app.get q = strict.2.app.get q) := by
  intro strict loose
  have hcut : strict = loose ∨ (∃ e ∈ strict.1, e.IsLimit) ∧ strict.2.Extends loose.2 :=
    Session.run_cut ⟨hdepth, hsteps, rfl⟩ allowance path p
  constructor
  · intro hfree
    rcases hcut with heq | ⟨⟨e, he, hlimit⟩, -⟩
    · exact heq
    · exact absurd hlimit (hfree e he)
  · intro _
    have hextends : strict.2.Extends loose.2 := by
      rcases hcut with heq | ⟨-, hextends⟩
      · rw [heq]
        exact .refl _
      · exact hextends
    exact ⟨hextends.output, hextends.app.body, hextends.app.get⟩

/-- A run of two statements that is cut short before the second one. -/
theorem Session.run_limits_print :
    let cx : Context := { settings := {}, patience := 5 }
    ∃ p : Program,
      let strict := Session.run
        { cx with settings := { cx.settings with maxCallDepth := 3, maxSteps := some 2 } } 20 "" p {}
      let loose := Session.run cx 20 "" p {}
      strict.1 = some (.rejected (Meter.stepsExceeded 2 ⟨2, 1⟩)) ∧ strict.2.output = "a\n" ∧
      ((∀ e ∈ strict.1, ¬ e.IsLimit) → strict = loose) ∧
      ((∃ e ∈ strict.1, e.IsLimit) →
        (∃ rest, loose.2.output = strict.2.output ++ rest) ∧
        (∀ x ∈ strict.2.app.body, ∃ y ∈ loose.2.app.body,
          y.style = x.style ∧ x.content.toList <+: y.content.toList) ∧
        ∀ q : Property, q.field ∈ strict.2.app.declared.map (·.1) →
          loose.2.app.get q = strict.2.app.get q) := by
  intro cx
  obtain ⟨p, hfailure, houtput⟩ : ∃ p,
      let strict := Session.run
        { cx with settings := { cx.settings with maxCallDepth := 3, maxSteps := some 2 } } 20 "" p {}
      strict.1 = some (.rejected (Meter.stepsExceeded 2 ⟨2, 1⟩)) ∧ strict.2.output = "a\n" := by
    refine ⟨⟨⟨1, 1⟩,
      [.expr ⟨1, 1⟩ (.call ⟨1, 1⟩ (.ident ⟨1, 1⟩ "print") [.string ⟨1, 7⟩ "a"]),
      .expr ⟨2, 1⟩ (.call ⟨2, 1⟩ (.ident ⟨2, 1⟩ "print") [.string ⟨2, 7⟩ "b"])]⟩, ?_, ?_⟩
    · cbv
    · cbv
  exact ⟨p, hfailure, houtput, Session.run_limits cx 3 (some 2) 20 "" p (by decide) fun n' hn' =>
    ⟨2, rfl, by cases hn'; decide⟩⟩

end MiniApp
