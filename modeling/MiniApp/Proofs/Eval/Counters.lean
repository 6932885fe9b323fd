import Mathlib.Algebra.Group.Basic
import Mathlib.Algebra.Group.Int.Defs
import Mathlib.Data.Option.Basic
import MiniApp.Proofs.Eval.Evolution

/-!
# Counters of a run

Steps are counted and never taken back. Under a limit of steps no more than one step too many is ever
counted, and that one only if it is refused.

Calls are counted when they begin and taken back when they end, however they end. The exception is a
call that is refused for its depth: it has been counted, and nothing takes it back. So a run that
fails for the depth of its calls leaves one call behind, and the next run in the same session begins
with one call counted that is not in progress.

## Main definitions

* `RunFailure.HasTrouble`: the failures with a diagnostic of one kind of trouble
* `Session.Stepped`, `Session.Called`: what the counters say after a session has evolved

## Main results

* `Session.Evolves.stepped`, `Session.Evolves.called`: sessions that evolve
* `Session.Evolves.depth_eq`: the depth is the number of calls on the stack
-/

namespace MiniApp

/-- A diagnostic of this trouble. -/
def RunFailure.HasTrouble (trouble : Trouble) : RunFailure → Prop
  | .rejected d => d.trouble = trouble
  | _ => False

theorem RunFailure.hasTrouble_inFile {trouble : Trouble} (e : RunFailure) (path : String) :
    (e.inFile path).HasTrouble trouble ↔ e.HasTrouble trouble := by
  cases e with
  | rejected d =>
    rw [RunFailure.inFile, Diagnostic.inFileIfUnnamed]
    split <;> rfl
  | _ => rfl

theorem RunFailure.exists_inFile {trouble : Trouble} {f : Option RunFailure} {path : String} :
    (∃ e ∈ f.map (·.inFile path), e.HasTrouble trouble) ↔ ∃ e ∈ f, e.HasTrouble trouble := by
  simp only [Option.mem_map, exists_exists_and_eq_and, hasTrouble_inFile]

theorem RunFailure.forall_inFile {trouble : Trouble} {f : Option RunFailure} {path : String} :
    (∀ e ∈ f.map (·.inFile path), ¬ e.HasTrouble trouble) ↔ ∀ e ∈ f, ¬ e.HasTrouble trouble := by
  simp only [Option.mem_map, forall_exists_index, and_imp, forall_apply_eq_imp_iff₂,
    hasTrouble_inFile]

theorem RunFailure.not_hasTrouble_of_not_isLimit {e : RunFailure} (h : ¬ e.IsLimit) :
    ¬ e.HasTrouble .callDepth ∧ ¬ e.HasTrouble .stepLimit := by
  cases e with
  | rejected d => exact not_or.mp h
  | _ => exact ⟨id, id⟩

namespace Meter

variable {l : Limits} {m : Meter} {pos : Position} {d : Diagnostic}

theorem trouble_of_checkDepth (h : m.checkDepth l pos = .error d) : d.trouble = .callDepth := by
  rw [checkDepth] at h
  split at h
  · cases h
    rfl
  · cases h

theorem checkSteps_eq_error (h : m.checkSteps l pos = .error d) :
    d.trouble = .stepLimit ∧ ∃ limit ∈ l.maxSteps, limit < m.steps := by
  rw [checkSteps] at h
  split at h
  · next limit hlimit =>
    split at h
    · next hlt =>
      cases h
      exact ⟨rfl, limit, hlimit, hlt⟩
    · cases h
  · cases h

theorem steps_le_of_checkSteps {limit : Int} (h : m.checkSteps l pos = .ok ())
    (hlimit : limit ∈ l.maxSteps) : m.steps ≤ limit := by
  rw [checkSteps, hlimit] at h
  dsimp only at h
  split at h
  · cases h
  · omega

end Meter

namespace Session

variable {cx : Context} {s t : Session} {f : Option RunFailure}

/-! ## Steps -/

theorem Change.steps_le (h : s.Change cx t) : s.meter.steps ≤ t.meter.steps := by
  cases h with
  | counted _ => exact Nat.le_succ _
  | _ => exact le_rfl

/-- Steps are never taken back. -/
theorem Evolves.steps_le (h : s.Evolves cx f t) : s.meter.steps ≤ t.meter.steps := by
  induction h with
  | refl _ | fail _ _ | refusedCall _ => exact le_rfl
  | refusedStep _ => exact Nat.le_succ _
  | change h => exact h.steps_le
  | trans _ _ ih ih' => exact ih.trans ih'
  | call _ _ ih | scope _ ih | content _ _ ih => exact ih

/-- At most one step more than allowed has been counted, and that one if and only if it was
refused. -/
def Stepped (limit : Nat) (f : Option RunFailure) (t : Session) : Prop :=
  t.meter.steps ≤ limit + 1 ∧ (t.meter.steps = limit + 1 ↔ ∃ e ∈ f, e.HasTrouble .stepLimit)

theorem Stepped.of_le {limit : Nat} (h : t.meter.steps ≤ limit)
    (hf : ∀ e ∈ f, ¬ e.HasTrouble .stepLimit) : t.Stepped limit f :=
  ⟨h.trans (Nat.le_succ _), fun heq => by omega, fun ⟨e, he, hstep⟩ => absurd hstep (hf e he)⟩

theorem Stepped.steps_le {limit : Nat} (h : t.Stepped limit none) : t.meter.steps ≤ limit := by
  have hne : t.meter.steps ≠ limit + 1 := fun heq => by
    obtain ⟨e, he, -⟩ := h.2.mp heq
    cases he
  have := h.1
  omega

theorem Change.steps_le_limit {limit : Nat} (hlimit : (limit : Int) ∈ cx.settings.maxSteps)
    (hs : s.meter.steps ≤ limit) (h : s.Change cx t) : t.meter.steps ≤ limit := by
  cases h with
  | counted hcheck => exact Int.ofNat_le.mp (Meter.steps_le_of_checkSteps hcheck hlimit)
  | _ => exact hs

/-- Under a limit of steps no more than one step too many is counted, and that one is refused. -/
theorem Evolves.stepped {limit : Nat} (hlimit : (limit : Int) ∈ cx.settings.maxSteps)
    (hs : s.meter.steps ≤ limit) (h : s.Evolves cx f t) : t.Stepped limit f := by
  induction h with
  | refl _ => exact .of_le hs fun _ he => nomatch he
  | fail _ he =>
    refine .of_le hs fun e hmem => ?_
    obtain rfl := Option.some.inj hmem
    exact (RunFailure.not_hasTrouble_of_not_isLimit he).2
  | change h => exact .of_le (h.steps_le_limit hlimit hs) fun _ he => nomatch he
  -- nothing was refused up to the session in between
  | trans _ _ ih ih' => exact ih' (ih hs).steps_le
  | @refusedStep s pos d hcheck =>
    obtain ⟨htrouble, limit', hlimit', hlt⟩ := Meter.checkSteps_eq_error hcheck
    obtain rfl := Option.some.inj (hlimit.symm.trans hlimit')
    -- the step that is refused is the first one too many
    have hsteps : s.meter.step.steps = limit + 1 :=
      Nat.le_antisymm (Nat.succ_le_succ hs) (Int.ofNat_lt.mp hlt)
    exact ⟨hsteps.le, fun _ => ⟨_, rfl, htrouble⟩, fun _ => hsteps⟩
  | refusedCall hcheck =>
    refine .of_le hs fun e hmem => ?_
    obtain rfl := Option.some.inj hmem
    exact fun hstep => nomatch (Meter.trouble_of_checkDepth hcheck).symm.trans hstep
  | call _ _ ih | scope _ ih | content _ _ ih => exact ih hs

/-! ## Calls -/

/-- The calls in progress are those that were in progress before, unless a call was refused for its
depth: then there is one more. -/
structure Called (s : Session) (f : Option RunFailure) (t : Session) : Prop where
  balanced : (∀ e ∈ f, ¬ e.HasTrouble .callDepth) →
    t.meter.depth = s.meter.depth ∧ t.meter.calls = s.meter.calls
  refused : (∃ e ∈ f, e.HasTrouble .callDepth) →
    t.meter.depth = s.meter.depth + 1 ∧ ∃ name, t.meter.calls = name :: s.meter.calls

theorem Called.of_eq (hdepth : t.meter.depth = s.meter.depth)
    (hcalls : t.meter.calls = s.meter.calls) (hf : ∀ e ∈ f, ¬ e.HasTrouble .callDepth) :
    s.Called f t :=
  ⟨fun _ => ⟨hdepth, hcalls⟩, fun ⟨e, he, hcall⟩ => absurd hcall (hf e he)⟩

theorem Called.trans {u : Session} (h : s.Called none t) (h' : t.Called f u) : s.Called f u := by
  obtain ⟨hdepth, hcalls⟩ := h.balanced fun _ he => nomatch he
  exact ⟨hdepth ▸ hcalls ▸ h'.balanced, hdepth ▸ hcalls ▸ h'.refused⟩

/-- A call that ends takes back one call, be it its own or a refused one within. -/
theorem Called.exitCall {name : String}
    (h : Called { s with meter := s.meter.enter name } f t) :
    s.Called f { t with meter := t.meter.exit } := by
  constructor
  · intro hf
    obtain ⟨hdepth, hcalls⟩ := h.balanced hf
    exact ⟨sub_eq_of_eq_add hdepth, congrArg List.tail hcalls⟩
  · intro hf
    obtain ⟨hdepth, name', hcalls⟩ := h.refused hf
    exact ⟨sub_eq_of_eq_add hdepth, name, congrArg List.tail hcalls⟩

theorem Change.called (h : s.Change cx t) : s.Called none t := by
  have heq : t.meter.depth = s.meter.depth ∧ t.meter.calls = s.meter.calls := by
    cases h <;> exact ⟨rfl, rfl⟩
  exact .of_eq heq.1 heq.2 fun _ he => nomatch he

/-- Calls are taken back however they end, except for one that is refused for its depth. -/
theorem Evolves.called (h : s.Evolves cx f t) : s.Called f t := by
  induction h with
  | refl _ => exact .of_eq rfl rfl fun _ he => nomatch he
  | fail _ he =>
    refine .of_eq rfl rfl fun e hmem => ?_
    obtain rfl := Option.some.inj hmem
    exact (RunFailure.not_hasTrouble_of_not_isLimit he).1
  | change h => exact h.called
  | trans _ _ ih ih' => exact ih.trans ih'
  | refusedStep hcheck =>
    refine .of_eq rfl rfl fun e hmem => ?_
    obtain rfl := Option.some.inj hmem
    exact fun hcall => nomatch (Meter.checkSteps_eq_error hcheck).1.symm.trans hcall
  -- the one exit that leaves a call behind
  | @refusedCall s name pos d hcheck =>
    exact ⟨fun hf => absurd (Meter.trouble_of_checkDepth hcheck) (hf _ rfl),
      fun _ => ⟨rfl, name, rfl⟩⟩
  | call _ _ ih => exact ih.exitCall
  | scope _ ih | content _ _ ih => exact ⟨ih.balanced, ih.refused⟩

/-- The depth is the number of calls on the stack, and stays so even if a call is refused. -/
theorem Evolves.depth_eq (h : s.Evolves cx f t) (hs : s.meter.depth = s.meter.stack.length) :
    t.meter.depth = t.meter.stack.length := by
  rw [Meter.stack, List.length_reverse] at hs ⊢
  by_cases hf : ∃ e ∈ f, e.HasTrouble .callDepth
  · obtain ⟨hdepth, name, hcalls⟩ := h.called.refused hf
    rw [hdepth, hcalls, hs, List.length_cons, Int.natCast_succ]
  · obtain ⟨hdepth, hcalls⟩ := h.called.balanced fun e he hcall => hf ⟨e, he, hcall⟩
    rw [hdepth, hcalls, hs]

end Session

end MiniApp
