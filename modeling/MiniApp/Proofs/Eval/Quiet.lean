import MiniApp.Proofs.Eval.Provenance

/-!
# Quiet actions

Most elementary actions are *quiet*: they leave the application record alone, and they have nothing to
do with jumps. They keep the program known: what they bind was computed by the program, and so was
what they find.

## Main definitions

* `Session.Mild`: changes that leave the record alone
* `Value.IsData`: values that are no functions
* `Run.Quiet`: actions that make such changes

## Main results

* `Operation.isData_binary`, `Operation.isData_unary`: operators give no functions
* `Run.Quiet.bind`, `Run.Quiet.define`, `Run.Quiet.lookup` and others: quiet actions
-/

namespace MiniApp

namespace Session

/-- A change that leaves the application record alone, and whichever section is being executed. -/
structure Mild (s t : Session) : Prop where
  app : t.app = s.app
  active : t.active = s.active

theorem Mild.refl (s : Session) : s.Mild s := ⟨rfl, rfl⟩

theorem Mild.trans {s t u : Session} (h : s.Mild t) (h' : t.Mild u) : s.Mild u :=
  ⟨h'.app.trans h.app, h'.active.trans h.active⟩

end Session

/-! ## Operators -/

/-- Values that are no functions. -/
def Value.IsData : Value → Prop
  | .closure _ | .builtin _ => False
  | _ => True

theorem Value.IsData.known {v : Value} (h : v.IsData) {p : Program} {root : Nat} :
    v.Known p root := by
  cases v with
  | closure _ | builtin _ => exact h.elim
  | null | bool _ | number _ | str _ => trivial

namespace Operation

variable {pos : Position} {op : BinaryOp} {l r v : Value}

/-- What a monadic computation has given was given by its last step. -/
theorem exists_of_bind {α β : Type} {x : Except RunFailure α} {f : α → Except RunFailure β} {b : β}
    (h : x >>= f = .ok b) : ∃ a, x = .ok a ∧ f a = .ok b := by
  cases x with
  | ok a => exact ⟨a, rfl, h⟩
  | error e => cases h

theorem isData_onNumbers {f : Number → Number → Except Fault Number}
    (h : onNumbers f l r = .ok v) : v.IsData := by
  rw [onNumbers.eq_def] at h
  split at h
  · obtain ⟨n, -, h⟩ := exists_of_bind h
    obtain rfl := Except.ok.inj h
    trivial
  · cases h

theorem isData_arithmetic {f : Number → Number → Except Fault Number}
    (h : arithmetic pos op f l r = .ok v) : v.IsData := by
  obtain ⟨_, -, h⟩ := exists_of_bind h
  exact isData_onNumbers h

theorem isData_division {name : String} {f : Number → Number → Except Fault Number}
    (h : division pos op name f l r = .ok v) : v.IsData := by
  obtain ⟨_, -, h⟩ := exists_of_bind h
  split at h
  · cases h
  · exact isData_onNumbers h

theorem isData_order {onNumbers : Number → Number → Bool} {onTexts : String → String → Bool}
    (h : order onNumbers onTexts l r = .ok v) : v.IsData := by
  rw [order.eq_def] at h
  split at h
  · obtain rfl := Except.ok.inj h
    trivial
  · obtain rfl := Except.ok.inj h
    trivial
  · cases h

theorem isData_compare {onNumbers : Number → Number → Bool} {onTexts : String → String → Bool}
    (h : compare pos op onNumbers onTexts l r = .ok v) : v.IsData := by
  rw [compare] at h
  split at h
  · exact isData_order h
  · cases h

theorem isData_sum (h : sum pos l r = .ok v) : v.IsData := by
  rw [sum] at h
  split at h
  · obtain ⟨a, -, h⟩ := exists_of_bind h
    obtain ⟨b, -, h⟩ := exists_of_bind h
    obtain rfl := Except.ok.inj h
    trivial
  · obtain ⟨_, -, h⟩ := exists_of_bind h
    exact isData_onNumbers h

theorem isData_negate (h : negate l = .ok v) : v.IsData := by
  rw [negate.eq_def] at h
  split at h
  · obtain rfl := Except.ok.inj h
    trivial
  · cases h

/-- Operators give no functions. -/
theorem isData_binary (h : binary pos op l r = .ok v) : v.IsData := by
  cases op with
  | eq | ne =>
    obtain rfl := Except.ok.inj h
    trivial
  | add => exact isData_sum h
  | lt | gt | le | ge => exact isData_compare h
  | sub | mul => exact isData_arithmetic h
  | div | mod => exact isData_division h

theorem isData_unary {op : UnaryOp} (h : unary pos op l = .ok v) : v.IsData := by
  cases op with
  | not =>
    obtain rfl := Except.ok.inj h
    trivial
  | minus | other _ =>
    rw [unary] at h
    split at h
    · cases h
    · exact isData_negate h

variable {p : Program} {root : Nat}

theorem known_binary (h : binary pos op l r = .ok v) : v.Known p root := (isData_binary h).known

theorem known_unary {op : UnaryOp} (h : unary pos op l = .ok v) : v.Known p root :=
  (isData_unary h).known

end Operation

/-! ## Quiet actions -/

namespace RunFailure

theorem Plain.not_controlFlow {e : RunFailure} (h : e.Plain) : ¬ e.HasTrouble .controlFlow := by
  cases h with
  | rejected h =>
    intro htrouble
    rw [show _ = Trouble.controlFlow from htrouble] at h
    cases h
  | fault _ | dangling | noSection => exact id

end RunFailure

namespace Run

variable {p : Program} {root : Nat} {α β : Type} {Q Q' : α → Prop} {s : Session}

/-- A result that says that the record was left alone and the program is still known. -/
inductive QuietResult (p : Program) (root : Nat) (Q : α → Prop) (s : Session) :
    EStateM.Result RunFailure Session α → Prop
  | ok {v : α} {t : Session} :
      s.Mild t → t.arena.Knows p root → Q v → QuietResult p root Q s (.ok v t)
  | error {e : RunFailure} {t : Session} :
      s.Mild t → ¬ e.HasTrouble .controlFlow → QuietResult p root Q s (.error e t)

/-- An action that leaves the record alone, keeps the program known and has nothing to do with jumps.
What holds of its values is stated along with it. -/
def Quiet (p : Program) (root : Nat) (Q : α → Prop) (x : Run α) : Prop :=
  ∀ s : Session, s.arena.Knows p root → QuietResult p root Q s (x s)

namespace Quiet

theorem pure {v : α} (h : Q v) : Quiet p root Q (Pure.pure v) :=
  fun s hs => .ok (.refl s) hs h

theorem throw {e : RunFailure} (h : e.Plain) : Quiet p root Q (MonadExcept.throw e) :=
  fun s _ => .error (.refl s) h.not_controlFlow

theorem reject {pos : Position} {trouble : Trouble} {message : String}
    (h : trouble.isPlain = true) :
    Quiet p root Q (Run.reject (.located pos trouble message)) :=
  .throw (.located h)

theorem bind {x : Run α} {f : α → Run β} {Q' : β → Prop} (hx : Quiet p root Q x)
    (hf : ∀ v, Q v → Quiet p root Q' (f v)) : Quiet p root Q' (x >>= f) := by
  intro s hs
  have hresult := hx s hs
  rw [Run.bind_apply]
  generalize x s = r at hresult
  cases hresult with
  | error hmild he => exact .error hmild he
  | @ok v t hmild ht hv =>
    have hresult' := hf v hv t ht
    dsimp only
    generalize f v t = r at hresult'
    cases hresult' with
    | error hmild' he => exact .error (hmild.trans hmild') he
    | ok hmild' hu hw => exact .ok (hmild.trans hmild') hu hw

theorem ofFault {x : Except Fault α} (h : ∀ v, x = .ok v → Q v) :
    Quiet p root Q (Run.ofFault x) := by
  cases x with
  | ok v => exact .pure (h v rfl)
  | error f => exact .throw (.fault f)

theorem ofOperation {x : Operation} {P : Value → Prop} (h : FailsOnly RunFailure.Plain x)
    (hv : ∀ v, x = .ok v → P v) : Quiet p root P (Run.ofOperation x) := by
  cases h with
  | ok v => exact .pure (hv v rfl)
  | error he => exact .throw he

/-- An action that changes the meter and checks it against a limit. -/
theorem meter (count : Meter → Meter) (check : Meter → Except Diagnostic Unit)
    (h : ∀ m d, check m = .error d → d.trouble ≠ .controlFlow) :
    Quiet p root (fun _ => True) (do
      modify fun s => { s with meter := count s.meter }
      Run.ofDiagnostic (check (← MonadState.get).meter)) := by
  intro s hs
  change QuietResult p root _ s
    (Run.ofDiagnostic (check (count s.meter)) { s with meter := count s.meter })
  cases hcheck : check (count s.meter) with
  | ok _ => exact .ok ⟨rfl, rfl⟩ hs trivial
  | error d => exact .error ⟨rfl, rfl⟩ (h _ _ hcheck)

theorem step (cx : Context) (pos : Position) :
    Quiet p root (fun _ => True) (Run.step cx pos) :=
  .meter Meter.step (·.checkSteps cx.settings.toLimits pos) fun _ _ h => by
    rw [(Meter.checkSteps_eq_error h).1]
    decide

theorem enterCall (cx : Context) (name : String) (pos : Position) :
    Quiet p root (fun _ => True) (Run.enterCall cx name pos) :=
  .meter (·.enter name) (·.checkDepth cx.settings.toLimits pos) fun _ _ h => by
    rw [Meter.trouble_of_checkDepth h]
    decide

theorem visit (cx : Context) (scope : Nat) (n : Node) :
    Quiet p root (fun _ => True) (Run.visit cx scope n) := by
  intro s hs
  change QuietResult p root _ s (.ok () (if cx.recording then _ else _))
  split
  · exact .ok ⟨rfl, rfl⟩ hs trivial
  · exact .ok (.refl s) hs trivial

theorem reach (cx : Context) (scope : Nat) (s : Stmt) :
    Quiet p root (fun _ => True) (Run.reach cx scope s) :=
  .bind (.visit cx scope _) fun _ _ => .step cx s.pos

theorem define {v : Value} (scope : Nat) (name : String) (kind : BindingKind) (pos : Position)
    (hv : v.Known p root) : Quiet p root (fun _ => True) (Run.define scope name v kind pos) := by
  intro s hs
  rw [Run.define]
  cases h : s.arena.define scope name ⟨v, kind, pos⟩ with
  | ok arena => exact .ok ⟨rfl, rfl⟩ (hs.define hv h) trivial
  | error e => exact .error (.refl s) (Arena.plain_of_define h).not_controlFlow

theorem lookup {scope : Nat} (name : String) (pos : Position) (hscope : root ≤ scope) :
    Quiet p root (Value.Known p root) (Run.lookup scope name pos) := by
  intro s hs
  rw [Run.lookup]
  cases h : s.arena.lookup scope name pos with
  | ok v => exact .ok (.refl s) hs (hs.lookup hscope h)
  | error e => exact .error (.refl s) (Arena.plain_of_lookup h).not_controlFlow

theorem assign {v : Value} (scope : Nat) (name : String) (pos : Position)
    (hv : v.Known p root) : Quiet p root (fun _ => True) (Run.assign scope name v pos) := by
  intro s hs
  rw [Run.assign]
  cases h : s.arena.assign scope name v pos with
  | ok arena => exact .ok ⟨rfl, rfl⟩ (hs.assign hv h) trivial
  | error e => exact .error (.refl s) (Arena.plain_of_assign h).not_controlFlow

theorem isBound (scope : Nat) (name : String) :
    Quiet p root (fun _ => True) (Run.isBound scope name) := by
  intro s hs
  rw [Run.isBound]
  split
  · exact .ok (.refl s) hs trivial
  · exact .ok (.refl s) hs trivial
  · exact .error (.refl s) id

theorem declareFunction {scope : Nat} {pos : Position} {name : String} {parameters : List String}
    {b : Block} (hscope : root ≤ scope) (hb : ∀ s ∈ b.body, p.Contains false s) :
    Quiet p root (· = .normal) (Run.declareFunction scope pos name parameters b) := by
  refine .bind (Q := fun _ => True) (fun s hs => .ok ⟨rfl, rfl⟩ hs trivial) fun id _ => ?_
  refine .bind (Q := fun _ => True) (fun s hs => ?_) fun _ _ => ?_
  · rw [Run.capture]
    split
    · exact .ok ⟨rfl, rfl⟩ hs.capture trivial
    · exact .error (.refl s) not_false
  · exact .bind (.define scope name _ _ ⟨hscope, hb⟩) fun _ _ => .pure rfl

theorem bindParameters (scope : Nat) (pos : Position) (parameters : List String)
    {vs : List Value} (hvs : ∀ v ∈ vs, v.Known p root) :
    Quiet p root (fun _ => True) (Run.bindParameters scope pos parameters vs) := by
  induction parameters generalizing vs with
  | nil => exact .pure trivial
  | cons q qs ih =>
    cases vs with
    | nil => exact .pure trivial
    | cons v vs =>
      obtain ⟨hv, hvs⟩ := List.forall_mem_cons.mp hvs
      exact .bind (.define _ _ _ _ hv) fun _ _ => ih hvs

theorem perform (pos : Position) (action : Action) (vs : List Value) :
    Quiet p root (Value.Known p root) (Run.perform pos action vs) := by
  rw [Run.perform.eq_def]
  split
  · refine .bind (.ofFault (Q := fun _ => True) fun _ _ => trivial) fun _ _ => ?_
    exact .bind (Q := fun _ => True) (fun s hs => .ok ⟨rfl, rfl⟩ hs trivial) fun _ _ =>
      .pure trivial
  · exact .pure trivial
  · exact .reject rfl
  · exact .throw (.fault _)

end Quiet

end Run

end MiniApp
