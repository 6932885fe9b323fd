import MiniApp.Proofs.Eval.Origins
import MiniApp.Proofs.Eval.Recount

/-!
# Functions are traced through runs

Whatever is executed or evaluated, functions can be traced back afterwards, along with the values
that come out of it, to the entries that there were before and those that have been told meanwhile.
This is shown for the elementary actions, which tell nothing, then for the ways in which told
actions are put together, and for runs by their recursion.

## Main definitions

* `Run.Keeps`: silent actions after which functions can still be traced back
* `Told.Keeps`: told actions after which functions can still be traced back

## Main results

* `Told.Keeps.declared`: declarations of functions
* `Told.keepsExecuting_keepsEvaluating`: executing and evaluating
* `Session.Traced.run`: runs
-/

namespace MiniApp

/-! ## Elementary actions -/

namespace Run

variable {bs : List Builtin} {l : List Entry} {α β : Type} {Q : α → Prop}

/-- Results after which functions can be traced back. -/
inductive Kept (bs : List Builtin) (l : List Entry) (Q : α → Prop) :
    EStateM.Result RunFailure Session α → Prop
  | ok {v : α} {t : Session} : t.Traced bs l → Q v → Kept bs l Q (.ok v t)
  | error {e : RunFailure} {t : Session} : t.Traced bs l → Kept bs l Q (.error e t)

/-- An action that tells nothing, after which functions can still be traced back. What holds of its
values is stated along with it. -/
def Keeps (bs : List Builtin) (l : List Entry) (Q : α → Prop) (x : Run α) : Prop :=
  ∀ s : Session, s.Traced bs l → Kept bs l Q (x s)

namespace Keeps

theorem pure {v : α} (h : Q v) : Keeps bs l Q (Pure.pure v) := fun _ hs => .ok hs h

theorem throw (e : RunFailure) : Keeps bs l Q (MonadExcept.throw e) := fun _ hs => .error hs

theorem bind {x : Run α} {f : α → Run β} {R : β → Prop} (hx : Keeps bs l Q x)
    (hf : ∀ v, Q v → Keeps bs l R (f v)) : Keeps bs l R (x >>= f) := by
  intro s hs
  have hresult := hx s hs
  rw [Run.bind_apply]
  generalize x s = r at hresult
  cases hresult with
  | error ht => exact .error ht
  | ok ht hv => exact hf _ hv _ ht

theorem ofFault (x : Except Fault α) : Keeps bs l (fun _ => True) (Run.ofFault x) := by
  cases x with
  | ok v => exact .pure trivial
  | error f => exact .throw (.fault f)

theorem ofOperation {x : Operation} (h : ∀ v, x = .ok v → v.IsData) :
    Keeps bs l (Value.Comes bs l) (Run.ofOperation x) := by
  cases x with
  | ok v => exact .pure (h v rfl).comes
  | error e => exact .throw e

/-- An action that changes the meter and checks it against a limit. -/
theorem meter (count : Meter → Meter) (check : Meter → Except Diagnostic Unit) :
    Keeps bs l (fun _ => True) (do
      modify fun s => { s with meter := count s.meter }
      Run.ofDiagnostic (check (← MonadState.get).meter)) := by
  intro s hs
  change Kept bs l _ (Run.ofDiagnostic (check (count s.meter)) { s with meter := count s.meter })
  cases check (count s.meter) with
  | ok _ => exact .ok (hs.still rfl rfl) trivial
  | error d => exact .error (hs.still rfl rfl)

theorem step (cx : Context) (pos : Position) : Keeps bs l (fun _ => True) (Run.step cx pos) :=
  .meter Meter.step (·.checkSteps cx.settings.toLimits pos)

theorem enterCall (cx : Context) (name : String) (pos : Position) :
    Keeps bs l (fun _ => True) (Run.enterCall cx name pos) :=
  .meter (·.enter name) (·.checkDepth cx.settings.toLimits pos)

theorem visit (cx : Context) (scope : Nat) (n : Node) :
    Keeps bs l (fun _ => True) (Run.visit cx scope n) := by
  intro s hs
  change Kept bs l _ (.ok () (if cx.recording then _ else _))
  split
  · exact .ok (hs.still rfl rfl) trivial
  · exact .ok hs trivial

theorem reach (cx : Context) (scope : Nat) (s : Stmt) :
    Keeps bs l (fun _ => True) (Run.reach cx scope s) :=
  .bind (.visit cx scope _) fun _ _ => .step cx s.pos

theorem openScope (parent : Option Nat) : Keeps bs l (fun _ => True) (Run.openScope parent) :=
  fun _ hs => .ok (hs.changed (Arena.advances_allocate parent)) trivial

theorem define {v : Value} (scope : Nat) (name : String) (kind : BindingKind) (pos : Position)
    (hv : v.Comes bs l) : Keeps bs l (fun _ => True) (Run.define scope name v kind pos) := by
  intro s hs
  rw [Run.define]
  cases h : s.arena.define scope name ⟨v, kind, pos⟩ with
  | ok arena => exact .ok (hs.changed (Arena.advances_define hv h)) trivial
  | error e => exact .error hs

theorem lookup (scope : Nat) (name : String) (pos : Position) :
    Keeps bs l (Value.Comes bs l) (Run.lookup scope name pos) := by
  intro s hs
  rw [Run.lookup]
  cases h : s.arena.lookup scope name pos with
  | ok v => exact .ok hs (hs.bound (Arena.binds_of_lookup h))
  | error e => exact .error hs

theorem assign {v : Value} (scope : Nat) (name : String) (pos : Position) (hv : v.Comes bs l) :
    Keeps bs l (fun _ => True) (Run.assign scope name v pos) := by
  intro s hs
  rw [Run.assign]
  cases h : s.arena.assign scope name v pos with
  | ok arena => exact .ok (hs.changed (Arena.advances_assign hv h)) trivial
  | error e => exact .error hs

theorem closeScope (cx : Context) (scope : Nat) :
    Keeps bs l (fun _ => True) (Run.closeScope cx scope) := by
  intro s hs
  rw [Run.closeScope]
  split
  · exact .ok (hs.changed (Arena.advances_release cx.reclamation scope)) trivial
  · exact .error hs

theorem isBound (scope : Nat) (name : String) :
    Keeps bs l (fun _ => True) (Run.isBound scope name) := by
  intro s hs
  rw [Run.isBound]
  split
  · exact .ok hs trivial
  · exact .ok hs trivial
  · exact .error hs

theorem emit (v : Value) : Keeps bs l (fun _ => True) (Run.emit v) := by
  intro s hs
  rw [Run.emit]
  split
  · exact .ok (hs.still rfl rfl) trivial
  · exact .error hs

theorem setProperty (q : Property) (value : Data) (pos : Position) :
    Keeps bs l (fun _ => True) (Run.setProperty q value pos) := by
  intro s hs
  rw [Run.setProperty]
  split
  · exact .ok (hs.still rfl rfl) trivial
  · exact .error hs

/-- A change of the session that functions do not depend on. -/
theorem still {change : Session → Session} (harena : ∀ s, (change s).arena = s.arena)
    (hnextId : ∀ s, (change s).nextId = s.nextId) :
    Keeps bs l (fun _ => True) (modify change) :=
  fun s hs => .ok (hs.still (harena s) (hnextId s)) trivial

theorem openBody (style : String) (pos : Position) :
    Keeps bs l (fun _ => True) (Run.openBody style pos) := by
  intro s hs
  rw [Run.openBody]
  split
  · exact .ok (hs.still rfl rfl) trivial
  · exact .error hs

theorem bindParameters (scope : Nat) (pos : Position) (parameters : List String)
    {vs : List Value} (hvs : ∀ v ∈ vs, v.Comes bs l) :
    Keeps bs l (fun _ => True) (Run.bindParameters scope pos parameters vs) := by
  induction parameters generalizing vs with
  | nil => exact .pure trivial
  | cons q qs ih =>
    cases vs with
    | nil => exact .pure trivial
    | cons v vs =>
      obtain ⟨hv, hvs⟩ := List.forall_mem_cons.mp hvs
      exact .bind (.define _ _ _ _ hv) fun _ _ => ih hvs

theorem perform (pos : Position) (action : Action) (vs : List Value) :
    Keeps bs l (Value.Comes bs l) (Run.perform pos action vs) := by
  rw [Run.perform.eq_def]
  split
  · refine .bind (.ofFault _) fun _ _ => ?_
    exact .bind (Q := fun _ => True) (fun s hs => .ok (hs.still rfl rfl) trivial) fun _ _ =>
      .pure trivial
  · exact .pure trivial
  · exact .throw _
  · exact .throw _

end Keeps

/-- How the declaration of a function may go. -/
theorem declareFunction_eq (scope : Nat) (pos : Position) (name : String)
    (parameters : List String) (b : Block) (s : Session) :
    declareFunction scope pos name parameters b s =
      if scope < s.arena.size then
        match (s.arena.capture scope).define scope name
            ⟨.closure ⟨s.nextId, name, parameters, b, scope, pos⟩, .func, pos⟩ with
        | .ok arena => .ok .normal { s with arena, nextId := s.nextId + 1 }
        | .error e =>
          .error e.toRun { s with arena := s.arena.capture scope, nextId := s.nextId + 1 }
      else .error .dangling { s with nextId := s.nextId + 1 } := by
  by_cases hscope : scope < s.arena.size
  · cases hdefine : (s.arena.capture scope).define scope name
        ⟨.closure ⟨s.nextId, name, parameters, b, scope, pos⟩, .func, pos⟩ <;>
      simp [declareFunction, freshId, capture, define, bind, EStateM.bind, pure, EStateM.pure,
        hscope, hdefine]
  · simp [declareFunction, freshId, capture, bind, EStateM.bind, hscope]

end Run

/-! ## Told actions -/

/-- The value that a statement has returned, if it has, comes from the account. -/
def Completion.Comes (bs : List Builtin) (l : List Entry) (c : Completion) : Prop :=
  ∀ v, c = .returned v → v.Comes bs l

namespace Completion

variable {bs : List Builtin} {l l' : List Entry} {c : Completion}

theorem comes_normal : normal.Comes bs l := fun _ h => by cases h

theorem comes_returned {v : Value} (hv : v.Comes bs l) : (returned v).Comes bs l :=
  fun _ h => returned.inj h ▸ hv

theorem Comes.later (h : c.Comes bs l) (hl : l ⊆ l') : c.Comes bs l' :=
  fun v hv => (h v hv).later hl

end Completion

namespace Told

variable {cx : Context} {bs : List Builtin} {l : List Entry} {a : Surroundings} {α β : Type}
variable {Q : List Entry → α → Prop} {x : Told α}

/-- A told action after which functions can still be traced back, given what it tells. What holds of
its values is stated along with it. -/
def Keeps (bs : List Builtin) (l : List Entry) (Q : List Entry → α → Prop) (x : Told α) : Prop :=
  ∀ s : Session, s.Traced bs l → Run.Kept bs (l ++ x.account s) (Q (l ++ x.account s)) (x.run s)

/-- An action that has failed before it has told anything. -/
theorem kept_of_error {s t : Session} {e : RunFailure} (hr : x.run s = .error e t)
    (haccount : x.account s = []) (ht : t.Traced bs l) :
    Run.Kept bs (l ++ x.account s) (Q (l ++ x.account s)) (x.run s) := by
  rw [haccount, List.append_nil, hr]
  exact .error ht

namespace Keeps

/-! ### Elementary actions and entries -/

theorem silent {x : Run α} (h : Run.Keeps bs l (Q l) x) : Keeps bs l Q (silent x) := by
  intro s hs
  change Run.Kept bs (l ++ []) (Q (l ++ [])) (x s)
  rw [List.append_nil]
  exact h s hs

theorem pure {v : α} (h : Q l v) : Keeps bs l Q (Pure.pure v) := .silent (.pure h)

theorem throw (e : RunFailure) : Keeps bs l Q (Told.silent (MonadExcept.throw e)) :=
  .silent (.throw e)

theorem bind {g : α → Told β} {R : List Entry → β → Prop} (hx : Keeps bs l Q x)
    (hg : ∀ l' v, l ⊆ l' → Q l' v → Keeps bs l' R (g v)) : Keeps bs l R (x >>= g) := by
  intro s hs
  have hresult := hx s hs
  cases hr : x.run s with
  | error e t =>
    rw [hr] at hresult
    rw [account_bind_error hr, run_bind_error hr]
    cases hresult with
    | error ht => exact .error ht
  | ok v t =>
    rw [hr] at hresult
    rw [account_bind_ok hr, run_bind_ok hr, ← List.append_assoc]
    cases hresult with
    | ok ht hv => exact hg _ v (List.subset_append_left l _) hv t ht

/-- What comes first tells nothing. -/
theorem first {y : Run β} {R : β → Prop} {g : β → Told α} (hy : Run.Keeps bs l R y)
    (hg : ∀ v, R v → Keeps bs l Q (g v)) : Keeps bs l Q (Told.silent y >>= g) := by
  intro s hs
  have hresult := hy s hs
  cases hr : y s with
  | error e t =>
    rw [hr] at hresult
    rw [account_bind_error (x := Told.silent y) hr, run_bind_error (x := Told.silent y) hr]
    change Run.Kept bs (l ++ []) _ _
    rw [List.append_nil]
    cases hresult with
    | error ht => exact .error ht
  | ok v t =>
    rw [hr] at hresult
    rw [account_silent_bind hr, run_bind_ok (x := Told.silent y) hr]
    cases hresult with
    | ok ht hv => exact hg v hv t ht

theorem throw_bind (e : RunFailure) {g : β → Told α} :
    Keeps bs l Q (Told.silent (MonadExcept.throw e) >>= g) :=
  .first (R := fun _ => False) (.throw e) fun _ h => h.elim

theorem get {g : Session → Told α} (h : ∀ s, Keeps bs l Q (g s)) :
    Keeps bs l Q (Told.silent MonadState.get >>= g) :=
  fun s hs => h s s hs

theorem ite {c : Prop} [Decidable c] {y : Told α} (hx : Keeps bs l Q x) (hy : Keeps bs l Q y) :
    Keeps bs l Q (if c then x else y) := by
  split
  · exact hx
  · exact hy

/-- An entry that does not tell of a declaration of a function. -/
theorem telling {deed : α → Deed} (hx : Keeps bs l Q x)
    (hlater : ∀ l' l'' v, l' ⊆ l'' → Q l' v → Q l'' v) (hplain : ∀ v, ¬ (deed v).IsFunction)
    (hvalue : ∀ l' v, Q l' v → ∀ e w, deed v = .evaluated e w → w.Comes bs l') :
    Keeps bs l Q (telling a deed x) := by
  intro s hs
  have hresult := hx s hs
  change Run.Kept bs _ _ (x.run s)
  cases hr : x.run s with
  | error e t =>
    rw [hr] at hresult
    rw [account_telling_error hr]
    cases hresult with
    | error ht => exact .error ht
  | ok v t =>
    rw [hr] at hresult
    rw [account_telling_ok hr, ← List.append_assoc]
    cases hresult with
    | ok ht hv =>
      exact .ok (ht.tell_data (hplain v) (hvalue _ v hv))
        (hlater _ _ v (List.subset_append_left ..) hv)

theorem executed {stmt : Stmt} {x : Told Completion}
    (hplain : ¬ (Deed.executed stmt).IsFunction) (hx : Keeps bs l (Completion.Comes bs) x) :
    Keeps bs l (Completion.Comes bs) (Told.telling a (fun _ => .executed stmt) x) :=
  hx.telling (fun _ _ _ hl h => h.later hl) (fun _ => hplain) fun _ _ _ _ _ h => by cases h

theorem evaluated {e : Expr} {x : Told Value} (hx : Keeps bs l (Value.Comes bs) x) :
    Keeps bs l (Value.Comes bs) (Told.telling a (.evaluated e) x) :=
  hx.telling (fun _ _ _ hl h => h.later hl) (fun _ => id) fun _ _ h _ _ heq => by
    obtain ⟨rfl, rfl⟩ := Deed.evaluated.inj heq
    exact h

/-- The entry of a declaration of a function. -/
theorem declared (scope : Nat) (pos : Position) (name : String) (parameters : List String)
    (b : Block) : Keeps bs l (Completion.Comes bs)
      (Told.telling a (fun _ => .executed (.func pos name parameters b))
        (Told.silent (Run.declareFunction scope pos name parameters b))) := by
  intro s hs
  let x := Told.silent (Run.declareFunction scope pos name parameters b)
  let f : Closure := ⟨s.nextId, name, parameters, b, scope, pos⟩
  have hr : x.run s = _ := Run.declareFunction_eq scope pos name parameters b s
  by_cases hscope : scope < s.arena.size
  · rw [if_pos hscope] at hr
    cases hdefine : (s.arena.capture scope).define scope name
        ⟨.closure f, .func, pos⟩ with
    | ok arena =>
      rw [hdefine] at hr
      have ht := hs.declared (f := f) a rfl hdefine
      rw [account_telling_ok hr]
      exact hr.symm ▸ .ok ht Completion.comes_normal
    | error e =>
      -- a declaration that fails is not told, though the scope has been captured for it
      rw [hdefine] at hr
      have ht : Session.Traced bs l
          { s with arena := s.arena.capture scope, nextId := s.nextId + 1 } :=
        hs.advance ⟨Arena.advances_capture scope, Nat.le_succ s.nextId⟩
      exact kept_of_error hr (account_telling_error hr) ht
  · rw [if_neg hscope] at hr
    exact kept_of_error hr (account_telling_error hr) (hs.advance ⟨.refl _ _, Nat.le_succ _⟩)

/-! ### Scopes, calls and loops -/

/-- Whether closing succeeds or fails, functions can be traced back to what has been told before. -/
theorem closing {close : Run Unit} (hclose : ∀ l, Run.Keeps bs l (fun _ => True) close)
    (hx : Keeps bs l Q x) : Keeps bs l Q (Told.closing x close) := by
  intro s hs
  have hresult := hx s hs
  change Run.Kept bs (l ++ x.account s) (Q (l ++ x.account s)) (Run.closing x.run close s)
  rw [Run.closing]
  generalize x.run s = r at hresult
  cases hresult with
  | @ok v t ht hv =>
    have hclosed := hclose _ t ht
    dsimp only
    generalize close t = r at hclosed
    cases hclosed with
    | ok hu _ => exact .ok hu hv
    | error hu => exact .error hu
  | @error e t ht =>
    have hclosed := hclose _ t ht
    dsimp only
    generalize close t = r at hclosed
    cases hclosed with
    | ok hu _ => exact .error hu
    | error hu => exact .error hu

theorem inScope {parent : Nat} {x : Nat → Told α} (h : ∀ i, Keeps bs l Q (x i)) :
    Keeps bs l Q (Told.inScope cx parent x) :=
  .first (.openScope _) fun i _ => (h i).closing fun _ => .closeScope cx i

theorem inBody (id : Nat) (hx : Keeps bs l Q x) : Keeps bs l Q (Told.inBody id x) := by
  intro s hs
  have hclosed : Keeps bs l Q (Told.closing x (modify fun t => { t with active := s.active })) :=
    hx.closing fun _ => .still (fun _ => rfl) fun _ => rfl
  exact hclosed { s with active := some id } (hs.still rfl rfl)

theorem normal : Keeps bs l (Completion.Comes bs) (Pure.pure .normal) :=
  .pure Completion.comes_normal

theorem loop {test : Told Bool} {body : Told Completion} {update : Told Unit} (pos : Position)
    (htest : ∀ l, Keeps bs l (fun _ _ => True) test)
    (hbody : ∀ l, Keeps bs l (Completion.Comes bs) body)
    (hupdate : ∀ l, Keeps bs l (fun _ _ => True) update) (rounds : Nat) :
    Keeps bs l (Completion.Comes bs) (Told.loop cx pos test body update rounds) := by
  induction rounds generalizing l with
  | zero => exact .throw _
  | succ rounds ih =>
    -- every round starts from the account that the rounds before it have told
    refine (htest l).bind fun l' go _ _ => ?_
    cases go with
    | false => exact .normal
    | true =>
      refine .first (.step cx pos) fun _ _ => (hbody l').bind fun l' c _ hc => ?_
      cases c with
      | normal | continued _ => exact (hupdate l').bind fun _ _ _ _ => ih
      | returned v => exact .pure hc
      | broke _ => exact .normal

end Keeps

/-! ### Parts of runs -/

/-- Ways to execute statements after which functions can still be traced back. -/
def KeepsExecuting (bs : List Builtin) (execute : Nat → Stmt → Told Completion) : Prop :=
  ∀ l i s, Keeps bs l (Completion.Comes bs) (execute i s)

/-- Ways to evaluate expressions after which functions can still be traced back. -/
def KeepsEvaluating (bs : List Builtin) (evaluate : Nat → Expr → Told Value) : Prop :=
  ∀ l i e, Keeps bs l (Value.Comes bs) (evaluate i e)

namespace Keeps

variable {execute : Nat → Stmt → Told Completion} {evaluate : Nat → Expr → Told Value}
variable {i : Nat} {v : Value} {vs : List Value}

theorem callWith {x : Told Value} (pos : Position) (name : String) (arity : Option Nat)
    (count : Nat) (h : Keeps bs l (Value.Comes bs) x) :
    Keeps bs l (Value.Comes bs) (Told.callWith cx pos name arity count x) := by
  have hcounted : Keeps bs l (Value.Comes bs) (do
      Run.enterCall cx name pos
      Told.closing x Run.exitCall) :=
    .first (.enterCall cx name pos) fun _ _ => h.closing fun _ =>
      .still (fun _ => rfl) fun _ => rfl
  cases arity with
  | none => exact hcounted
  | some expected => exact .ite (.throw_bind _) hcounted

section Statements

variable (hx : KeepsExecuting bs execute)
include hx

theorem sequence (ss : List Stmt) :
    Keeps bs l (Completion.Comes bs) (Told.sequence (execute i) ss) := by
  induction ss generalizing l with
  | nil => exact .normal
  | cons stmt ss ih =>
    refine (hx l i stmt).bind fun l' c _ hc => ?_
    cases c with
    | normal => exact ih
    | returned _ | broke _ | continued _ => exact .pure hc

theorem block (b : Block) :
    Keeps bs l (Completion.Comes bs) (Told.block cx a execute i b) :=
  .executed id (.first (.reach cx i _) fun _ _ => .inScope fun _ => sequence hx b.body)

theorem forInit (init : ForInit) :
    Keeps bs l (fun _ _ => True) (Told.forInit (execute i) init) := by
  cases init with
  | none => exact .pure trivial
  | declare _ _ _ _ | expr _ _ => exact (hx l i _).bind fun _ _ _ _ => .pure trivial

theorem invoke (f : Closure) (hvs : ∀ v ∈ vs, v.Comes bs l) :
    Keeps bs l (Value.Comes bs) (Told.invoke cx execute f vs) := by
  refine .bind (Q := Completion.Comes bs) (.inScope fun i => ?_) fun l' c _ hc => ?_
  · exact .first (.bindParameters i f.pos f.parameters hvs) fun _ _ => sequence hx f.body.body
  · cases c with
    | normal => exact .silent (.pure trivial)
    | returned v => exact .silent (.pure (hc v rfl))
    | broke _ | continued _ => exact .throw _

theorem callValue (pos : Position) (callee : Value) (hvs : ∀ v ∈ vs, v.Comes bs l) :
    Keeps bs l (Value.Comes bs) (Told.callValue cx execute pos callee vs) := by
  cases callee with
  | closure f => exact callWith pos _ _ _ (invoke hx f hvs)
  | builtin f => exact callWith pos _ _ _ (.silent (.perform pos f.action vs))
  | null | bool _ | number _ | str _ => exact .throw _

end Statements

section Expressions

variable (he : KeepsEvaluating bs evaluate)
include he

theorem truth (e : Expr) : Keeps bs l (fun _ _ => True) (Told.truth (evaluate i) e) :=
  (he l i e).bind fun _ _ _ _ => .pure trivial

theorem orNull (e : Option Expr) :
    Keeps bs l (Value.Comes bs) (Told.orNull (evaluate i) e) := by
  cases e with
  | none => exact .pure trivial
  | some e => exact he l i e

theorem evaluateAll (es : List Expr) :
    Keeps bs l (fun l vs => ∀ v ∈ vs, v.Comes bs l) (Told.evaluateAll (evaluate i) es) := by
  induction es generalizing l with
  | nil => exact .pure fun _ hv => absurd hv List.not_mem_nil
  | cons e es ih =>
    -- the first value still comes from the account when the others have been told
    exact (he l i e).bind fun l v _ hv => ih.bind fun l' vs hl hvs =>
      .pure (List.forall_mem_cons.mpr ⟨hv.later hl, hvs⟩)

theorem foldBinary (hv : v.Comes bs l) (steps : List BinaryStep) :
    Keeps bs l (Value.Comes bs) (Told.foldBinary (evaluate i) v steps) := by
  induction steps generalizing l v with
  | nil => exact .pure hv
  | cons step steps ih =>
    refine (he l i step.right).bind fun l' r _ _ => ?_
    exact .first (.ofOperation fun _ => Operation.isData_binary) fun w hw => ih hw

theorem foldLogical (hv : v.Comes bs l) (steps : List LogicalStep) :
    Keeps bs l (Value.Comes bs) (Told.foldLogical (evaluate i) v steps) := by
  induction steps generalizing l v with
  | nil => exact .pure hv
  | cons step steps ih =>
    exact .ite (ih hv) ((he l i step.right).bind fun l' w _ hw => ih hw)

theorem declare (pos : Position) (kind : DeclarationKind) (name : String) (init : Option Expr) :
    Keeps bs l (Completion.Comes bs) (Told.declare (evaluate i) i pos kind name init) :=
  (orNull he init).bind fun _ _ _ hv => .first (.define i name _ pos hv) fun _ _ => .normal

theorem propertyValue (q : Property) (argument : Option Expr) :
    Keeps bs l (fun _ _ => True) (Told.propertyValue cx (evaluate i) q argument) := by
  change Keeps bs l _ (if q = .webPackage then Pure.pure (Data.bool true) else _)
  refine .ite (.pure trivial) ?_
  cases argument with
  | none => exact .pure trivial
  | some e =>
    refine (he l i e).bind fun _ v _ _ => ?_
    cases q.accepted? with
    | none => exact .throw _
    | some accepted =>
      exact .ite (.first (.ofFault v.display) fun _ _ => .pure trivial) (.throw _)

theorem style (reference : Expr) :
    Keeps bs l (fun _ _ => True) (Told.style (evaluate i) i reference) := by
  have hshown : Keeps bs l (fun _ _ => True)
      (do let v ← evaluate i reference; Run.ofFault v.display) :=
    (he l i reference).bind fun _ v _ _ => .silent (.ofFault v.display)
  cases reference with
  | ident pos name => exact .first (.isBound i name) fun _ _ => .ite hshown (.pure trivial)
  | _ => exact hshown

theorem expressionStatement (e : Expr) :
    Keeps bs l (Completion.Comes bs) (Told.expressionStatement (evaluate i) e) :=
  (he l i e).bind fun _ v _ _ => .get fun _ =>
    .ite (.first (.emit v) fun _ _ => .normal) .normal

theorem contentCall (hx : KeepsExecuting bs execute) (pos : Position) (arguments : List Expr) :
    Keeps bs l (Value.Comes bs)
      (Told.contentCall (evaluate i) (Told.callValue cx execute pos) pos arguments) := by
  refine .get fun _ => .ite (.throw_bind _) (.ite (.throw_bind _) ?_)
  refine (evaluateAll he arguments).bind fun l vs _ hvs => ?_
  -- what is emitted is the value of the call or the first argument itself
  have hemit : ∀ l' (v : Value), l ⊆ l' → v.Comes bs l' →
      Keeps bs l' (Value.Comes bs) (do Run.emit v; Pure.pure v) :=
    fun l' v _ hv => .first (.emit v) fun _ _ => .pure hv
  have hhead : (vs.headD .null).Comes bs l := by
    cases vs with
    | nil => trivial
    | cons v vs => exact hvs v List.mem_cons_self
  have htail : ∀ v ∈ vs.tail, v.Comes bs l := fun v hv => hvs v (List.mem_of_mem_tail hv)
  have hcall : Keeps bs l (Value.Comes bs)
      (Told.callValue cx execute pos (vs.headD .null) vs.tail >>= fun v => do
        Run.emit v; Pure.pure v) :=
    (callValue hx pos _ htail).bind hemit
  dsimp only
  generalize vs.headD .null = v at hhead hcall ⊢
  cases v with
  | closure _ | builtin _ => exact hcall
  | null | bool _ | number _ | str _ => exact .ite (.bind (.pure hhead) hemit) (.throw_bind _)

theorem otherwise {l : List Entry} (hx : KeepsExecuting bs execute) (rest : Else) :
    Keeps bs l (Completion.Comes bs)
      (Told.otherwise cx a i (Told.truth (evaluate i)) (Told.block cx a execute i) rest) := by
  cases rest with
  | none => exact .normal
  | block b => exact block hx b
  | elseIf pos test b rest =>
    refine .executed id (.first (.reach cx i _) fun _ _ => (truth he test).bind fun _ _ _ _ => ?_)
    exact .ite (block hx b) (otherwise hx rest)

end Expressions

end Keeps

/-! ### The recursion -/

section Recursion

variable {allowance : Nat} (hx : ∀ a, KeepsExecuting bs (execute cx allowance a))
variable (he : ∀ a, KeepsEvaluating bs (evaluate cx allowance a))
include hx he

theorem keepsEvaluating_succ (a : Surroundings) :
    KeepsEvaluating bs (evaluate cx (allowance + 1) a) := by
  intro l i e
  rw [evaluate.eq_def]
  refine .evaluated (.first (.visit cx i _) fun _ _ => ?_)
  cases e with
  | ident pos name => exact .silent (.lookup i name pos)
  | number _ _ _ | string _ _ | bool _ _ | null _ => exact .pure trivial
  | binary pos op l r => exact (he a _ i _).bind fun _ _ _ hv => .foldBinary (he a) hv _
  | logical pos op l r => exact (he a _ i _).bind fun _ _ _ hv => .foldLogical (he a) hv _
  | unary pos op e =>
    exact (he a _ i e).bind fun _ _ _ _ => .silent (.ofOperation fun _ => Operation.isData_unary)
  | assign pos target e =>
    exact (he a _ i e).bind fun _ _ _ hv => .first (.assign i target pos hv) fun _ _ => .pure hv
  | call pos callee arguments =>
    refine (he a _ i callee).bind fun _ f _ _ => ?_
    exact (Keeps.evaluateAll (he a) arguments).bind fun _ _ _ hvs =>
      .callValue (hx a.callee) pos f hvs
  | content pos arguments => exact .contentCall (he a) (hx a.callee) pos arguments

theorem keepsExecuting_succ (a : Surroundings) :
    KeepsExecuting bs (execute cx (allowance + 1) a) := by
  intro l i stmt
  have hexecuted : ∀ {x : Told Completion}, ¬ (Deed.executed stmt).IsFunction →
      Keeps bs l (Completion.Comes bs) x → Keeps bs l (Completion.Comes bs)
        (Told.telling a (fun _ => .executed stmt) do Run.reach cx i stmt; x) :=
    fun hplain h => .executed hplain (.first (.reach cx i stmt) fun _ _ => h)
  cases stmt with
  | block b => exact .block (hx a) b
  | declare pos kind name init => exact hexecuted id (.declare (he a) pos kind name init)
  | func pos name parameters b =>
    -- the step is counted before there is a function, so the entry is moved behind it
    change Keeps bs l _ (Told.telling a _ (Told.silent (Run.reach cx i _) >>= fun _ => _))
    rw [telling_silent_bind]
    exact .first (.reach cx i _) fun _ _ => .declared i pos name parameters b
  | property pos q argument =>
    refine hexecuted id ((Keeps.propertyValue (he a) q argument).bind fun _ v _ _ => ?_)
    exact .first (.setProperty q v pos) fun _ _ => .normal
  | body pos reference ss =>
    refine hexecuted id ((Keeps.style (he a) reference).bind fun _ text _ _ => ?_)
    refine .first (.openBody text pos) fun id _ => .inScope fun j => .inBody id ?_
    exact .sequence (hx a.content) ss
  | ifElse pos test b rest => exact .otherwise (he a) (hx a) (.elseIf pos test b rest)
  | «while» pos test b =>
    exact hexecuted id (.loop pos (fun _ => .truth (he a) test) (fun _ => .block (hx a.round) b)
      (fun _ => .pure trivial) _)
  | «for» pos init test update b =>
    refine hexecuted id (.inScope fun j => (Keeps.forInit (hx a) init).bind fun _ _ _ _ => ?_)
    refine .loop pos (fun _ => ?_) (fun _ => .block (hx a.round) b) (fun _ => ?_) _
    · cases test with
      | none => exact .pure trivial
      | some test => exact .truth (he a) test
    · cases update with
      | none => exact .pure trivial
      | some update => exact (he a _ j update).bind fun _ _ _ _ => .pure trivial
  | «return» pos value =>
    exact hexecuted id ((Keeps.orNull (he a) value).bind fun _ _ _ hv =>
      .pure (Completion.comes_returned hv))
  | «break» pos | «continue» pos => exact hexecuted id (.pure fun _ h => by cases h)
  | expr pos e => exact hexecuted id (.expressionStatement (he a) e)

end Recursion

/-- After statements have been executed and expressions evaluated, functions can still be traced
back. -/
theorem keepsExecuting_keepsEvaluating (bs : List Builtin) (cx : Context) (allowance : Nat) :
    (∀ a, KeepsExecuting bs (execute cx allowance a)) ∧
      ∀ a, KeepsEvaluating bs (evaluate cx allowance a) := by
  -- statements contain expressions and calls execute statements, so both go together
  induction allowance with
  | zero =>
    refine ⟨fun a l i stmt => ?_, fun a l i e => ?_⟩
    · rw [execute]
      exact .throw _
    · rw [evaluate.eq_def]
      exact .throw _
  | succ allowance ih =>
    exact ⟨keepsExecuting_succ ih.1 ih.2, keepsEvaluating_succ ih.1 ih.2⟩

theorem keeps_program (cx : Context) (allowance : Nat) (p : Program) (i : Nat) :
    Keeps bs l (fun _ _ => True) (program cx allowance p i) := by
  refine .first (.visit cx i _) fun _ _ => .first (.step cx p.pos) fun _ _ => ?_
  have hx := (keepsExecuting_keepsEvaluating bs cx allowance).1 {}
  refine (Keeps.sequence hx p.body).bind fun _ c _ _ => ?_
  cases c with
  | normal | returned _ => exact .pure trivial
  | broke _ | continued _ => exact .throw _

end Told

/-! ## Runs -/

/-- Functions can be traced back through a run. -/
theorem Session.Traced.run {bs : List Builtin} {l : List Entry} {s : Session}
    (h : s.Traced bs l) (cx : Context) (allowance : Nat) (path : String) (p : Program) :
    (Session.run cx allowance path p s).2.Traced (bs ++ Builtin.installed s.nextId)
      (l ++ s.account cx allowance p) := by
  have hstart : Traced bs l { s with trace := #[], visits := #[] } := h.still rfl rfl
  have hkeeps := Told.keeps_program cx allowance p (s.arena.size + 1) _ hstart.opened
  rw [← account_eq, Told.run_program] at hkeeps
  rw [Session.run, Run.start_eq]
  dsimp only
  generalize Run.program cx allowance p _ _ = r at hkeeps
  cases hkeeps with
  | ok ht _ => exact ht
  | error ht => exact ht

end MiniApp
