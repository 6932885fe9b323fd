import MiniApp.Proofs.Eval.Calm
import MiniApp.Proofs.Eval.Evolution

/-!
# Relations that runs respect

A relation between actions holds of the runs of one program in two contexts once it is closed under
everything that runs are put together from. Calm actions need no more than one clause. The others
are counting, printing, emitting content and declaring properties; they and the ways of putting
actions together are what a `Congruence` lists.

A relation may hold only of actions that are begun outside the body section, or only of those begun
inside; whether the section is being executed is the mode of a run.

The scopes that runs enter are there to be left, so a relation need not be closed under failures to
leave them. A builtin function acts on as many arguments as it takes, so neither need it be closed
under the fault of a wrong number.

## Main definitions

* `Context.Compatible`: contexts that differ in nothing but limits and patience
* `Congruence`: relations that are closed under what runs are put together from

## Main results

* `Congruence.execute_evaluate`: executing and evaluating are related
* `Congruence.start`: the runs of one program are related
-/

namespace MiniApp

/-- Contexts that differ in nothing but their limits and their patience. -/
structure Context.Compatible (left right : Context) : Prop where
  recording : left.recording = right.recording
  reclamation : left.reclamation = right.reclamation
  defaultWebVersion : left.settings.defaultWebVersion = right.settings.defaultWebVersion

theorem Context.Compatible.refl (cx : Context) : cx.Compatible cx := ⟨rfl, rfl, rfl⟩

/-- A relation between actions in two contexts that is closed under everything that runs are put
together from. The mode tells whether an action is begun in the body section. -/
structure Congruence where
  left : Context
  right : Context
  Rel : Bool → {α : Type} → Run α → Run α → Prop
  contexts : left.Compatible right
  calm {b : Bool} {α : Type} {x : Run α} : x.Calm → Rel b x x
  bind {b : Bool} {α β : Type} {x y : Run α} {f g : α → Run β} :
    Rel b x y → (∀ a, Rel b (f a) (g a)) → Rel b (x >>= f) (y >>= g)
  get {b : Bool} {α : Type} {f g : Session → Run α} :
    (∀ s, s.inBody = b → Rel b (f s) (g s)) → Rel b (MonadState.get >>= f) (MonadState.get >>= g)
  leaving {b : Bool} {α : Type} {x y : Run α} {change : Session → Session} :
    (∀ s : Session, s.Keeps (change s)) → Rel b x y →
    Rel b (Run.leaving x change) (Run.leaving y change)
  step {b : Bool} (pos : Position) : Rel b (Run.step left pos) (Run.step right pos)
  call {b : Bool} {α : Type} {x y : Run α} (name : String) (pos : Position) : Rel b x y →
    Rel b (do Run.enterCall left name pos; Run.closing x Run.exitCall)
      (do Run.enterCall right name pos; Run.closing y Run.exitCall)
  printed {b : Bool} (pos : Position) (text : String) :
    Rel b (Run.note (.printed pos text)) (Run.note (.printed pos text))
  setProperty {b : Bool} (p : Property) (value : Data) (pos : Position) :
    Rel b (Run.setProperty p value pos) (Run.setProperty p value pos)
  emit (v : Value) : Rel true (Run.emit v) (Run.emit v)
  content {b : Bool} {α : Type} {x y : Nat → Run α} (style : String) (pos : Position)
    (scope : Nat) : (∀ i, Rel true (x i) (y i)) →
    Rel b
      (do let id ← Run.openBody style pos; Run.enclosed left scope fun i => Run.inBody id (x i))
      (do let id ← Run.openBody style pos; Run.enclosed left scope fun i => Run.inBody id (y i))
  loop {b : Bool} {test test' : Run Bool} {body body' : Run Completion}
    {update update' : Run Unit} (pos : Position) :
    Rel b test test' → Rel b body body' → Rel b update update' →
    Rel b (Run.loop left pos test body update left.patience)
      (Run.loop right pos test' body' update' right.patience)

namespace Congruence

variable (C : Congruence) {b : Bool} {i : Nat} {α : Type}

/-- Ways to execute statements that are related in every mode and scope, and let sessions evolve. -/
structure Executes (x y : Nat → Stmt → Run Completion) : Prop where
  rel (b : Bool) (i : Nat) (s : Stmt) : C.Rel b (x i s) (y i s)
  left : Run.Evolves.Executes C.left x
  right : Run.Evolves.Executes C.right y

/-- Ways to evaluate expressions that are related in every mode and scope, and let sessions evolve. -/
structure Evaluates (e f : Nat → Expr → Run Value) : Prop where
  rel (b : Bool) (i : Nat) (c : Expr) : C.Rel b (e i c) (f i c)
  left : Run.Evolves.Evaluates C.left e
  right : Run.Evolves.Evaluates C.right f

theorem pure (a : α) : C.Rel b (Pure.pure a) (Pure.pure a) := C.calm (.pure a)

theorem reject (d : Diagnostic) : C.Rel b (Run.reject d : Run α) (Run.reject d) :=
  C.calm (.reject d)

theorem reject_bind {β : Type} {f g : α → Run β} (d : Diagnostic) :
    C.Rel b (Run.reject d >>= f) (Run.reject d >>= g) :=
  C.reject d

theorem ite {c : Prop} [Decidable c] {x y x' y' : Run α} (h : C.Rel b x y) (h' : C.Rel b x' y') :
    C.Rel b (if c then x else x') (if c then y else y') := by
  split
  · exact h
  · exact h'

theorem visit (scope : Nat) (n : Node) :
    C.Rel b (Run.visit C.left scope n) (Run.visit C.right scope n) := by
  have heq : Run.visit C.right scope n = Run.visit C.left scope n := by
    rw [Run.visit, Run.visit, C.contexts.recording]
  rw [heq]
  exact C.calm (.visit _ _ _)

theorem reach (scope : Nat) (s : Stmt) :
    C.Rel b (Run.reach C.left scope s) (Run.reach C.right scope s) :=
  C.bind (C.visit scope _) fun _ => C.step s.pos

/-- Scopes are left alike in both contexts. -/
theorem enclosed_eq (parent : Nat) (x : Nat → Run α) :
    Run.enclosed C.right parent x = Run.enclosed C.left parent x := by
  have hclosed : Session.closed C.right = Session.closed C.left := by
    funext i s
    rw [Session.closed, Session.closed, C.contexts.reclamation]
  rw [Run.enclosed, Run.enclosed, hclosed]

theorem inScope {x y : Nat → Run α} (parent : Nat) (hx : ∀ i, (x i).KeepsOpen)
    (hy : ∀ i, (y i).KeepsOpen) (h : ∀ i, C.Rel b (x i) (y i)) :
    C.Rel b (Run.inScope C.left parent x) (Run.inScope C.right parent y) := by
  rw [Run.inScope_eq parent hx, Run.inScope_eq parent hy, C.enclosed_eq]
  exact C.bind (C.calm (.openScope _)) fun i => C.leaving (fun _ => ⟨rfl, rfl, rfl, rfl⟩) (h i)

/-! ### Parts of runs -/

section Parts

variable {C} {x y : Nat → Stmt → Run Completion} {e f : Nat → Expr → Run Value}

section Statements

variable (hx : C.Executes x y)
include hx

theorem sequence (ss : List Stmt) : C.Rel b (Run.sequence (x i) ss) (Run.sequence (y i) ss) := by
  induction ss with
  | nil => exact C.pure _
  | cons s ss ih =>
    refine C.bind (hx.rel b i s) fun c => ?_
    cases c with
    | normal => exact ih
    | returned _ | broke _ | continued _ => exact C.pure _

theorem block (i : Nat) (c : Block) :
    C.Rel b (Run.block C.left x i c) (Run.block C.right y i c) :=
  C.bind (C.reach i _) fun _ => C.inScope i (fun j => .sequence hx.left j c.body)
    (fun j => .sequence hx.right j c.body) fun _ => sequence hx c.body

theorem forInit (init : ForInit) :
    C.Rel b (Run.forInit (x i) init) (Run.forInit (y i) init) := by
  cases init with
  | none => exact C.pure _
  | declare _ _ _ _ | expr _ _ => exact C.bind (hx.rel b i _) fun _ => C.pure _

theorem invoke (g : Closure) (vs : List Value) :
    C.Rel b (Run.invoke C.left x g vs) (Run.invoke C.right y g vs) := by
  refine C.bind (C.inScope g.frame (fun i => .call hx.left i g vs) (fun i => .call hx.right i g vs)
    fun i => ?_) fun c => C.calm (.callResult c)
  exact C.bind (C.calm (.bindParameters _ _ _ _)) fun _ => sequence hx g.body.body

end Statements

section Expressions

variable (he : C.Evaluates e f)
include he

theorem truth (c : Expr) : C.Rel b (Run.truth (e i) c) (Run.truth (f i) c) :=
  C.bind (he.rel b i c) fun _ => C.pure _

theorem orNull (c : Option Expr) : C.Rel b (Run.orNull (e i) c) (Run.orNull (f i) c) := by
  cases c with
  | none => exact C.pure _
  | some c => exact he.rel b i c

theorem evaluateAll (cs : List Expr) :
    C.Rel b (Run.evaluateAll (e i) cs) (Run.evaluateAll (f i) cs) := by
  induction cs with
  | nil => exact C.pure _
  | cons c cs ih => exact C.bind (he.rel b i c) fun _ => C.bind ih fun _ => C.pure _

theorem foldBinary (v : Value) (steps : List BinaryStep) :
    C.Rel b (Run.foldBinary (e i) v steps) (Run.foldBinary (f i) v steps) := by
  induction steps generalizing v with
  | nil => exact C.pure v
  | cons s steps ih =>
    refine C.bind (he.rel b i s.right) fun r => ?_
    exact C.bind (C.calm (.binary _ _ _ _)) ih

theorem foldLogical (v : Value) (steps : List LogicalStep) :
    C.Rel b (Run.foldLogical (e i) v steps) (Run.foldLogical (f i) v steps) := by
  induction steps generalizing v with
  | nil => exact C.pure v
  | cons s steps ih =>
    -- a right operand is evaluated only if the value so far does not decide
    exact C.ite (ih v) (C.bind (he.rel b i s.right) ih)

theorem declare (scope : Nat) (pos : Position) (kind : DeclarationKind) (name : String)
    (init : Option Expr) :
    C.Rel b (Run.declare (e i) scope pos kind name init)
      (Run.declare (f i) scope pos kind name init) :=
  C.bind (orNull he init) fun _ => C.calm (.bind (.define _ _ _ _ _) fun _ => .pure _)

theorem propertyValue (p : Property) (argument : Option Expr) :
    C.Rel b (Run.propertyValue C.left (e i) p argument)
      (Run.propertyValue C.right (f i) p argument) := by
  rw [Run.propertyValue.eq_def, Run.propertyValue.eq_def]
  by_cases hflag : p = .webPackage
  · rw [if_pos hflag, if_pos hflag]
    exact C.pure _
  · rw [if_neg hflag, if_neg hflag]
    cases argument with
    | none =>
      dsimp only
      rw [C.contexts.defaultWebVersion]
      exact C.pure _
    | some c =>
      refine C.bind (he.rel b i c) fun v => ?_
      -- every other property has an entry in the table
      obtain ⟨accepted, haccepted⟩ := Property.exists_accepted? hflag
      rw [haccepted]
      exact C.ite (C.calm (.bind (.display v) fun _ => .pure _)) (C.reject _)

theorem style (scope : Nat) (reference : Expr) :
    C.Rel b (Run.style (e i) scope reference) (Run.style (f i) scope reference) := by
  have hshown : C.Rel b (do Run.ofFault (← e i reference).display : Run String)
      (do Run.ofFault (← f i reference).display) :=
    C.bind (he.rel b i reference) fun v => C.calm (.display v)
  cases reference with
  | ident pos name =>
    exact C.bind (C.calm (.isBound _ _)) fun _ => C.ite hshown (C.pure _)
  | _ => exact hshown

theorem expressionStatement (c : Expr) :
    C.Rel b (Run.expressionStatement (e i) c) (Run.expressionStatement (f i) c) := by
  refine C.bind (he.rel b i c) fun v => C.get fun s hs => ?_
  -- content is emitted in the body section only
  cases b with
  | true => exact C.ite (C.bind (C.emit v) fun _ => C.pure _) (C.pure _)
  | false =>
    rw [hs]
    exact C.pure _

end Expressions

variable (hx : C.Executes x y) (he : C.Evaluates e f)

include hx he in
theorem otherwise (rest : Else) :
    C.Rel b (Run.otherwise C.left i (Run.truth (e i)) (Run.block C.left x i) rest)
      (Run.otherwise C.right i (Run.truth (f i)) (Run.block C.right y i) rest) := by
  cases rest with
  | none => exact C.pure _
  | block c => exact block hx i c
  | elseIf _ test c rest =>
    refine C.bind (C.reach i _) fun _ => C.bind (truth he test) fun _ => ?_
    exact C.ite (block hx i c) (otherwise rest)

/-- A builtin function acts on as many arguments as it takes. -/
theorem perform (pos : Position) {action : Action} {vs : List Value}
    (h : ∀ n ∈ action.arity?, n = vs.length) :
    C.Rel b (Run.perform pos action vs) (Run.perform pos action vs) := by
  cases action with
  | print =>
    refine C.bind (C.calm (.displayAll vs)) fun _ => ?_
    exact C.bind (C.printed pos _) fun _ => C.pure _
  | len =>
    obtain ⟨v, rfl⟩ := List.length_eq_one_iff.mp (h 1 rfl).symm
    cases v with
    | str s => exact C.pure _
    | null | bool _ | number _ | closure _ | builtin _ => exact C.reject _

theorem callWith {a a' : Run Value} (pos : Position) (name : String) (arity : Option Nat)
    (count : Nat) (h : (∀ n ∈ arity, n = count) → C.Rel b a a') :
    C.Rel b (Run.callWith C.left pos name arity count a)
      (Run.callWith C.right pos name arity count a') := by
  cases arity with
  | none => exact C.call name pos (h nofun)
  | some expected =>
    rw [Run.callWith, Run.callWith]
    by_cases hcount : expected = count
    · rw [if_neg (not_not.mpr hcount), if_neg (not_not.mpr hcount)]
      exact C.call name pos (h fun n hn => Option.some.inj hn ▸ hcount)
    · rw [if_pos hcount, if_pos hcount]
      exact C.reject_bind _

include hx in
theorem callValue (pos : Position) (callee : Value) (vs : List Value) :
    C.Rel b (Run.callValue C.left x pos callee vs) (Run.callValue C.right y pos callee vs) := by
  cases callee with
  | closure g =>
    exact callWith pos g.name (some g.parameters.length) vs.length fun _ => invoke hx g vs
  | builtin g => exact callWith pos g.name g.action.arity? vs.length (perform pos)
  | null | bool _ | number _ | str _ => exact C.reject _

include hx he in
theorem contentCall (pos : Position) (arguments : List Expr) :
    C.Rel b (Run.contentCall (e i) (Run.callValue C.left x pos) pos arguments)
      (Run.contentCall (f i) (Run.callValue C.right y pos) pos arguments) := by
  refine C.get fun s hs => ?_
  rw [hs]
  cases b with
  | false => exact C.reject_bind _
  | true =>
    refine C.ite (C.reject_bind _) (C.ite (C.reject_bind _) ?_)
    refine C.bind (evaluateAll he arguments) fun vs => ?_
    have hemit : ∀ v, C.Rel true (do Run.emit v; return v) (do Run.emit v; return v) := fun v =>
      C.bind (C.emit v) fun _ => C.pure v
    have hcall := C.bind (callValue hx (b := true) pos (vs.headD .null) vs.tail) hemit
    generalize vs.headD .null = v at hcall ⊢
    cases v with
    | closure _ | builtin _ => exact hcall
    | null | bool _ | number _ | str _ =>
      exact C.ite (C.bind (C.pure _) hemit) (C.reject_bind _)

end Parts

/-! ### The recursion -/

variable {C}

theorem executes {m n : Nat}
    (h : ∀ b i s, C.Rel b (Run.execute C.left m i s) (Run.execute C.right n i s)) :
    C.Executes (Run.execute C.left m) (Run.execute C.right n) :=
  ⟨h, (Run.Evolves.execute_evaluate C.left m).1, (Run.Evolves.execute_evaluate C.right n).1⟩

theorem evaluates {m n : Nat}
    (h : ∀ b i c, C.Rel b (Run.evaluate C.left m i c) (Run.evaluate C.right n i c)) :
    C.Evaluates (Run.evaluate C.left m) (Run.evaluate C.right n) :=
  ⟨h, (Run.Evolves.execute_evaluate C.left m).2, (Run.Evolves.execute_evaluate C.right n).2⟩

variable {m n : Nat} (hx : C.Executes (Run.execute C.left m) (Run.execute C.right n))
variable (he : C.Evaluates (Run.evaluate C.left m) (Run.evaluate C.right n))

include hx he in
theorem evaluates_succ :
    C.Evaluates (Run.evaluate C.left (m + 1)) (Run.evaluate C.right (n + 1)) := by
  refine evaluates fun b i c => ?_
  rw [Run.evaluate.eq_def, Run.evaluate.eq_def]
  refine C.bind (C.visit i _) fun _ => ?_
  cases c with
  | ident pos name => exact C.calm (.lookup _ _ _)
  | number _ _ _ | string _ _ | bool _ _ | null _ => exact C.pure _
  | binary pos op l r => exact C.bind (he.rel b i _) fun _ => foldBinary he _ _
  | logical pos op l r => exact C.bind (he.rel b i _) fun _ => foldLogical he _ _
  | unary pos op c =>
    exact C.bind (he.rel b i c) fun v => C.calm (.unary pos op v)
  | assign pos target c =>
    exact C.bind (he.rel b i c) fun v => C.calm (.bind (.assign _ _ _ _) fun _ => .pure _)
  | call pos callee arguments =>
    exact C.bind (he.rel b i callee) fun _ => C.bind (evaluateAll he arguments) fun _ =>
      callValue hx pos _ _
  | content pos arguments => exact contentCall hx he pos arguments

include hx he in
theorem executes_succ :
    C.Executes (Run.execute C.left (m + 1)) (Run.execute C.right (n + 1)) := by
  refine executes fun b i s => ?_
  have hreach := C.reach (b := b) i s
  cases s with
  | block c => exact block hx i c
  | declare pos kind name init => exact C.bind hreach fun _ => declare he ..
  | func pos name parameters c => exact C.bind hreach fun _ => C.calm (.declareFunction _ _ _ _ _)
  | property pos p argument =>
    exact C.bind hreach fun _ => C.bind (propertyValue he p argument) fun v =>
      C.bind (C.setProperty p v pos) fun _ => C.pure _
  | body pos reference ss =>
    refine C.bind hreach fun _ => C.bind (style he i reference) fun text => ?_
    have hleft (id : Nat) : Run.inScope C.left i _ = Run.enclosed C.left i _ :=
      Run.inScope_eq i fun j => .content hx.left j id ss
    have hright (id : Nat) : Run.inScope C.right i _ = Run.enclosed C.right i _ :=
      Run.inScope_eq i fun j => .content hx.right j id ss
    simp only [hleft, hright, C.enclosed_eq]
    exact C.content text pos i fun _ => sequence hx ss
  | ifElse pos test c rest => exact otherwise hx he (.elseIf pos test c rest)
  | «while» pos test c =>
    exact C.bind hreach fun _ => C.loop pos (truth he test) (block hx i c) (C.pure _)
  | «for» pos init test update c =>
    refine C.bind hreach fun _ => C.inScope i
      (fun j => .clauses hx.left j he.left pos init test update c)
      (fun j => .clauses hx.right j he.right pos init test update c) fun j =>
        C.bind (forInit hx init) fun _ => C.loop pos ?_ (block hx j c) ?_
    · cases test with
      | none => exact C.pure _
      | some test => exact truth he test
    · cases update with
      | none => exact C.pure _
      | some update => exact C.bind (he.rel b j update) fun _ => C.pure _
  | «return» pos value => exact C.bind hreach fun _ => C.bind (orNull he value) fun _ => C.pure _
  | «break» pos | «continue» pos => exact C.bind hreach fun _ => C.pure _
  | expr pos c => exact C.bind hreach fun _ => expressionStatement he c

variable (C)

/-- Executing is related to executing, and evaluating to evaluating, whatever the allowance. -/
theorem execute_evaluate (allowance : Nat) :
    C.Executes (Run.execute C.left allowance) (Run.execute C.right allowance) ∧
      C.Evaluates (Run.evaluate C.left allowance) (Run.evaluate C.right allowance) := by
  -- statements contain expressions and calls execute statements, so both go together
  induction allowance with
  | zero =>
    refine ⟨executes fun _ _ _ => ?_, evaluates fun _ _ _ => ?_⟩
    · rw [Run.execute, Run.execute]
      exact C.calm (.throw .nestedTooDeeply)
    · rw [Run.evaluate.eq_def, Run.evaluate.eq_def]
      exact C.calm (.throw .nestedTooDeeply)
  | succ allowance ih => exact ⟨executes_succ ih.1 ih.2, evaluates_succ ih.1 ih.2⟩

theorem program (allowance : Nat) (p : Program) (scope : Nat) :
    C.Rel b (Run.program C.left allowance p scope) (Run.program C.right allowance p scope) := by
  refine C.bind (C.visit scope _) fun _ => C.bind (C.step p.pos) fun _ => ?_
  refine C.bind (sequence (C.execute_evaluate allowance).1 p.body) fun c => ?_
  cases c with
  | normal | returned _ => exact C.pure _
  | broke _ | continued _ => exact C.reject _

/-- The runs of one program are related, from the opening of the outermost scope on. -/
theorem start (allowance : Nat) (p : Program) :
    C.Rel b (Run.start C.left allowance p) (Run.start C.right allowance p) := by
  refine C.bind (C.calm (.openScope _)) fun root => ?_
  refine C.bind (C.calm (.install root _ _)) fun _ => ?_
  refine C.bind (C.calm (.install root _ _)) fun _ => ?_
  exact C.bind (C.calm (.openScope _)) fun scope => C.program allowance p scope

end Congruence

end MiniApp
