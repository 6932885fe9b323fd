import MiniApp.Proofs.Eval.Pairing

/-!
# Lockstep

Two runs that have everything in common that a lawful pairing asks for keep it: statement by
statement and expression by expression they do the same, and in the end they both succeed or both
fail. What the parts of a run do is shown first, for any two ways to execute statements and to
evaluate expressions that agree; the recursion then ties them together.

## Main definitions

* `Pairing.Executes`, `Pairing.Evaluates`: ways to execute and to evaluate that agree

## Main results

* `Pairing.Lawful.lockstep`: executing and evaluating agree under a lawful pairing
-/

namespace MiniApp.Pairing

variable {R : Pairing}

/-- Ways to execute statements that agree wherever the scopes belong together. -/
def Executes (R : Pairing) (x y : Nat → Stmt → Run Completion) : Prop :=
  ∀ {w : R.World} {layers : List Layer} {i j : Nat} {s t : Stmt}, R.scope w layers i j →
    R.known layers (.stmt s) → s.Alike R.leeway t → R.Agree w R.Completions (x i s) (y j t)

/-- Ways to evaluate expressions that agree wherever the scopes belong together. -/
def Evaluates (R : Pairing) (x y : Nat → Expr → Run Value) : Prop :=
  ∀ {w : R.World} {layers : List Layer} {i j : Nat} {e f : Expr}, R.scope w layers i j →
    R.known layers (.expr e) → e.Alike R.leeway f → R.Agree w R.Values (x i e) (y j f)

variable {w w' : R.World} {layers : List Layer} {i j : Nat} {p q : Position}
variable {x y : Nat → Stmt → Run Completion} {e f : Nat → Expr → Run Value}

theorem Evaluates.truth (he : R.Evaluates e f) {c d : Expr} (hscope : R.scope w layers i j)
    (hknown : R.known layers (.expr c)) (h : c.Alike R.leeway d) :
    R.Agree w (fun _ => (· = ·)) (Run.truth (e i) c) (Run.truth (f j) d) :=
  (he hscope hknown h).bind fun _ _ _ _ hv => .pure hv.isTruthy

theorem Evaluates.orNull (he : R.Evaluates e f) {c d : Option Expr} (hscope : R.scope w layers i j)
    (hknown : ∀ e ∈ c, R.known layers (.expr e)) (h : Option.Rel (Expr.Alike R.leeway) c d) :
    R.Agree w R.Values (Run.orNull (e i) c) (Run.orNull (f j) d) := by
  cases h with
  | none => exact .pure .null
  | some h => exact he hscope (hknown _ rfl) h

theorem Executes.forInit {init init' : ForInit} (hx : R.Executes x y)
    (hscope : R.scope w layers i j)
    (hknown : ∀ s ∈ init.stmts, R.known layers (.stmt s)) (h : init.Alike R.leeway init') :
    R.Agree w R.Done (Run.forInit (x i) init) (Run.forInit (y j) init') := by
  cases h with
  | none => exact .pure trivial
  | declare hp h =>
    apply (hx hscope (hknown _ List.mem_cons_self) (.declare hp h)).bind
    intro _ _ _ _ _
    exact .pure trivial
  | expr hp h =>
    apply (hx hscope (hknown _ List.mem_cons_self) (.expr hp h)).bind
    intro _ _ _ _ _
    exact .pure trivial

theorem displayAll_eq {vs us : List Value} (h : List.Forall₂ (R.Values w) vs us) :
    Run.displayAll vs = Run.displayAll us := by
  induction h with
  | nil => rfl
  | cons hv _ ih => rw [Run.displayAll, Run.displayAll, hv.display, ih]

namespace Lawful

variable (hR : R.Lawful)
include hR

theorem values_mono {v u : Value} (hw : w ≤ w') (h : R.Values w v u) : R.Values w' v u :=
  h.mono fun _ _ _ => hR.captured_mono hw

theorem agree_reject {α β : Type} {Q : R.World → α → β → Prop} (trouble : Trouble)
    (message : String) (htrouble : trouble.recalls = false) (hp : R.leeway.place p q) :
    R.Agree w Q (Run.reject (.located p trouble message))
      (Run.reject (.located q trouble message)) :=
  .throw (hR.rejected trouble message htrouble hp)

theorem agree_reject_bind {α β γ : Type} {Q : R.World → α → β → Prop} {k : γ → Run α}
    {k' : γ → Run β} (trouble : Trouble) (message : String) (htrouble : trouble.recalls = false)
    (hp : R.leeway.place p q) :
    R.Agree w Q (Run.reject (.located p trouble message) >>= k)
      (Run.reject (.located q trouble message) >>= k') :=
  Agree.bind (Q := fun _ _ _ => False) (hR.agree_reject trouble message htrouble hp)
    fun _ _ _ _ h => h.elim

theorem agree_ofFault {α : Type} (a : Except Fault α) :
    R.Agree w (fun _ => (· = ·)) (Run.ofFault a) (Run.ofFault a) := by
  cases a with
  | ok a => exact .pure rfl
  | error f => exact .throw (hR.fault f)

theorem agree_get :
    R.Agree w (fun _ s t => s.inBody = t.inBody) (get : Run Session) (get : Run Session) :=
  fun _ _ hs => .ok le_rfl hs (hR.inBody_eq hs)

/-! ## Expressions -/

section Expressions

variable (he : R.Evaluates e f)
include he

theorem agree_evaluateAll {cs ds : List Expr} (hscope : R.scope w layers i j)
    (hknown : ∀ e ∈ cs, R.known layers (.expr e)) (h : List.Forall₂ (Expr.Alike R.leeway) cs ds) :
    R.Agree w (fun w => List.Forall₂ (R.Values w)) (Run.evaluateAll (e i) cs)
      (Run.evaluateAll (f j) ds) := by
  -- the world grows with every value, and the values before have to follow it
  induction h generalizing w with
  | nil => exact .pure .nil
  | cons h _ ih =>
    apply (he hscope (hknown _ List.mem_cons_self) h).bind
    intro w' v u hw hv
    apply (ih (hR.scope_mono hw hscope) fun e h => hknown e (List.mem_cons_of_mem _ h)).bind
    intro w'' vs us hw' hvs
    exact .pure (.cons (hR.values_mono hw' hv) hvs)

theorem agree_foldBinary {v u : Value} {ss ts : List BinaryStep} (hscope : R.scope w layers i j)
    (hknown : ∀ s ∈ ss, R.known layers (.expr s.right)) (hv : R.Values w v u)
    (h : List.Forall₂ (BinaryStep.Alike R.leeway) ss ts) :
    R.Agree w R.Values (Run.foldBinary (e i) v ss) (Run.foldBinary (f j) u ts) := by
  induction h generalizing w v u with
  | nil => exact .pure hv
  | cons h _ ih =>
    apply (he hscope (hknown _ List.mem_cons_self) h.right).bind
    intro w' r r' hw hr
    rw [h.op]
    apply Agree.bind (.ofOperation (hR.comes_binary _ h.place (hR.values_mono hw hv) hr))
    intro w'' v' u' hw' hv'
    exact ih (hR.scope_mono hw' (hR.scope_mono hw hscope))
      (fun s h => hknown s (List.mem_cons_of_mem _ h)) hv'

theorem agree_foldLogical {v u : Value} {ss ts : List LogicalStep} (hscope : R.scope w layers i j)
    (hknown : ∀ s ∈ ss, R.known layers (.expr s.right)) (hv : R.Values w v u)
    (h : List.Forall₂ (LogicalStep.Alike R.leeway) ss ts) :
    R.Agree w R.Values (Run.foldLogical (e i) v ss) (Run.foldLogical (f j) u ts) := by
  induction h generalizing w v u with
  | nil => exact .pure hv
  | cons h _ ih =>
    simp only [Run.foldLogical]
    rw [h.op, hv.isTruthy]
    have hrest := fun {w'} (hw : w ≤ w') {v' u'} (hv' : R.Values w' v' u') =>
      ih (hR.scope_mono hw hscope) (fun s h => hknown s (List.mem_cons_of_mem _ h)) hv'
    -- both runs skip the operand, or both evaluate it
    refine .ite (fun _ => hrest le_rfl hv) fun _ => ?_
    apply (he hscope (hknown _ List.mem_cons_self) h.right).bind
    intro w' v' u' hw hv'
    exact hrest hw hv'

end Expressions

/-- The operands along the spine of a known expression are known. -/
theorem known_binarySpine : ∀ {c : Expr}, R.known layers (.expr c) →
    R.known layers (.expr c.binarySpine.1) ∧
      ∀ s ∈ c.binarySpine.2, R.known layers (.expr s.right)
  | .binary pos op l r, h => by
    have hl : R.known layers (.expr l) := hR.knowsParts.operand h List.mem_cons_self
    have hr : R.known layers (.expr r) :=
      hR.knowsParts.operand h (List.mem_cons_of_mem _ List.mem_cons_self)
    obtain ⟨hfirst, hsteps⟩ := known_binarySpine hl
    refine ⟨hfirst, fun s hs => ?_⟩
    rcases List.mem_append.mp hs with hs | hs
    · exact hsteps s hs
    · obtain rfl := List.mem_singleton.mp hs
      exact hr
  | .ident .., h | .number .., h | .string .., h | .bool .., h | .null .., h | .logical .., h
  | .unary .., h | .assign .., h | .call .., h | .content .., h => ⟨h, by simp [Expr.binarySpine]⟩

theorem known_logicalSpine : ∀ {c : Expr}, R.known layers (.expr c) →
    R.known layers (.expr c.logicalSpine.1) ∧
      ∀ s ∈ c.logicalSpine.2, R.known layers (.expr s.right)
  | .logical pos op l r, h => by
    have hl : R.known layers (.expr l) := hR.knowsParts.operand h List.mem_cons_self
    have hr : R.known layers (.expr r) :=
      hR.knowsParts.operand h (List.mem_cons_of_mem _ List.mem_cons_self)
    obtain ⟨hfirst, hsteps⟩ := known_logicalSpine hl
    refine ⟨hfirst, fun s hs => ?_⟩
    rcases List.mem_append.mp hs with hs | hs
    · exact hsteps s hs
    · obtain rfl := List.mem_singleton.mp hs
      exact hr
  | .ident .., h | .number .., h | .string .., h | .bool .., h | .null .., h | .binary .., h
  | .unary .., h | .assign .., h | .call .., h | .content .., h => ⟨h, by simp [Expr.logicalSpine]⟩

/-! ## Statements -/

theorem agree_reach {s t : Stmt} (hscope : R.scope w layers i j) (hknown : R.known layers (.stmt s))
    (h : s.Alike R.leeway t) : R.Agree w R.Done (Run.reach R.left i s) (Run.reach R.right j t) :=
  (hR.visit hscope hknown (.stmt h)).bind fun _ _ _ _ _ => hR.step h.place

section Statements

variable (hx : R.Executes x y)
include hx

theorem agree_sequence {ss ts : List Stmt} (hscope : R.scope w layers i j)
    (hknown : ∀ s ∈ ss, R.known layers (.stmt s)) (h : List.Forall₂ (Stmt.Alike R.leeway) ss ts) :
    R.Agree w R.Completions (Run.sequence (x i) ss) (Run.sequence (y j) ts) := by
  induction h generalizing w with
  | nil => exact .pure .normal
  | cons h _ ih =>
    apply (hx hscope (hknown _ List.mem_cons_self) h).bind
    intro w' c d hw hc
    cases hc with
    | normal =>
      -- only a statement that completes normally lets the sequence go on
      exact ih (hR.scope_mono hw hscope) fun s h => hknown s (List.mem_cons_of_mem _ h)
    | returned h => exact .pure (.returned h)
    | broke h => exact .pure (.broke h)
    | continued h => exact .pure (.continued h)

theorem agree_block {b b' : Block} (hscope : R.scope w layers i j)
    (hknown : R.known layers (.stmt (.block b))) (h : b.Alike R.leeway b') :
    R.Agree w R.Completions (Run.block R.left x i b) (Run.block R.right y j b') := by
  apply (hR.agree_reach hscope hknown (.block h)).bind
  intro w' _ _ hw _
  apply hR.inScope (.block b.body) (hR.scope_mono hw hscope)
  intro w'' i' j' _ hscope'
  refine hR.agree_sequence hx hscope' (fun s hs => ?_) h.body
  exact hR.knowsParts.stmt hknown (List.Subset.refl _) hs

end Statements

/-- A loop agrees with another one if its test, its body and its update do, from whatever world the
rounds before have led to. -/
theorem agree_loop {test test' : Run Bool} {body body' : Run Completion} {update update' : Run Unit}
    (hp : R.leeway.place p q)
    (htest : ∀ w', w ≤ w' → R.Agree w' (fun _ => (· = ·)) test test')
    (hbody : ∀ w', w ≤ w' → R.Agree w' R.Completions body body')
    (hupdate : ∀ w', w ≤ w' → R.Agree w' R.Done update update') (rounds : Nat) :
    R.Agree w R.Completions (Run.loop R.left p test body update rounds)
      (Run.loop R.right q test' body' update' rounds) := by
  -- the rounds are those that patience allows, and each begins in a larger world
  induction rounds generalizing w with
  | zero => exact .throw hR.outOfPatience
  | succ rounds ih =>
    apply (htest w le_rfl).bind
    intro w₁ go _ hw₁ hgo
    subst hgo
    refine .ite (fun _ => ?_) fun _ => .pure .normal
    apply (hR.step hp).bind
    intro w₂ _ _ hw₂ _
    have hw : w ≤ w₂ := hw₁.trans hw₂
    apply (hbody w₂ hw).bind
    intro w₃ c d hw₃ hc
    -- a `continue` ends the round only, so it goes on like a normal completion
    have hnext : R.Agree w₃ R.Completions
        (do update; Run.loop R.left p test body update rounds)
        (do update'; Run.loop R.right q test' body' update' rounds) := by
      apply (hupdate w₃ (hw.trans hw₃)).bind
      intro w₄ _ _ hw₄ _
      have hw' : w ≤ w₄ := (hw.trans hw₃).trans hw₄
      exact ih (fun w' h => htest w' (hw'.trans h)) (fun w' h => hbody w' (hw'.trans h))
        fun w' h => hupdate w' (hw'.trans h)
    cases hc with
    | normal => exact hnext
    | continued _ => exact hnext
    | returned h => exact .pure (.returned h)
    | broke _ => exact .pure .normal

section Parts

variable (hx : R.Executes x y) (he : R.Evaluates e f)

include hx he in
theorem agree_otherwise : ∀ {w : R.World} {rest rest' : Else}, R.scope w layers i j →
    (∀ s ∈ rest.stmts, R.known layers (.stmt s)) → rest.Alike R.leeway rest' →
    R.Agree w R.Completions
      (Run.otherwise R.left i (Run.truth (e i)) (Run.block R.left x i) rest)
      (Run.otherwise R.right j (Run.truth (f j)) (Run.block R.right y j) rest')
  | _, .none, _, _, _, .none => .pure .normal
  | _, .block _, _, hscope, hknown, .block h =>
    hR.agree_block hx hscope (hknown _ List.mem_cons_self) h
  | _, .elseIf pos test b rest, _, hscope, hknown, .elseIf hp ht hb hr => by
    have hif := hknown _ List.mem_cons_self
    apply (hR.agree_reach hscope hif (.ifElse hp ht hb hr)).bind
    intro w₁ _ _ hw₁ _
    have hscope₁ := hR.scope_mono hw₁ hscope
    -- the branches behind are those of the statement that stands here
    have htest : R.known layers (.expr test) :=
      hR.knowsParts.expr hif (List.subset_append_left ..) List.mem_cons_self
    have hstmts : ∀ s ∈ .block b :: rest.stmts, R.known layers (.stmt s) := fun s hs =>
      hR.knowsParts.stmt hif (List.subset_append_right ..) hs
    apply (he.truth hscope₁ htest ht).bind
    intro w₂ go _ hw₂ hgo
    subst hgo
    have hscope₂ := hR.scope_mono hw₂ hscope₁
    refine .ite (fun _ => ?_) fun _ => ?_
    · exact hR.agree_block hx hscope₂ (hstmts _ List.mem_cons_self) hb
    · exact agree_otherwise hscope₂ (fun s hs => hstmts s (List.mem_cons_of_mem _ hs)) hr

include he in
theorem agree_declare {kind : DeclarationKind} {name : String} {c d : Option Expr}
    (hscope : R.scope w layers i j) (hknown : R.known layers (.stmt (.declare p kind name c)))
    (hp : R.leeway.place p q) (h : Option.Rel (Expr.Alike R.leeway) c d) :
    R.Agree w R.Completions (Run.declare (e i) i p kind name c)
      (Run.declare (f j) j q kind name d) := by
  have hinit : ∀ e ∈ c, R.known layers (.expr e) := fun _ => hR.knowsParts.optional hknown rfl
  have hname := hR.knowsParts.declares hknown (List.mem_singleton_self name)
  apply (he.orNull hscope hinit h).bind
  intro w' v u hw hv
  apply (hR.define _ (hR.scope_mono hw hscope) hname hp hv).bind
  intro _ _ _ _ _
  exact .pure .normal

include he in
theorem agree_propertyValue {kind : Property} {c d : Option Expr} (hscope : R.scope w layers i j)
    (hknown : ∀ e ∈ c, R.known layers (.expr e)) (h : Option.Rel (Expr.Alike R.leeway) c d) :
    R.Agree w (fun _ => (· = ·)) (Run.propertyValue R.left (e i) kind c)
      (Run.propertyValue R.right (f j) kind d) := by
  refine .ite (fun _ => .pure rfl) fun _ => ?_
  cases h with
  | none => exact .pure hR.defaultWebVersion
  | some h =>
    apply (he hscope (hknown _ rfl) h).bind
    intro w' v u hw hv
    rw [hv.typeName, hv.display]
    cases kind.accepted? with
    | none => exact .throw (hR.fault .unknownProperty)
    | some accepted =>
      refine .ite (fun _ => ?_) fun _ => hR.agree_reject _ _ rfl h.place
      apply (hR.agree_ofFault _).bind
      intro _ _ _ _ htext
      exact .pure (congrArg Data.str htext)

include he in
theorem agree_style {c d : Expr} (hscope : R.scope w layers i j)
    (hknown : R.known layers (.expr c)) (h : c.Alike R.leeway d) :
    R.Agree w (fun _ => (· = ·)) (Run.style (e i) i c) (Run.style (f j) j d) := by
  have hshown : ∀ w', w ≤ w' → R.Agree w' (fun _ => (· = ·))
      (do Run.ofFault (← e i c).display : Run String)
      (do Run.ofFault (← f j d).display : Run String) := by
    intro w' hw
    apply (he (hR.scope_mono hw hscope) hknown h).bind
    intro w'' v u _ hv
    rw [hv.display]
    exact hR.agree_ofFault _
  cases h with
  | ident hp =>
    -- a name that is not bound is the name of a style
    apply (hR.isBound _ hscope).bind
    intro w' bound _ hw hbound
    subst hbound
    exact .ite (fun _ => hshown w' hw) fun _ => .pure rfl
  | _ => exact hshown w le_rfl

include he in
theorem agree_expressionStatement {c d : Expr} (hscope : R.scope w layers i j)
    (hknown : R.known layers (.expr c)) (h : c.Alike R.leeway d) :
    R.Agree w R.Completions (Run.expressionStatement (e i) c)
      (Run.expressionStatement (f j) d) := by
  apply (he hscope hknown h).bind
  intro w' v u hw hv
  apply hR.agree_get.bind
  intro w'' s t hw' hst
  rw [hst, h.isStringLiteral]
  refine .ite (fun _ => ?_) fun _ => .pure .normal
  exact (hR.emit (hR.values_mono hw' hv)).bind fun _ _ _ _ _ => .pure .normal

/-! ## Calls -/

theorem agree_bindParameters {parameters : List String} {vs us : List Value}
    (hscope : R.scope w layers i j) (hnames : ∀ name ∈ parameters, Layer.DeclaredIn layers name)
    (hp : R.leeway.place p q) (h : List.Forall₂ (R.Values w) vs us) :
    R.Agree w R.Done (Run.bindParameters i p parameters vs)
      (Run.bindParameters j q parameters us) := by
  induction parameters generalizing w vs us with
  | nil => exact .pure trivial
  | cons name parameters ih =>
    cases h with
    | nil => exact .pure trivial
    | cons hv hvs =>
      apply (hR.define _ hscope (hnames _ List.mem_cons_self) hp hv).bind
      intro w' _ _ hw _
      exact ih (hR.scope_mono hw hscope) (fun n h => hnames n (List.mem_cons_of_mem _ h))
        (hvs.imp fun _ _ => hR.values_mono hw)

theorem agree_callResult {c d : Completion} (h : R.Completions w c d) :
    R.Agree w R.Values (Run.callResult c) (Run.callResult d) := by
  cases h with
  | normal => exact .pure .null
  | returned h => exact .pure h
  | broke h => exact hR.agree_reject _ _ rfl h
  | continued h => exact hR.agree_reject _ _ rfl h

include hx in
theorem agree_invoke {g g' : Closure} {vs us : List Value} (hg : R.Closures w g g')
    (h : List.Forall₂ (R.Values w) vs us) :
    R.Agree w R.Values (Run.invoke R.left x g vs) (Run.invoke R.right y g' us) := by
  -- the body runs in the layers of the declaration, whatever those of the caller are
  obtain ⟨layers, hcaptured, hknown⟩ := hg.frame
  refine Agree.bind (Q := R.Completions) ?_ fun w' c d _ hc => hR.agree_callResult hc
  apply hR.inScope (.func g.parameters g.body.body) (hR.scope_of_captured hcaptured)
  intro w' i' j' hw hscope
  rw [← hg.parameters]
  refine (hR.agree_bindParameters hscope (fun name hname => ?_) hg.place
    (h.imp fun _ _ => hR.values_mono hw)).bind fun w'' _ _ hw' _ => ?_
  · exact ⟨_, rfl, List.mem_append_left _ hname⟩
  · exact hR.agree_sequence hx (hR.scope_mono hw' hscope) hknown hg.body.body

theorem agree_perform (action : Action) {vs us : List Value} (hp : R.leeway.place p q)
    (h : List.Forall₂ (R.Values w) vs us) :
    R.Agree w R.Values (Run.perform p action vs) (Run.perform q action us) := by
  cases action with
  | print =>
    rw [Run.perform, Run.perform, displayAll_eq h]
    apply (hR.agree_ofFault _).bind
    intro w' texts _ _ htexts
    subst htexts
    exact (hR.printed _ hp).bind fun _ _ _ _ _ => .pure .null
  | len =>
    -- what is wrong is said of the type of the argument, which is the same on both sides
    have hwrong : ∀ {v u : Value}, R.Values w v u → R.Agree w R.Values
        (Run.reject (Operation.wrongOperand p "len" "string" v))
        (Run.reject (Operation.wrongOperand q "len" "string" u)) := by
      intro v u hv
      rw [Operation.wrongOperand, Operation.wrongOperand, hv.typeName]
      exact hR.agree_reject _ _ rfl hp
    cases h with
    | nil => exact .throw (hR.fault .wrongArguments)
    | cons hv hvs =>
      cases hvs with
      | nil =>
        cases hv with
        | str => exact .pure (.number _)
        | null => exact hwrong .null
        | bool b => exact hwrong (.bool b)
        | number n => exact hwrong (.number n)
        | closure hg => exact hwrong (.closure hg)
        | builtin name action hid => exact hwrong (.builtin name action hid)
      | cons _ _ => cases hv <;> exact .throw (hR.fault .wrongArguments)

theorem agree_callWith {name : String} {arity : Option Nat} {n : Nat} {a b : Run Value}
    (hp : R.leeway.place p q) (h : ∀ w', w ≤ w' → R.Agree w' R.Values a b) :
    R.Agree w R.Values (Run.callWith R.left p name arity n a)
      (Run.callWith R.right q name arity n b) := by
  -- the call is left again whether it succeeds or fails
  have hcall : R.Agree w R.Values
      (do Run.enterCall R.left name p; Run.closing a Run.exitCall)
      (do Run.enterCall R.right name q; Run.closing b Run.exitCall) := by
    rw [Run.closing_exitCall, Run.closing_exitCall]
    exact (hR.enterCall name hp).bind fun w' _ _ hw _ =>
      (h w' hw).leaving fun _ _ _ => hR.exitCall
  cases arity with
  | none => exact hcall
  | some expected =>
    refine .ite (fun _ => ?_) fun _ => hcall
    exact hR.agree_reject_bind _ _ rfl hp

include hx in
theorem agree_callValue {v u : Value} {vs us : List Value} (hp : R.leeway.place p q)
    (hv : R.Values w v u) (h : List.Forall₂ (R.Values w) vs us) :
    R.Agree w R.Values (Run.callValue R.left x p v vs) (Run.callValue R.right y q u us) := by
  have hmono : ∀ w', w ≤ w' → List.Forall₂ (R.Values w') vs us := fun w' hw =>
    h.imp fun _ _ => hR.values_mono hw
  have hwrong : R.Agree w R.Values
      (Run.reject (.located p .notCallable ("Value of type " ++ v.typeName ++ " is not callable")))
      (Run.reject (.located q .notCallable
        ("Value of type " ++ u.typeName ++ " is not callable"))) := by
    rw [hv.typeName]
    exact hR.agree_reject _ _ rfl hp
  cases hv with
  | closure hg =>
    rw [Run.callValue, Run.callValue, hg.name, hg.parameters, h.length_eq]
    apply hR.agree_callWith hp
    intro w' hw
    exact hR.agree_invoke hx (hg.mono fun _ _ _ => hR.captured_mono hw) (hmono w' hw)
  | builtin name action hid =>
    rw [Run.callValue, Run.callValue, h.length_eq]
    exact hR.agree_callWith hp fun w' hw => hR.agree_perform action hp (hmono w' hw)
  | null | bool | number | str => exact hwrong

include hx he in
theorem agree_contentCall {cs ds : List Expr} (hscope : R.scope w layers i j)
    (hknown : ∀ e ∈ cs, R.known layers (.expr e)) (hp : R.leeway.place p q)
    (h : List.Forall₂ (Expr.Alike R.leeway) cs ds) :
    R.Agree w R.Values (Run.contentCall (e i) (Run.callValue R.left x p) p cs)
      (Run.contentCall (f j) (Run.callValue R.right y q) q ds) := by
  apply hR.agree_get.bind
  intro w₁ s t hw₁ hst
  have hempty : cs.isEmpty = ds.isEmpty := by cases h <;> rfl
  rw [hst, hempty]
  refine .ite (fun _ => hR.agree_reject_bind _ _ rfl hp) fun _ => ?_
  refine .ite (fun _ => hR.agree_reject_bind _ _ rfl hp) fun _ => ?_
  apply (hR.agree_evaluateAll he (hR.scope_mono hw₁ hscope) hknown h).bind
  intro w₂ vs us hw₂ hvs
  have hhead : R.Values w₂ (vs.headD .null) (us.headD .null) := by
    cases hvs with
    | nil => exact .null
    | cons h _ => exact h
  have htail : List.Forall₂ (R.Values w₂) vs.tail us.tail := by
    cases hvs with
    | nil => exact .nil
    | cons _ h => exact h
  have hrest : vs.tail.isEmpty = us.tail.isEmpty := by
    cases hvs with
    | nil => rfl
    | cons _ h => cases h <;> rfl
  have hemit : ∀ w' v u, w₂ ≤ w' → R.Values w' v u →
      R.Agree w' R.Values (do Run.emit v; return v) (do Run.emit u; return u) :=
    fun w' v u _ hv => (hR.emit hv).bind fun _ _ _ hw _ => .pure (hR.values_mono hw hv)
  -- what is no function becomes content itself, if nothing else is given
  have hplain : R.Agree w₂ R.Values
      (if vs.tail.isEmpty then do
          let v ← (pure (vs.headD .null) : Run Value)
          Run.emit v
          return v
        else do
          let v ← Run.reject (.located p .notCallable
            ("Call() with arguments needs a function, got " ++ (vs.headD .null).typeName))
          Run.emit v
          return v)
      (if us.tail.isEmpty then do
          let v ← (pure (us.headD .null) : Run Value)
          Run.emit v
          return v
        else do
          let v ← Run.reject (.located q .notCallable
            ("Call() with arguments needs a function, got " ++ (us.headD .null).typeName))
          Run.emit v
          return v) := by
    rw [hrest, hhead.typeName]
    refine .ite (fun _ => ?_) fun _ => hR.agree_reject_bind _ _ rfl hp
    exact hemit w₂ _ _ le_rfl hhead
  have hcall := (hR.agree_callValue hx hp hhead htail).bind hemit
  generalize vs.headD .null = v, us.headD .null = u at hhead hplain hcall
  cases hhead with
  | closure _ => exact hcall
  | builtin _ _ _ => exact hcall
  | null | bool | number | str => exact hplain

end Parts

/-! ## The recursion -/

theorem evaluates_succ {allowance : Nat}
    (hx : R.Executes (Run.execute R.left allowance) (Run.execute R.right allowance))
    (he : R.Evaluates (Run.evaluate R.left allowance) (Run.evaluate R.right allowance)) :
    R.Evaluates (Run.evaluate R.left (allowance + 1)) (Run.evaluate R.right (allowance + 1)) := by
  intro w layers i j c d hscope hknown h
  rw [Run.evaluate.eq_def, Run.evaluate.eq_def]
  apply (hR.visit hscope hknown (.expr h)).bind
  intro w₁ _ _ hw₁ _
  replace hscope := hR.scope_mono hw₁ hscope
  have hoperand : ∀ e ∈ c.operands, R.known layers (.expr e) := fun _ =>
    hR.knowsParts.operand hknown
  cases h with
  | ident hp => exact hR.lookup _ hscope hp
  | number _ _ => exact .pure (.number _)
  | string _ => exact .pure (.str _)
  | bool _ => exact .pure (.bool _)
  | null _ => exact .pure .null
  | binary hp hl hr =>
    -- operators of one spine are applied in a loop, without spending allowance on each
    obtain ⟨hfirst, hsteps⟩ := (Expr.Alike.binary hp hl hr).binarySpine
    obtain ⟨kfirst, ksteps⟩ := hR.known_binarySpine hknown
    apply (he hscope kfirst hfirst).bind
    intro w₂ v u hw₂ hv
    exact hR.agree_foldBinary he (hR.scope_mono hw₂ hscope) ksteps hv hsteps
  | logical hp hl hr =>
    obtain ⟨hfirst, hsteps⟩ := (Expr.Alike.logical hp hl hr).logicalSpine
    obtain ⟨kfirst, ksteps⟩ := hR.known_logicalSpine hknown
    apply (he hscope kfirst hfirst).bind
    intro w₂ v u hw₂ hv
    exact hR.agree_foldLogical he (hR.scope_mono hw₂ hscope) ksteps hv hsteps
  | unary hp h =>
    apply (he hscope (hoperand _ List.mem_cons_self) h).bind
    intro w₂ v u hw₂ hv
    exact .ofOperation (hR.comes_unary _ hp hv)
  | assign hp h =>
    apply (he hscope (hoperand _ List.mem_cons_self) h).bind
    intro w₂ v u hw₂ hv
    apply (hR.assign _ (hR.scope_mono hw₂ hscope) hp hv).bind
    intro w₃ _ _ hw₃ _
    exact .pure (hR.values_mono hw₃ hv)
  | call hp hf hes =>
    apply (he hscope (hoperand _ List.mem_cons_self) hf).bind
    intro w₂ v u hw₂ hv
    refine (hR.agree_evaluateAll he (hR.scope_mono hw₂ hscope)
      (fun e h => hoperand e (List.mem_cons_of_mem _ h)) hes).bind fun w₃ vs us hw₃ hvs => ?_
    exact hR.agree_callValue hx hp (hR.values_mono hw₃ hv) hvs
  | content hp hes => exact hR.agree_contentCall hx he hscope hoperand hp hes

theorem agree_inBody {α β : Type} {Q : R.World → α → β → Prop} {a : Run α} {b : Run β}
    {n m : Nat} (hsections : R.sections n m) (h : R.Agree w Q a b) :
    R.Agree w Q (Run.inBody n a) (Run.inBody m b) := by
  intro s t hs
  -- each side puts back the section that it has found
  rw [Run.inBody_apply, Run.inBody_apply]
  exact (h.leaving fun _ _ _ => hR.restore hs) _ _ (hR.activate hsections hs)

section Recursion

variable {allowance : Nat}
variable (hx : R.Executes (Run.execute R.left allowance) (Run.execute R.right allowance))
variable (he : R.Evaluates (Run.evaluate R.left allowance) (Run.evaluate R.right allowance))
include hx he

theorem agree_body {style style' : Expr} {ss ts : List Stmt} (hscope : R.scope w layers i j)
    (hknown : R.known layers (.stmt (.body p style ss))) (hp : R.leeway.place p q)
    (hstyle : style.Alike R.leeway style') (h : List.Forall₂ (Stmt.Alike R.leeway) ss ts) :
    R.Agree w R.Completions (Run.execute R.left (allowance + 1) i (.body p style ss))
      (Run.execute R.right (allowance + 1) j (.body q style' ts)) := by
  rw [Run.execute, Run.execute]
  apply (hR.agree_reach hscope hknown (.body hp hstyle h)).bind
  intro w₁ _ _ hw₁ _
  replace hscope := hR.scope_mono hw₁ hscope
  have hknown' : R.known layers (.expr style) :=
    hR.knowsParts.expr hknown (List.subset_append_left ..) List.mem_cons_self
  apply (hR.agree_style he hscope hknown' hstyle).bind
  intro w₂ text _ hw₂ htext
  subst htext
  apply (hR.openBody text hp).bind
  intro w₃ _ _ hw₃ hsections
  apply hR.inScope (.content ss) (hR.scope_mono hw₃ (hR.scope_mono hw₂ hscope))
  intro w₄ i' j' _ hscope'
  refine hR.agree_inBody hsections (hR.agree_sequence hx hscope' (fun s hs => ?_) h)
  exact hR.knowsParts.stmt hknown (List.subset_append_right ..) hs

theorem agree_for {init init' : ForInit} {test test' update update' : Option Expr} {b b' : Block}
    (hscope : R.scope w layers i j) (hknown : R.known layers (.stmt (.for p init test update b)))
    (hp : R.leeway.place p q) (hinit : init.Alike R.leeway init')
    (htest : Option.Rel (Expr.Alike R.leeway) test test')
    (hupdate : Option.Rel (Expr.Alike R.leeway) update update') (hb : b.Alike R.leeway b') :
    R.Agree w R.Completions (Run.execute R.left (allowance + 1) i (.for p init test update b))
      (Run.execute R.right (allowance + 1) j (.for q init' test' update' b')) := by
  rw [Run.execute, Run.execute]
  apply (hR.agree_reach hscope hknown (.for hp hinit htest hupdate hb)).bind
  intro w₁ _ _ hw₁ _
  apply hR.inScope (.loop init) (hR.scope_mono hw₁ hscope)
  intro w₂ i' j' _ hscope'
  -- the clauses and the block all lie in the layer of the loop
  have hstmt : ∀ s, s ∈ init.stmts ∨ s = .block b → R.known (.loop init :: layers) (.stmt s) := by
    intro s hs
    refine hR.knowsParts.part hknown (?_ : ([.loop init], .stmt s) ∈ Node.parts _)
    simp only [Node.parts, Node.partsOfStmt, List.mem_append, Node.mem_stmtsIn]
    rcases hs with hs | rfl
    · exact .inl (.inl (.inl ⟨trivial, s, hs, rfl⟩))
    · exact .inr ⟨trivial, _, List.mem_singleton_self _, rfl⟩
  have hexpr : ∀ e, e ∈ test ∨ e ∈ update → R.known (.loop init :: layers) (.expr e) := by
    intro e he
    refine hR.knowsParts.part hknown (?_ : ([.loop init], .expr e) ∈ Node.parts _)
    simp only [Node.parts, Node.partsOfStmt, List.mem_append, Node.mem_exprsIn]
    rcases he with he | he
    · exact .inl (.inl (.inr ⟨trivial, e, Option.mem_toList.mpr he, rfl⟩))
    · exact .inl (.inr ⟨trivial, e, Option.mem_toList.mpr he, rfl⟩)
  refine (hx.forInit hscope' (fun s hs => hstmt s (.inl hs)) hinit).bind fun w₃ _ _ hw₃ _ => ?_
  have hscope'' : ∀ w', w₃ ≤ w' → R.scope w' (.loop init :: layers) i' j' := fun w' hw =>
    hR.scope_mono (hw₃.trans hw) hscope'
  rw [hR.patience]
  refine hR.agree_loop hp (fun w' hw => ?_) (fun w' hw => ?_) (fun w' hw => ?_) _
  · cases htest with
    | none => exact .pure rfl
    | some h => exact he.truth (hscope'' w' hw) (hexpr _ (.inl rfl)) h
  · exact hR.agree_block hx (hscope'' w' hw) (hstmt _ (.inr rfl)) hb
  · cases hupdate with
    | none => exact .pure trivial
    | some h =>
      exact (he (hscope'' w' hw) (hexpr _ (.inr rfl)) h).bind fun _ _ _ _ _ => .pure trivial

theorem executes_succ :
    R.Executes (Run.execute R.left (allowance + 1)) (Run.execute R.right (allowance + 1)) := by
  intro w layers i j s t hscope hknown h
  have hreach := hR.agree_reach hscope hknown h
  have hscope' : ∀ w', w ≤ w' → R.scope w' layers i j := fun w' hw => hR.scope_mono hw hscope
  cases h with
  | block hb => exact hR.agree_block hx hscope hknown hb
  | declare hp h =>
    rw [Run.execute, Run.execute]
    apply hreach.bind
    intro w₁ _ _ hw₁ _
    exact hR.agree_declare he (hscope' w₁ hw₁) hknown hp h
  | func hp hb =>
    rw [Run.execute, Run.execute]
    apply hreach.bind
    intro w₁ _ _ hw₁ _
    exact hR.declareFunction (hscope' w₁ hw₁) hknown hp hb
  | property hp h =>
    rw [Run.execute, Run.execute]
    apply hreach.bind
    intro w₁ _ _ hw₁ _
    have hvalue : ∀ e ∈ _, R.known layers (.expr e) := fun _ => hR.knowsParts.optional hknown rfl
    apply (hR.agree_propertyValue he (hscope' w₁ hw₁) hvalue h).bind
    intro w₂ data _ _ hdata
    subst hdata
    exact (hR.setProperty _ _ hp).bind fun _ _ _ _ _ => .pure .normal
  | body hp hstyle h => exact hR.agree_body hx he hscope hknown hp hstyle h
  | ifElse hp hc hb hr =>
    -- an `if` is executed like one that follows an `else`
    rw [Run.execute, Run.execute]
    refine hR.agree_otherwise hx he hscope (fun s hs => ?_) (.elseIf hp hc hb hr)
    obtain rfl := List.mem_singleton.mp hs
    exact hknown
  | «while» hp hc hb =>
    rw [Run.execute, Run.execute, hR.patience]
    apply hreach.bind
    intro w₁ _ _ hw₁ _
    refine hR.agree_loop hp (fun w' hw => ?_) (fun w' hw => ?_) (fun _ _ => .pure trivial) _
    · refine he.truth (hscope' w' (hw₁.trans hw)) ?_ hc
      exact hR.knowsParts.expr hknown (List.subset_append_left ..) (List.mem_singleton_self _)
    · refine hR.agree_block hx (hscope' w' (hw₁.trans hw)) ?_ hb
      exact hR.knowsParts.stmt hknown (List.subset_append_right ..) (List.mem_singleton_self _)
  | «for» hp hinit htest hupdate hb =>
    exact hR.agree_for hx he hscope hknown hp hinit htest hupdate hb
  | «return» hp h =>
    rw [Run.execute, Run.execute]
    apply hreach.bind
    intro w₁ _ _ hw₁ _
    have hvalue : ∀ e ∈ _, R.known layers (.expr e) := fun _ => hR.knowsParts.optional hknown rfl
    apply (he.orNull (hscope' w₁ hw₁) hvalue h).bind
    intro _ _ _ _ hv
    exact .pure (.returned hv)
  | «break» hp =>
    rw [Run.execute, Run.execute]
    exact hreach.bind fun _ _ _ _ _ => .pure (.broke hp)
  | «continue» hp =>
    rw [Run.execute, Run.execute]
    exact hreach.bind fun _ _ _ _ _ => .pure (.continued hp)
  | expr hp h =>
    rw [Run.execute, Run.execute]
    apply hreach.bind
    intro w₁ _ _ hw₁ _
    refine hR.agree_expressionStatement he (hscope' w₁ hw₁) ?_ h
    exact hR.knowsParts.expr hknown (List.Subset.refl _) (List.mem_singleton_self _)

end Recursion

/-- Executing and evaluating agree under a lawful pairing, whatever the allowance. -/
theorem lockstep (allowance : Nat) :
    R.Executes (Run.execute R.left allowance) (Run.execute R.right allowance) ∧
      R.Evaluates (Run.evaluate R.left allowance) (Run.evaluate R.right allowance) := by
  -- statements contain expressions and calls execute statements, so both go together
  induction allowance with
  | zero =>
    refine ⟨fun _ _ _ => ?_, fun _ _ _ => ?_⟩
    · rw [Run.execute, Run.execute]
      exact .throw hR.nestedTooDeeply
    · rw [Run.evaluate.eq_def, Run.evaluate.eq_def]
      exact .throw hR.nestedTooDeeply
  | succ allowance ih => exact ⟨hR.executes_succ ih.1 ih.2, hR.evaluates_succ ih.1 ih.2⟩

/-- Programs that are alike agree under a lawful pairing. -/
theorem agree_program {a b : Program} (allowance : Nat) (hscope : R.scope w layers i j)
    (hknown : R.known layers (.program a)) (h : a.Alike R.leeway b) :
    R.Agree w R.Done (Run.program R.left allowance a i) (Run.program R.right allowance b j) := by
  have hstmt : ∀ s ∈ a.body, R.known layers (.stmt s) := fun _ =>
    hR.knowsParts.stmt hknown (List.Subset.refl _)
  apply (hR.visit hscope hknown (.program h)).bind
  intro w₁ _ _ hw₁ _
  apply (hR.step h.place).bind
  intro w₂ _ _ hw₂ _
  refine (hR.agree_sequence (hR.lockstep allowance).1 (hR.scope_mono hw₂ (hR.scope_mono hw₁ hscope))
    hstmt h.body).bind fun w₃ c d _ hc => ?_
  cases hc with
  | normal => exact .pure trivial
  | returned _ => exact .pure trivial
  -- a jump that no loop has caught is refused at its own place
  | broke hp => exact hR.agree_reject _ _ rfl hp
  | continued hp => exact hR.agree_reject _ _ rfl hp

end Lawful

end MiniApp.Pairing
