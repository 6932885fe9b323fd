import Mathlib.Order.Basic
import MiniApp.Proofs.Eval.Alike
import MiniApp.Proofs.Eval.Leaving
import MiniApp.Proofs.Eval.Scoping
import MiniApp.Proofs.Places

/-!
# Runs side by side

Many properties of runs compare two of them: with and without reclamation, before and after a change
of layout, after one history and after another. A *pairing* says what the two runs have in common at
any moment. Its worlds describe how the frames of the two arenas belong together; a world only grows
while statements are executed.

Two actions *agree* if, begun in states that belong together, they both succeed or both fail, and
leave states that belong together again.

## Main definitions

* `Likeness`, `Likeness.Values`, `Likeness.Completions`: values of the two runs that belong together
* `Pairing`: what two runs have in common
* `Pairing.Agree`: actions that agree
* `Pairing.Lawful`: what a pairing owes to every elementary action

## Main results

* `Pairing.Agree.bind`, `Pairing.Agree.closing`: agreement of composed actions
* `Pairing.Lawful.comes_binary`, `Pairing.Lawful.comes_unary`: operators agree
-/

namespace MiniApp

/-- How values of two runs belong together. Functions refer to their identities and to the frames
that they were declared in; the layers tell which frames these are in the syntax tree. -/
structure Likeness where
  World : Type
  leeway : Leeway
  ident : Nat → Nat → Prop
  known : List Layer → Node → Prop
  captured : World → List Layer → Nat → Nat → Prop

namespace Likeness

variable (L : Likeness)

/-- Declared functions that belong together. -/
structure Closures (w : L.World) (f g : Closure) : Prop where
  ident : L.ident f.id g.id
  name : f.name = g.name
  parameters : f.parameters = g.parameters
  body : f.body.Alike L.leeway g.body
  place : L.leeway.place f.pos g.pos
  frame : ∃ layers, L.captured w layers f.frame g.frame ∧
    ∀ s ∈ f.body.body, L.known (.func f.parameters f.body.body :: layers) (.stmt s)

/-- Values that belong together. -/
inductive Values (w : L.World) : Value → Value → Prop
  | null : Values w .null .null
  | bool (b : Bool) : Values w (.bool b) (.bool b)
  | number (n : Number) : Values w (.number n) (.number n)
  | str (s : String) : Values w (.str s) (.str s)
  | closure {f g : Closure} : L.Closures w f g → Values w (.closure f) (.closure g)
  | builtin {i j : Nat} (name : String) (action : Action) :
      L.ident i j → Values w (.builtin ⟨i, name, action⟩) (.builtin ⟨j, name, action⟩)

/-- Completions that belong together. -/
inductive Completions (w : L.World) : Completion → Completion → Prop
  | normal : Completions w .normal .normal
  | returned {v u : Value} : L.Values w v u → Completions w (.returned v) (.returned u)
  | broke {p q : Position} : L.leeway.place p q → Completions w (.broke p) (.broke q)
  | continued {p q : Position} : L.leeway.place p q → Completions w (.continued p) (.continued q)

variable {L} {w w' : L.World} {v u : Value}

theorem Closures.mono {f g : Closure}
    (hw : ∀ layers i j, L.captured w layers i j → L.captured w' layers i j)
    (h : L.Closures w f g) : L.Closures w' f g := by
  obtain ⟨layers, hcaptured, hknown⟩ := h.frame
  exact { h with frame := ⟨layers, hw layers _ _ hcaptured, hknown⟩ }

/-- What belongs together does so as long as the captured frames do. -/
theorem Values.mono (hw : ∀ layers i j, L.captured w layers i j → L.captured w' layers i j)
    (h : L.Values w v u) : L.Values w' v u := by
  cases h with
  | null => exact .null
  | bool b => exact .bool b
  | number n => exact .number n
  | str s => exact .str s
  | closure h => exact .closure (h.mono hw)
  | builtin name action h => exact .builtin name action h

theorem Completions.mono {c d : Completion}
    (hw : ∀ layers i j, L.captured w layers i j → L.captured w' layers i j)
    (h : L.Completions w c d) : L.Completions w' c d := by
  cases h with
  | normal => exact .normal
  | returned h => exact .returned (h.mono hw)
  | broke h => exact .broke h
  | continued h => exact .continued h

namespace Values

theorem display (h : L.Values w v u) : v.display = u.display := by
  cases h with
  | closure h => rw [Value.display, Value.display, h.name]
  | _ => rfl

theorem typeName (h : L.Values w v u) : v.typeName = u.typeName := by cases h <;> rfl

theorem isNumber (h : L.Values w v u) : v.isNumber = u.isNumber := by cases h <;> rfl

theorem isText (h : L.Values w v u) : v.isText = u.isText := by cases h <;> rfl

theorem isTruthy (h : L.Values w v u) : v.isTruthy = u.isTruthy := by cases h <;> rfl

/-- Equality of values comes out the same if identities are told apart alike. -/
theorem equal {v' u' : Value}
    (hident : ∀ {a b a' b'}, L.ident a b → L.ident a' b' → (a = a' ↔ b = b'))
    (h : L.Values w v u) (h' : L.Values w v' u') : v.equal v' = u.equal u' := by
  -- functions are equal if their identities are; all else is compared by what it holds
  cases h <;> cases h' <;> try rfl
  case closure.closure h _ _ h' =>
    exact Bool.eq_iff_iff.mpr (by simpa [Value.equal] using hident h.ident h'.ident)
  case builtin.builtin h _ _ _ _ h' =>
    exact Bool.eq_iff_iff.mpr (by simpa [Value.equal] using hident h h')

end Values

end Likeness

/-- What two runs have in common: how their values belong together, in which worlds, and which
scopes, body sections, states and failures do. -/
structure Pairing extends Likeness where
  [order : Preorder World]
  left : Context
  right : Context
  scope : World → List Layer → Nat → Nat → Prop
  sections : Nat → Nat → Prop
  state : World → Session → Session → Prop
  failure : RunFailure → RunFailure → Prop

attribute [instance] Pairing.order

namespace Pairing

variable {R : Pairing} {α β γ δ : Type}

/-! ## Agreement -/

/-- Results that belong together, in a world that has grown out of the given one. -/
inductive Ends (R : Pairing) (w : R.World) (Q : R.World → α → β → Prop) :
    EStateM.Result RunFailure Session α → EStateM.Result RunFailure Session β → Prop
  | ok {w' : R.World} {a : α} {b : β} {s t : Session} :
      w ≤ w' → R.state w' s t → Q w' a b → Ends R w Q (.ok a s) (.ok b t)
  | error {w' : R.World} {e f : RunFailure} {s t : Session} :
      w ≤ w' → R.state w' s t → R.failure e f → Ends R w Q (.error e s) (.error f t)

/-- Actions that lead from states that belong together to results that belong together. -/
def Agree (R : Pairing) (w : R.World) (Q : R.World → α → β → Prop) (x : Run α) (y : Run β) : Prop :=
  ∀ s t, R.state w s t → R.Ends w Q (x s) (y t)

/-- Nothing is asked of the results. -/
def Done (R : Pairing) (_ : R.World) (_ _ : Unit) : Prop := True

variable {w w' : R.World} {Q : R.World → α → β → Prop} {x : Run α} {y : Run β}

theorem Ends.trans {r : EStateM.Result RunFailure Session α}
    {r' : EStateM.Result RunFailure Session β} (hw : w ≤ w') (h : R.Ends w' Q r r') :
    R.Ends w Q r r' := by
  cases h with
  | ok hw' hs hq => exact .ok (hw.trans hw') hs hq
  | error hw' hs hf => exact .error (hw.trans hw') hs hf

namespace Agree

theorem pure {a : α} {b : β} (h : Q w a b) :
    R.Agree w Q (Pure.pure a : Run α) (Pure.pure b : Run β) :=
  fun _ _ hs => .ok le_rfl hs h

theorem throw {e f : RunFailure} (h : R.failure e f) :
    R.Agree w Q (MonadExcept.throw e : Run α) (MonadExcept.throw f : Run β) :=
  fun _ _ hs => .error le_rfl hs h

/-- Agreement of a sequence: the second action begins in the world that the first one leaves. -/
theorem bind {P : R.World → γ → δ → Prop} {f : α → Run γ} {g : β → Run δ}
    (h : R.Agree w Q x y)
    (hf : ∀ w' a b, w ≤ w' → Q w' a b → R.Agree w' P (f a) (g b)) :
    R.Agree w P (x >>= f) (y >>= g) := by
  intro s t hs
  have hends := h s t hs
  rw [Run.bind_apply, Run.bind_apply]
  generalize x s = r, y t = r' at hends
  cases hends with
  | ok hw hs hq => exact (hf _ _ _ hw hq _ _ hs).trans hw
  -- a failure ends both sequences where it occurred
  | error hw hs hfail => exact .error hw hs hfail

theorem ite {c : Prop} [Decidable c] {x' : Run α} {y' : Run β} (h : c → R.Agree w Q x y)
    (h' : ¬ c → R.Agree w Q x' y') : R.Agree w Q (if c then x else x') (if c then y else y') := by
  split
  · next hc => exact h hc
  · next hc => exact h' hc

/-- A change of both states in the end keeps the agreement, if it keeps the states together. -/
theorem leaving {change change' : Session → Session} (h : R.Agree w Q x y)
    (hchange : ∀ w' s t, R.state w' s t → R.state w' (change s) (change' t)) :
    R.Agree w Q (Run.leaving x change) (Run.leaving y change') := by
  intro s t hs
  have hends := h s t hs
  unfold Run.leaving
  generalize x s = r, y t = r' at hends
  cases hends with
  | ok hw hs hq => exact .ok hw (hchange _ _ _ hs) hq
  | error hw hs hf => exact .error hw (hchange _ _ _ hs) hf

/-- Closing on both sides keeps the agreement, if closing agrees. -/
theorem closing {close close' : Run Unit} (h : R.Agree w Q x y)
    (hQ : ∀ {w' w'' a b}, w' ≤ w'' → Q w' a b → Q w'' a b)
    (hclose : ∀ w', w ≤ w' → R.Agree w' R.Done close close') :
    R.Agree w Q (Run.closing x close) (Run.closing y close') := by
  intro s t hs
  have hends := h s t hs
  unfold Run.closing
  generalize x s = r, y t = r' at hends
  -- a failure to close ends both sides, whatever they have come to
  cases hends with
  | ok hw hs hq =>
    have hclosed := hclose _ hw _ _ hs
    dsimp only
    generalize close _ = r, close' _ = r' at hclosed
    cases hclosed with
    | ok hw' hs _ => exact .ok (hw.trans hw') hs (hQ hw' hq)
    | error hw' hs hf => exact .error (hw.trans hw') hs hf
  | error hw hs hf =>
    have hclosed := hclose _ hw _ _ hs
    dsimp only
    generalize close _ = r, close' _ = r' at hclosed
    cases hclosed with
    | ok hw' hs _ => exact .error (hw.trans hw') hs hf
    | error hw' hs hf' => exact .error (hw.trans hw') hs hf'

end Agree

/-- Results of computations without a state that belong together. -/
inductive Comes (R : Pairing) (Q : α → β → Prop) :
    Except RunFailure α → Except RunFailure β → Prop
  | ok {a : α} {b : β} : Q a b → Comes R Q (.ok a) (.ok b)
  | error {e f : RunFailure} : R.failure e f → Comes R Q (.error e) (.error f)

theorem Comes.bind {P : α → β → Prop} {Q : γ → δ → Prop} {x : Except RunFailure α}
    {y : Except RunFailure β} {f : α → Except RunFailure γ} {g : β → Except RunFailure δ}
    (h : R.Comes P x y) (hf : ∀ a b, P a b → R.Comes Q (f a) (g b)) :
    R.Comes Q (x >>= f) (y >>= g) := by
  cases h with
  | ok h => exact hf _ _ h
  | error h => exact .error h

theorem Agree.ofOperation {a b : Operation} (h : R.Comes (R.Values w) a b) :
    R.Agree w R.Values (Run.ofOperation a) (Run.ofOperation b) := by
  cases h with
  | ok h => exact .pure h
  | error h => exact .throw h

/-! ## Elementary actions -/

/-- What a pairing owes to every elementary action of a run. -/
structure Lawful (R : Pairing) : Prop where
  patience : R.left.patience = R.right.patience
  defaultWebVersion :
    R.left.settings.defaultWebVersion = R.right.settings.defaultWebVersion
  ident_iff {a a' b b' : Nat} : R.ident a b → R.ident a' b' → (a = a' ↔ b = b')
  knowsParts : KnowsParts R.known
  captured_mono {w w' : R.World} {layers : List Layer} {i j : Nat} :
    w ≤ w' → R.captured w layers i j → R.captured w' layers i j
  scope_mono {w w' : R.World} {layers : List Layer} {i j : Nat} :
    w ≤ w' → R.scope w layers i j → R.scope w' layers i j
  scope_of_captured {w : R.World} {layers : List Layer} {i j : Nat} :
    R.captured w layers i j → R.scope w layers i j
  rejected {p q : Position} (trouble : Trouble) (message : String) :
    trouble.recalls = false → R.leeway.place p q →
    R.failure (.rejected (.located p trouble message)) (.rejected (.located q trouble message))
  fault (f : Fault) : R.failure (.fault f) (.fault f)
  nestedTooDeeply : R.failure .nestedTooDeeply .nestedTooDeeply
  outOfPatience : R.failure .outOfPatience .outOfPatience
  inBody_eq {w : R.World} {s t : Session} : R.state w s t → s.inBody = t.inBody
  activate {w : R.World} {s t : Session} {n m : Nat} : R.sections n m → R.state w s t →
    R.state w { s with active := some n } { t with active := some m }
  restore {w w' : R.World} {s t s' t' : Session} : R.state w s t → R.state w' s' t' →
    R.state w' { s' with active := s.active } { t' with active := t.active }
  exitCall {w : R.World} {s t : Session} : R.state w s t →
    R.state w { s with meter := s.meter.exit } { t with meter := t.meter.exit }
  enterCall {w : R.World} {p q : Position} (name : String) : R.leeway.place p q →
    R.Agree w R.Done (Run.enterCall R.left name p) (Run.enterCall R.right name q)
  step {w : R.World} {p q : Position} : R.leeway.place p q →
    R.Agree w R.Done (Run.step R.left p) (Run.step R.right q)
  visit {w : R.World} {layers : List Layer} {i j : Nat} {n m : Node} :
    R.scope w layers i j → R.known layers n → n.Alike R.leeway m →
    R.Agree w R.Done (Run.visit R.left i n) (Run.visit R.right j m)
  define {w : R.World} {layers : List Layer} {i j : Nat} {p q : Position} {name : String}
    {v u : Value} (kind : BindingKind) :
    R.scope w layers i j → Layer.DeclaredIn layers name → R.leeway.place p q → R.Values w v u →
    R.Agree w R.Done (Run.define i name v kind p) (Run.define j name u kind q)
  lookup {w : R.World} {layers : List Layer} {i j : Nat} {p q : Position} (name : String) :
    R.scope w layers i j → R.leeway.place p q →
    R.Agree w R.Values (Run.lookup i name p) (Run.lookup j name q)
  assign {w : R.World} {layers : List Layer} {i j : Nat} {p q : Position} {v u : Value}
    (name : String) : R.scope w layers i j → R.leeway.place p q → R.Values w v u →
    R.Agree w R.Done (Run.assign i name v p) (Run.assign j name u q)
  isBound {w : R.World} {layers : List Layer} {i j : Nat} (name : String) :
    R.scope w layers i j → R.Agree w (fun _ => (· = ·)) (Run.isBound i name) (Run.isBound j name)
  declareFunction {w : R.World} {layers : List Layer} {i j : Nat} {p q : Position} {name : String}
    {parameters : List String} {b b' : Block} :
    R.scope w layers i j → R.known layers (.stmt (.func p name parameters b)) →
    R.leeway.place p q → b.Alike R.leeway b' →
    R.Agree w R.Completions (Run.declareFunction i p name parameters b)
      (Run.declareFunction j q name parameters b')
  inScope {w : R.World} {layers : List Layer} {i j : Nat} {x y : Nat → Run Completion}
    (l : Layer) : R.scope w layers i j →
    (∀ w' i' j', w ≤ w' → R.scope w' (l :: layers) i' j' →
      R.Agree w' R.Completions (x i') (y j')) →
    R.Agree w R.Completions (Run.inScope R.left i x) (Run.inScope R.right j y)
  printed {w : R.World} {p q : Position} (text : String) : R.leeway.place p q →
    R.Agree w R.Done (Run.note (.printed p text)) (Run.note (.printed q text))
  emit {w : R.World} {v u : Value} :
    R.Values w v u → R.Agree w R.Done (Run.emit v) (Run.emit u)
  setProperty {w : R.World} {p q : Position} (kind : Property) (value : Data) :
    R.leeway.place p q →
    R.Agree w R.Done (Run.setProperty kind value p) (Run.setProperty kind value q)
  openBody {w : R.World} {p q : Position} (style : String) : R.leeway.place p q →
    R.Agree w (fun _ => R.sections) (Run.openBody style p) (Run.openBody style q)

/-! ## Operators -/

namespace Lawful

variable (hR : R.Lawful) {p q : Position} {l l' r r' : Value}
include hR

/-- A computation that may meet a fault, followed by another one. -/
theorem comes_ofFault {Q : α → β → Prop} (x : Except Fault γ) {f : γ → Except RunFailure α}
    {g : γ → Except RunFailure β} (h : ∀ a, R.Comes Q (f a) (g a)) :
    R.Comes Q (Operation.ofFault x >>= f) (Operation.ofFault x >>= g) := by
  cases x with
  | ok a => exact h a
  | error e => exact .error (hR.fault e)

/-- The test for numbers: the first operand that is none is refused, and named by its type. -/
theorem comes_requireNumbers (op : BinaryOp) (wanted : String) (hp : R.leeway.place p q)
    (hl : R.Values w l l') (hr : R.Values w r r') :
    R.Comes (fun _ _ => True) (Operation.requireNumbers p op wanted l r)
      (Operation.requireNumbers q op wanted l' r') := by
  have hwrong : ∀ {v u : Value}, R.Values w v u → R.Comes (fun (_ _ : Unit) => True)
      (.error (.rejected (Operation.wrongOperand p op.symbol wanted v)))
      (.error (.rejected (Operation.wrongOperand q op.symbol wanted u))) := by
    intro v u h
    rw [Operation.wrongOperand, Operation.wrongOperand, h.typeName]
    exact .error (hR.rejected _ _ rfl hp)
  rw [Operation.requireNumbers, Operation.requireNumbers, hl.isNumber, hr.isNumber]
  split
  · exact hwrong hl
  · split
    · exact hwrong hr
    · exact .ok trivial

theorem comes_onNumbers (f : Number → Number → Except Fault Number) (hl : R.Values w l l')
    (hr : R.Values w r r') :
    R.Comes (R.Values w) (Operation.onNumbers f l r) (Operation.onNumbers f l' r') := by
  cases hl <;> cases hr <;> first
    | exact .error (hR.fault .wrongOperands)
    | exact hR.comes_ofFault _ fun n => .ok (.number n)

theorem comes_arithmetic (op : BinaryOp) (f : Number → Number → Except Fault Number)
    (hp : R.leeway.place p q) (hl : R.Values w l l') (hr : R.Values w r r') :
    R.Comes (R.Values w) (Operation.arithmetic p op f l r) (Operation.arithmetic q op f l' r') :=
  (hR.comes_requireNumbers op "number" hp hl hr).bind fun _ _ _ => hR.comes_onNumbers f hl hr

theorem comes_division (op : BinaryOp) (name : String) (f : Number → Number → Except Fault Number)
    (hp : R.leeway.place p q) (hl : R.Values w l l') (hr : R.Values w r r') :
    R.Comes (R.Values w) (Operation.division p op name f l r)
      (Operation.division q op name f l' r') := by
  refine (hR.comes_requireNumbers op "number" hp hl hr).bind fun _ _ _ => ?_
  have hzero : r.isZero = r'.isZero := by cases hr <;> rfl
  rw [hzero]
  split
  · exact .error (hR.rejected _ _ rfl hp)
  · exact hR.comes_onNumbers f hl hr

theorem comes_order (onNumbers : Number → Number → Bool) (onTexts : String → String → Bool)
    (hl : R.Values w l l') (hr : R.Values w r r') :
    R.Comes (R.Values w) (Operation.order onNumbers onTexts l r)
      (Operation.order onNumbers onTexts l' r') := by
  cases hl <;> cases hr <;> first
    | exact .error (hR.fault .wrongOperands)
    | exact .ok (.bool _)

theorem comes_compare (op : BinaryOp) (onNumbers : Number → Number → Bool)
    (onTexts : String → String → Bool) (hp : R.leeway.place p q) (hl : R.Values w l l')
    (hr : R.Values w r r') :
    R.Comes (R.Values w) (Operation.compare p op onNumbers onTexts l r)
      (Operation.compare q op onNumbers onTexts l' r') := by
  rw [Operation.compare, Operation.compare, Operation.comparable, Operation.comparable,
    hl.isNumber, hr.isNumber, hl.isText, hr.isText]
  split
  · exact hR.comes_order onNumbers onTexts hl hr
  · -- the message names the types of both operands, which the runs agree on
    rw [hl.typeName, hr.typeName]
    exact .error (hR.rejected _ _ rfl hp)

theorem comes_sum (hp : R.leeway.place p q) (hl : R.Values w l l') (hr : R.Values w r r') :
    R.Comes (R.Values w) (Operation.sum p l r) (Operation.sum q l' r') := by
  -- a text on either side makes the sum a text, otherwise both have to be numbers
  rw [Operation.sum, Operation.sum, hl.isText, hr.isText]
  split
  · rw [hl.display, hr.display]
    exact hR.comes_ofFault _ fun a => hR.comes_ofFault _ fun b => .ok (.str _)
  · exact (hR.comes_requireNumbers .add "number or string" hp hl hr).bind fun _ _ _ =>
      hR.comes_onNumbers Number.add hl hr

/-- A binary operator agrees with itself on operands that belong together. -/
theorem comes_binary (op : BinaryOp) (hp : R.leeway.place p q) (hl : R.Values w l l')
    (hr : R.Values w r r') :
    R.Comes (R.Values w) (Operation.binary p op l r) (Operation.binary q op l' r') := by
  have hequal : l.equal r = l'.equal r' := hl.equal hR.ident_iff hr
  cases op with
  | eq =>
    rw [Operation.binary, Operation.binary, hequal]
    exact .ok (.bool _)
  | ne =>
    rw [Operation.binary, Operation.binary, hequal]
    exact .ok (.bool _)
  | add => exact hR.comes_sum hp hl hr
  | lt | gt | le | ge => exact hR.comes_compare _ _ _ hp hl hr
  | sub | mul => exact hR.comes_arithmetic _ _ hp hl hr
  | div | mod => exact hR.comes_division _ _ _ hp hl hr

/-- A unary operator agrees with itself on operands that belong together. -/
theorem comes_unary (op : UnaryOp) {v u : Value} (hp : R.leeway.place p q)
    (h : R.Values w v u) :
    R.Comes (R.Values w) (Operation.unary p op v) (Operation.unary q op u) := by
  cases op with
  | not =>
    rw [Operation.unary, Operation.unary, h.isTruthy]
    exact .ok (.bool _)
  | minus | other =>
    rw [Operation.unary, Operation.unary, h.isNumber]
    split
    · rw [Operation.wrongOperand, Operation.wrongOperand, h.typeName]
      exact .error (hR.rejected _ _ rfl hp)
    · cases h <;> first
        | exact .error (hR.fault .wrongOperands)
        | exact .ok (.number _)

end Lawful

end Pairing

end MiniApp
