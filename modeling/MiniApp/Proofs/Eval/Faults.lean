import MiniApp.Eval.Evaluate

/-!
# Faults of operators

Operators and conversions to text fail with a diagnostic or meet a fault of numbers, and for each
fault there is one reason: an integer with too many digits to be shown, an integer or a quotient of
integers beyond the range of doubles, or the remainder of an infinite number. Division by zero is
none of them, since it is refused before; an integer that is not zero is no zero as a double either.

## Main definitions

* `FailsOnly`: computations that fail in some ways only
* `Number.ShowsLong`, `Number.Faulty`: the reasons for which numbers meet faults
* `Operation.Failure`: how operators fail

## Main results

* `Value.failsOnly_display`, `Operation.failsOnly_binary`: conversions and operators fail for these
  reasons only
-/

namespace MiniApp

/-- A computation that fails in some ways only, if it fails. -/
inductive FailsOnly {ε α : Type} (P : ε → Prop) : Except ε α → Prop
  | ok (a : α) : FailsOnly P (.ok a)
  | error {e : ε} : P e → FailsOnly P (.error e)

namespace FailsOnly

variable {ε α β : Type} {P Q : ε → Prop} {x : Except ε α}

theorem bind {f : α → Except ε β} (hx : FailsOnly P x) (hf : ∀ a, x = .ok a → FailsOnly P (f a)) :
    FailsOnly P (x >>= f) := by
  cases hx with
  | ok a => exact hf a rfl
  | error he => exact .error he

theorem mono (h : FailsOnly P x) (hPQ : ∀ e, P e → Q e) : FailsOnly Q x := by
  cases h with
  | ok a => exact .ok a
  | error he => exact .error (hPQ _ he)

theorem of_error {e : ε} (h : FailsOnly P x) (hx : x = .error e) : P e := by
  subst hx
  cases h with
  | error he => exact he

end FailsOnly

/-! ## Doubles -/

namespace Double

theorem two_pow_pos (exponent : Nat) : 0 < Nat.pow 2 exponent := Nat.two_pow_pos exponent

theorem unit_pos : 0 < unit := by
  delta unit
  apply two_pow_pos

theorem gap_pos (quanta : Nat) : 0 < gap quanta := two_pow_pos _

theorem gap_le {quanta : Nat} (h : quanta ≠ 0) : gap quanta ≤ quanta :=
  Nat.le_trans (Nat.pow_le_pow_right Nat.two_pos (Nat.sub_le _ _)) (Nat.log2_self_le h)

/-- Rounding a whole number of quanta does not lead to zero. -/
theorem nearest_ne_zero {num : Nat} (h : num ≠ 0) : nearest num 1 ≠ 0 := by
  have hgap := gap_pos num
  have hquotient : 0 < num / gap num := Nat.div_pos (gap_le h) hgap
  have hround : 0 < roundDiv num (gap num) := by
    rw [roundDiv]
    split
    · exact hquotient
    · split
      · exact Nat.succ_pos _
      · exact Nat.add_pos_left hquotient _
  rw [nearest, Nat.div_one, Nat.one_mul]
  exact Nat.mul_ne_zero (Nat.ne_of_gt hround) (Nat.ne_of_gt hgap)

theorem ofRatio_cases (negative : Bool) (num den : Nat) :
    (∃ fits, ofRatio negative num den = .finite negative (nearest num den) fits) ∨
      ofRatio negative num den = .infinite negative := by
  rw [ofRatio]
  split
  · next fits => exact .inl ⟨fits, rfl⟩
  · exact .inr rfl

/-- An integer as a double is finite, and zero only if the integer is. -/
theorem finite_of_ofInt? {i : Int} {d : Double} (h : ofInt? i = some d) :
    ∃ negative quanta fits, d = .finite negative quanta fits ∧ (i ≠ 0 → quanta ≠ 0) := by
  -- the definition is opened with the quanta of one unit left a variable, lest they be computed
  obtain ⟨f, hf⟩ : ∃ f, f = ofInt? := ⟨_, rfl⟩
  obtain ⟨u, hu⟩ : ∃ u, u = unit := ⟨_, rfl⟩
  rw [← hf] at h
  delta ofInt? at hf
  rw [← hu] at hf
  subst hf
  have hpos : u ≠ 0 := hu ▸ Nat.ne_of_gt unit_pos
  dsimp only at h
  rcases ofRatio_cases (i < 0) (i.natAbs * u) 1 with ⟨fits, hratio⟩ | hratio
  · rw [hratio] at h
    refine ⟨_, _, fits, (Option.some.inj h).symm, fun hi => nearest_ne_zero ?_⟩
    exact Nat.mul_ne_zero (Int.natAbs_ne_zero.mpr hi) hpos
  · rw [hratio] at h
    cases h

theorem fmod?_eq_none {x y : Double} (h : fmod? x y = none) :
    (∃ negative, x = .infinite negative) ∨ ∃ negative fits, y = .finite negative 0 fits := by
  cases x with
  | nan => cases y <;> cases h
  | infinite negative => exact .inl ⟨negative, rfl⟩
  | finite m q fits =>
    cases y with
    | nan | infinite _ => cases h
    | finite n r fits =>
      rw [fmod?] at h
      split at h
      · next hzero =>
        subst hzero
        exact .inr ⟨n, fits, rfl⟩
      · cases h

end Double

/-! ## Numbers -/

namespace Number

/-- A number that is shown as an integer of more digits than are written. -/
def ShowsLong (n : Number) : Prop :=
  ∃ i : Int, Nat.pow 10 Text.digitLimit ≤ i.natAbs ∧
    (n = .int i ∨ ∃ d, n = .double d ∧ d.toInt? = some i)

/-- An integer beyond the range of doubles. -/
def IsHuge (n : Number) : Prop := ∃ i, n = .int i ∧ Double.ofInt? i = none

/-- The reasons for which an operator on two numbers meets a fault: a huge integer beside a double,
huge integers in a remainder, an inexact quotient that is too large, and an infinite dividend. -/
inductive Faulty : BinaryOp → Number → Number → Fault → Prop
  | leftHuge {op : BinaryOp} {a : Number} (d : Double) :
      a.IsHuge → Faulty op a (.double d) .integerTooLarge
  | rightHuge {op : BinaryOp} {b : Number} (d : Double) :
      b.IsHuge → Faulty op (.double d) b .integerTooLarge
  | remainder {a b : Number} : a.IsHuge ∨ b.IsHuge → Faulty .mod a b .integerTooLarge
  | quotient {i j : Int} : ¬ j ∣ i → Double.ofQuotient? i j = none →
      Faulty .div (.int i) (.int j) .quotientTooLarge
  | infinite (negative : Bool) (b : Number) :
      Faulty .mod (.double (.infinite negative)) b .infiniteDividend

variable {a b : Number} {i : Int}

theorem failsOnly_integerText (i : Int) :
    FailsOnly (fun f => f = .digitLimit none ∧ Nat.pow 10 Text.digitLimit ≤ i.natAbs)
      (integerText i) := by
  rw [integerText]
  split
  · next hlong => exact .error ⟨rfl, hlong⟩
  · exact .ok _

theorem failsOnly_display (n : Number) :
    FailsOnly (fun f => f = .digitLimit none ∧ n.ShowsLong) n.display := by
  cases n with
  | int i => exact (failsOnly_integerText i).mono fun f hf => ⟨hf.1, i, hf.2, .inl rfl⟩
  | double d =>
    rw [display]
    split
    · next i hi =>
      exact (failsOnly_integerText i).mono fun f hf => ⟨hf.1, i, hf.2, .inr ⟨d, rfl, hi⟩⟩
    · exact .ok _

theorem failsOnly_toDouble (n : Number) :
    FailsOnly (fun f => f = .integerTooLarge ∧ n.IsHuge) n.toDouble := by
  -- which double is the nearest does not matter, and is not to be computed here
  obtain ⟨nearest, hnearest⟩ : ∃ nearest, nearest = Double.ofInt? := ⟨_, rfl⟩
  delta toDouble
  rw [← hnearest]
  split
  · next i =>
    split
    · exact .ok _
    · next hnone => exact .error ⟨rfl, i, rfl, hnearest ▸ hnone⟩
  · exact .ok _

/-- The double of a double is itself, and that of an integer the nearest one. -/
theorem toDouble_eq_ok {n : Number} {d : Double} (h : n.toDouble = .ok d) :
    n = .double d ∨ ∃ i, n = .int i ∧ Double.ofInt? i = some d := by
  obtain ⟨nearest, hnearest⟩ : ∃ nearest, nearest = Double.ofInt? := ⟨_, rfl⟩
  delta toDouble at h
  rw [← hnearest] at h ⊢
  split at h
  · next i =>
    split at h
    · next hsome =>
      obtain rfl := Except.ok.inj h
      exact .inr ⟨i, rfl, hsome⟩
    · cases h
  · obtain rfl := Except.ok.inj h
    exact .inl rfl

theorem failsOnly_viaDoubles (op : BinaryOp) (f : Double → Double → Double)
    (h : ∀ i j, a = .int i → b = .int j → False) :
    FailsOnly (Faulty op a b) (viaDoubles f a b) := by
  refine .bind ((failsOnly_toDouble a).mono ?_) fun _ _ =>
    .bind ((failsOnly_toDouble b).mono ?_) fun _ _ => .ok _
  · rintro _ ⟨rfl, i, rfl, hhuge⟩
    cases b with
    | int j => exact (h i j rfl rfl).elim
    | double d => exact .leftHuge d ⟨i, rfl, hhuge⟩
  · rintro _ ⟨rfl, j, rfl, hhuge⟩
    cases a with
    | int i => exact (h i j rfl rfl).elim
    | double d => exact .rightHuge d ⟨j, rfl, hhuge⟩

theorem failsOnly_add (a b : Number) : FailsOnly (Faulty .add a b) (a.add b) := by
  rw [add.eq_def]
  split
  · exact .ok _
  · next h => exact failsOnly_viaDoubles _ _ h

theorem failsOnly_sub (a b : Number) : FailsOnly (Faulty .sub a b) (a.sub b) := by
  rw [sub.eq_def]
  split
  · exact .ok _
  · next h => exact failsOnly_viaDoubles _ _ h

theorem failsOnly_mul (a b : Number) : FailsOnly (Faulty .mul a b) (a.mul b) := by
  rw [mul.eq_def]
  split
  · exact .ok _
  · next h => exact failsOnly_viaDoubles _ _ h

theorem failsOnly_div (a b : Number) : FailsOnly (Faulty .div a b) (a.div b) := by
  rw [div.eq_def]
  split
  · split
    · exact .ok _
    · next hdvd =>
      split
      · exact .ok _
      · next hnone => exact .error (.quotient hdvd hnone)
  · next h => exact failsOnly_viaDoubles _ _ h

/-- A number that is not zero is no zero as a double. -/
theorem ne_zero_of_toDouble {negative : Bool} {fits : Double.Fits 0} (hb : b.isZero = false) :
    b.toDouble ≠ .ok (.finite negative 0 fits) := by
  intro h
  rcases toDouble_eq_ok h with rfl | ⟨i, rfl, hi⟩
  · have hleft : (Number.double (.finite negative 0 fits)).extent? = some (.quanta 0) := by
      cases negative <;> rfl
    have hright : (Number.int 0).extent? = some (.quanta 0) := by
      rw [extent?, Int.zero_mul]
    rw [isZero, equal.eq_def] at hb
    dsimp only at hb
    rw [hleft, hright] at hb
    cases hb
  · obtain ⟨_, _, _, heq, hzero⟩ := Double.finite_of_ofInt? hi
    have hne : i ≠ 0 := by
      rintro rfl
      cases hb
    cases heq
    exact hzero hne rfl

theorem failsOnly_mod (a : Number) (hb : b.isZero = false) :
    FailsOnly (Faulty .mod a b) (a.mod b) := by
  refine .bind ((failsOnly_toDouble a).mono ?_) fun x hx =>
    .bind ((failsOnly_toDouble b).mono ?_) fun y hy => ?_
  · rintro _ ⟨rfl, hhuge⟩
    exact .remainder (.inl hhuge)
  · rintro _ ⟨rfl, hhuge⟩
    exact .remainder (.inr hhuge)
  split
  · next hnone =>
    rcases Double.fmod?_eq_none hnone with ⟨negative, rfl⟩ | ⟨negative, fits, rfl⟩
    -- only a double is infinite: an integer would have been refused before
    · rcases toDouble_eq_ok hx with rfl | ⟨i, -, hi⟩
      · exact .error (.infinite negative b)
      · obtain ⟨_, _, _, heq, -⟩ := Double.finite_of_ofInt? hi
        cases heq
    · exact absurd hy (ne_zero_of_toDouble hb)
  · split <;> exact .ok _

end Number

/-! ## Values and operators -/

theorem Value.failsOnly_display (v : Value) :
    FailsOnly (fun f => f = .digitLimit none ∧ ∃ n, v = .number n ∧ n.ShowsLong) v.display := by
  cases v with
  | number n => exact n.failsOnly_display.mono fun f hf => ⟨hf.1, n, rfl, hf.2⟩
  | _ => exact .ok _

namespace Operation

/-- The reasons for which an operator meets a fault: those of numbers, and an operand joined to a
text that has too many digits to be shown. -/
inductive Faulty : BinaryOp → Value → Value → Fault → Prop
  | numbers {op : BinaryOp} {a b : Number} {f : Fault} :
      a.Faulty op b f → Faulty op (.number a) (.number b) f
  | leftLong {n : Number} (s : String) :
      n.ShowsLong → Faulty .add (.number n) (.str s) (.digitLimit none)
  | rightLong {n : Number} (s : String) :
      n.ShowsLong → Faulty .add (.str s) (.number n) (.digitLimit none)

/-- How an operator fails: with a diagnostic, or with a fault that there is a reason for. -/
inductive Failure (op : BinaryOp) (l r : Value) : RunFailure → Prop
  | rejected (d : Diagnostic) : Failure op l r (.rejected d)
  | fault {f : Fault} : Faulty op l r f → Failure op l r (.fault f)

variable {l r : Value} {op : BinaryOp}

theorem failsOnly_ofFault {α : Type} {x : Except Fault α} {P : RunFailure → Prop}
    (h : FailsOnly (fun f => P (.fault f)) x) : FailsOnly P (ofFault x) := by
  cases h with
  | ok a => exact .ok a
  | error he => exact .error he

/-- What is done behind the test for numbers is done with two numbers. -/
theorem failsOnly_requireNumbers (pos : Position) (wanted : String) {x : Operation}
    (hx : ∀ a b, l = .number a → r = .number b → FailsOnly (Failure op l r) x) :
    FailsOnly (Failure op l r) (do requireNumbers pos op wanted l r; x) := by
  refine .bind (x := requireNumbers pos op wanted l r) ?_ fun _ h => ?_
  · rw [requireNumbers]
    split
    · exact .error (.rejected _)
    · split
      · exact .error (.rejected _)
      · exact .ok _
  · -- every other pair of kinds is refused by the test
    cases l with
    | number a =>
      cases r with
      | number b => exact hx a b rfl rfl
      | null | bool _ | str _ | closure _ | builtin _ => cases h
    | null | bool _ | str _ | closure _ | builtin _ => cases h

theorem failsOnly_onNumbers {a b : Number} {f : Number → Number → Except Fault Number}
    (hf : FailsOnly (Number.Faulty op a b) (f a b)) :
    FailsOnly (Failure op (.number a) (.number b)) (onNumbers f (.number a) (.number b)) :=
  .bind (failsOnly_ofFault (hf.mono fun _ h => .fault (.numbers h))) fun _ _ => .ok _

theorem failsOnly_arithmetic (pos : Position) {f : Number → Number → Except Fault Number}
    (hf : ∀ a b, FailsOnly (Number.Faulty op a b) (f a b)) :
    FailsOnly (Failure op l r) (arithmetic pos op f l r) := by
  refine failsOnly_requireNumbers pos "number" fun a b hl hr => ?_
  subst hl hr
  exact failsOnly_onNumbers (hf a b)

theorem failsOnly_division (pos : Position) (name : String)
    {f : Number → Number → Except Fault Number}
    (hf : ∀ a b, b.isZero = false → FailsOnly (Number.Faulty op a b) (f a b)) :
    FailsOnly (Failure op l r) (division pos op name f l r) := by
  refine failsOnly_requireNumbers pos "number" fun a b hl hr => ?_
  subst hl hr
  split
  · exact .error (.rejected _)
  · next hzero => exact failsOnly_onNumbers (hf a b (Bool.eq_false_iff.mpr hzero))

theorem exists_of_isText {v : Value} (h : v.isText = true) : ∃ s, v = .str s := by
  cases v with
  | str s => exact ⟨s, rfl⟩
  | null | bool _ | number _ | closure _ | builtin _ => cases h

theorem failsOnly_sum (pos : Position) : FailsOnly (Failure .add l r) (sum pos l r) := by
  rw [sum]
  split
  · next htext =>
    -- as soon as one operand is a text, both are shown; a text itself has no digits to count
    have hother : ∀ n, (l = .number n → ∃ s, r = .str s) ∧ (r = .number n → ∃ s, l = .str s) := by
      intro n
      rw [Bool.or_eq_true] at htext
      refine ⟨?_, ?_⟩
      · rintro rfl
        exact exists_of_isText (htext.resolve_left Bool.false_ne_true)
      · rintro rfl
        exact exists_of_isText (htext.resolve_right Bool.false_ne_true)
    refine .bind (failsOnly_ofFault (l.failsOnly_display.mono ?_)) fun _ _ =>
      .bind (failsOnly_ofFault (r.failsOnly_display.mono ?_)) fun _ _ => .ok _
    · rintro _ ⟨rfl, n, rfl, hlong⟩
      obtain ⟨s, rfl⟩ := (hother n).1 rfl
      exact .fault (.leftLong s hlong)
    · rintro _ ⟨rfl, n, rfl, hlong⟩
      obtain ⟨s, rfl⟩ := (hother n).2 rfl
      exact .fault (.rightLong s hlong)
  · refine failsOnly_requireNumbers pos "number or string" fun a b hl hr => ?_
    subst hl hr
    exact failsOnly_onNumbers (a.failsOnly_add b)

theorem failsOnly_compare (pos : Position) (onNumbers : Number → Number → Bool)
    (onTexts : String → String → Bool) :
    FailsOnly (Failure op l r) (compare pos op onNumbers onTexts l r) := by
  rw [compare]
  split
  · next hcomparable =>
    -- two numbers and two texts are all that the test lets through
    cases l <;> cases r <;> first | exact .ok _ | cases hcomparable
  · exact .error (.rejected _)

/-- Binary operators fail with a diagnostic, or with a fault that there is a reason for. -/
theorem failsOnly_binary (pos : Position) (op : BinaryOp) (l r : Value) :
    FailsOnly (Failure op l r) (binary pos op l r) := by
  cases op with
  | eq | ne => exact .ok _
  | add => exact failsOnly_sum pos
  | lt | gt | le | ge => exact failsOnly_compare ..
  | sub => exact failsOnly_arithmetic _ Number.failsOnly_sub
  | mul => exact failsOnly_arithmetic _ Number.failsOnly_mul
  | div => exact failsOnly_division _ _ fun a b _ => a.failsOnly_div b
  | mod => exact failsOnly_division _ _ fun a b hb => Number.failsOnly_mod a hb

/-- Unary operators fail with a diagnostic only. -/
theorem failsOnly_unary (pos : Position) (op : UnaryOp) (v : Value) :
    FailsOnly (fun e => ∃ d, e = .rejected d) (unary pos op v) := by
  cases op with
  | not => exact .ok _
  | minus | other _ =>
    rw [unary]
    cases v with
    | number n => exact .ok _
    | null | bool _ | str _ | closure _ | builtin _ => exact .error ⟨_, rfl⟩

end Operation

end MiniApp
