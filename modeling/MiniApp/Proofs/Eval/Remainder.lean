import MiniApp.Proofs.Rounding

/-!
# Remainders of integers

The remainder of two integers is that of their doubles. It obeys the law of remainders for the
integers that the operands become as doubles, hence for the operands themselves when both are
doubles, and there is none when one of them is too large to have a double.

## Main definitions

* `Remainder`: the law that a remainder obeys

## Main results

* `Remainder.iff_eq_tmod`: the law determines the remainder
* `Operation.binary_mod_int`: which law the remainder of two integers obeys
-/

namespace MiniApp

/-- The remainder of a division: smaller than the divisor, with the sign of the dividend unless it
is zero, and what is missing for the divisor to divide the dividend. -/
structure Remainder (dividend divisor r : Int) : Prop where
  small : r.natAbs < divisor.natAbs
  sign : r = 0 ∨ r.sign = dividend.sign
  dvd : divisor ∣ dividend - r

namespace Remainder

variable {a b r s : Int}

theorem tmod (a : Int) (hb : b ≠ 0) : Remainder a b (a.tmod b) where
  small := by
    rw [Int.natAbs_tmod]
    exact Nat.mod_lt _ (Int.natAbs_pos.mpr hb)
  sign := by
    by_cases hdvd : b ∣ a
    · exact .inl (Int.tmod_eq_zero_of_dvd hdvd)
    · rw [Int.sign_tmod, if_neg hdvd]
      exact .inr rfl
  dvd := Int.dvd_self_sub_tmod

/-- Two remainders of one division lie on the same side of zero. -/
theorem natAbs_sub_lt (hr : Remainder a b r) (hs : Remainder a b s) :
    (r - s).natAbs < b.natAbs := by
  have hr' := hr.small
  have hs' := hs.small
  rcases hr.sign, hs.sign with ⟨rfl | hrsign, rfl | hssign⟩
  · omega
  · omega
  · omega
  · rcases Int.sign_trichotomy a with ha | ha | ha
    · have hrpos := Int.sign_eq_one_iff_pos.mp (hrsign.trans ha)
      have hspos := Int.sign_eq_one_iff_pos.mp (hssign.trans ha)
      omega
    · have hrzero := Int.sign_eq_zero_iff_zero.mp (hrsign.trans ha)
      omega
    · have hrneg := Int.sign_eq_neg_one_iff_neg.mp (hrsign.trans ha)
      have hsneg := Int.sign_eq_neg_one_iff_neg.mp (hssign.trans ha)
      omega

theorem unique (hr : Remainder a b r) (hs : Remainder a b s) : r = s := by
  have hdvd : b ∣ r - s := by
    have hdiff : a - s - (a - r) = r - s := by omega
    exact hdiff ▸ Int.dvd_sub hs.dvd hr.dvd
  exact Int.sub_eq_zero.mp (Int.eq_zero_of_dvd_of_natAbs_lt_natAbs hdvd (natAbs_sub_lt hr hs))

/-- The law determines the remainder. -/
theorem iff_eq_tmod (hb : b ≠ 0) : Remainder a b r ↔ r = a.tmod b := by
  refine ⟨fun h => h.unique (tmod a hb), ?_⟩
  rintro rfl
  exact tmod a hb

end Remainder

namespace Double

/-- The remainder of signed magnitudes takes its sign from the dividend. -/
theorem tmod_signed (m n : Bool) (p q : Nat) :
    (signed m p).tmod (signed n q) = signed m (p % q) := by
  have hpos : (p : Int).tmod q = ((p % q : Nat) : Int) := rfl
  cases m <;> cases n <;>
    simp only [signed, Int.neg_tmod, Int.tmod_neg, hpos, if_true, Bool.false_eq_true, if_false]

end Double

namespace Number

variable {a b i j : Int}

theorem toDouble_int {d : Double} (h : Double.ofInt? a = some d) :
    (Number.int a).toDouble = .ok d := by
  cases hx : (Number.int a).toDouble with
  | ok x =>
    obtain hdouble | ⟨i, hi, hx⟩ := toDouble_eq_ok hx
    · cases hdouble
    · cases hi
      rw [Option.some.inj (hx.symm.trans h)]
  | error f =>
    obtain ⟨-, i, hi, hnone⟩ := (failsOnly_toDouble _).of_error hx
    cases hi
    cases hnone.symm.trans h

theorem toDouble_int_eq_error (h : Double.ofInt? a = none) :
    (Number.int a).toDouble = .error .integerTooLarge := by
  cases hx : (Number.int a).toDouble with
  | ok x =>
    obtain hdouble | ⟨i, hi, hx⟩ := toDouble_eq_ok hx
    · cases hdouble
    · cases hi
      cases hx.symm.trans h
  | error f => rw [((failsOnly_toDouble _).of_error hx).1]

/-- A remainder of integers is a whole number. -/
theorem mod_eq_ok {m n : Number} {x y r : Double} (hm : m = .int a) (hn : n = .int b)
    (hx : m.toDouble = .ok x) (hy : n.toDouble = .ok y) (hr : Double.fmod? x y = some r) :
    m.mod n = .ok (.int r.truncate) := by
  delta mod
  rw [hx, hy]
  simp only [hr, bind, Except.bind, pure, Except.pure]
  rw [hm, hn]

theorem mod_eq_error_left {m n : Number} {f : Fault} (hx : m.toDouble = .error f) :
    m.mod n = .error f := by
  delta mod
  rw [hx]
  rfl

theorem mod_eq_error_right {m n : Number} {x : Double} {f : Fault} (hx : m.toDouble = .ok x)
    (hy : n.toDouble = .error f) : m.mod n = .error f := by
  delta mod
  rw [hx, hy]
  rfl

/-- The remainder of two integers is that of the integers they become as doubles. -/
theorem mod_int (ha : Double.nearestInt? a = some i) (hb : Double.nearestInt? b = some j)
    (hzero : b ≠ 0) : (Number.int a).mod (.int b) = .ok (.int (i.tmod j)) := by
  obtain ⟨p, hp, hleft, rfl, -⟩ := Double.nearestInt?_eq_some ha
  obtain ⟨q, hq, hright, rfl, hdivisor⟩ := Double.nearestInt?_eq_some hb
  have hunits : p * Double.unit % (q * Double.unit) = p % q * Double.unit :=
    Nat.mul_mod_mul_right _ p q
  have hne : q * Double.unit ≠ 0 := Nat.mul_ne_zero (hdivisor hzero) Double.unit_pos.ne'
  have hfits : Double.Fits (p % q * Double.unit) := hunits ▸ Double.fits_mod hp hq
  have hfmod := Double.fmod?_finite (a < 0) (b < 0) hp hq hne
  rw [Double.finite_congr _ hunits _ hfits] at hfmod
  rw [mod_eq_ok rfl rfl (toDouble_int hleft) (toDouble_int hright) hfmod, Double.truncate_units,
    Double.tmod_signed]

/-- There is no remainder when one of the integers has no double. -/
theorem mod_int_eq_error (h : Double.nearestInt? a = none ∨ Double.nearestInt? b = none) :
    (Number.int a).mod (.int b) = .error .integerTooLarge := by
  rw [Double.nearestInt?_eq_none_iff, Double.nearestInt?_eq_none_iff] at h
  rcases h with hleft | hright
  · exact mod_eq_error_left (toDouble_int_eq_error hleft)
  · have hy := toDouble_int_eq_error hright
    cases hx : (Number.int a).toDouble with
    | ok x => exact mod_eq_error_right hx hy
    | error f =>
      rw [mod_eq_error_left hx, ((failsOnly_toDouble _).of_error hx).1]

end Number

namespace Operation

variable {m n : Number}

/-- Two numbers pass the tests for numbers, and the second one the test for zero. -/
theorem binary_mod_eq (pos : Position) (hn : n.isZero = false) :
    binary pos .mod (.number m) (.number n) =
      onNumbers Number.mod (.number m) (.number n) :=
  if_neg (Bool.eq_false_iff.mp hn)

theorem binary_mod_eq_ok (pos : Position) {r : Number} (hn : n.isZero = false)
    (h : m.mod n = .ok r) : binary pos .mod (.number m) (.number n) = .ok (.number r) := by
  rw [binary_mod_eq pos hn, onNumbers, h]
  rfl

theorem binary_mod_eq_error (pos : Position) {f : Fault} (hn : n.isZero = false)
    (h : m.mod n = .error f) : binary pos .mod (.number m) (.number n) = .error (.fault f) := by
  rw [binary_mod_eq pos hn, onNumbers, h]
  rfl

/-- The remainder of integers obeys the law for the integers that they become as doubles, so for
themselves if they are doubles; integers that have no double, among them all from `2¹⁰²⁴` on, have
no remainder. -/
theorem binary_mod_int (pos : Position) (a b : Int) (hb : b ≠ 0) :
    (∀ i j, Double.nearestInt? a = some i → Double.nearestInt? b = some j →
      ∃ r, binary pos .mod (.number (.int a)) (.number (.int b)) = .ok (.number (.int r)) ∧
        Remainder i j r) ∧
    (Double.Exact a → Double.Exact b →
      ∃ r, binary pos .mod (.number (.int a)) (.number (.int b)) = .ok (.number (.int r)) ∧
        Remainder a b r) ∧
    (Double.nearestInt? a = none ∨ Double.nearestInt? b = none →
      binary pos .mod (.number (.int a)) (.number (.int b)) =
        .error (.fault .integerTooLarge)) ∧
    (2 ^ 1024 ≤ a.natAbs ∨ 2 ^ 1024 ≤ b.natAbs →
      binary pos .mod (.number (.int a)) (.number (.int b)) =
        .error (.fault .integerTooLarge)) := by
  have hzero : (Number.int b).isZero = false := beq_false_of_ne hb
  have hlaw : ∀ i j, Double.nearestInt? a = some i → Double.nearestInt? b = some j →
      ∃ r, binary pos .mod (.number (.int a)) (.number (.int b)) = .ok (.number (.int r)) ∧
        Remainder i j r := by
    intro i j hi hj
    exact ⟨i.tmod j, binary_mod_eq_ok pos hzero (Number.mod_int hi hj hb),
      .tmod i (Double.nearestInt?_ne_zero hj hb)⟩
  have hnone : Double.nearestInt? a = none ∨ Double.nearestInt? b = none →
      binary pos .mod (.number (.int a)) (.number (.int b)) =
        .error (.fault .integerTooLarge) :=
    fun h => binary_mod_eq_error pos hzero (Number.mod_int_eq_error h)
  refine ⟨hlaw, fun ha hb => ?_, hnone, fun h => hnone (h.imp ?_ ?_)⟩
  · exact hlaw a b (Double.nearestInt?_eq_self_iff.mpr ha) (Double.nearestInt?_eq_self_iff.mpr hb)
  · exact Double.nearestInt?_eq_none
  · exact Double.nearestInt?_eq_none

/-- A negative dividend leaves a negative remainder. -/
theorem binary_mod_neg_seven_two :
    binary .start .mod (.number (.int (-7))) (.number (.int 2)) = .ok (.number (.int (-1))) := by
  obtain ⟨-, hexact, -, -⟩ := binary_mod_int .start (-7) 2 (by decide)
  obtain ⟨r, hr, hlaw⟩ := hexact (Double.exact_of_le (by decide)) (Double.exact_of_le (by decide))
  rw [hr, (Remainder.iff_eq_tmod (by decide)).mp hlaw]
  rfl

/-- The odd integer after `2⁵³` is rounded to `2⁵³`, whose remainder by two is zero. -/
theorem binary_mod_not_exact :
    ¬ ∀ a b : Int, b ≠ 0 → ∃ r,
      binary .start .mod (.number (.int a)) (.number (.int b)) = .ok (.number (.int r)) ∧
        Remainder a b r := by
  intro hexact
  obtain ⟨r, hr, hlaw⟩ := hexact 9007199254740993 2 (by decide)
  have hleft : Double.nearestInt? 9007199254740993 = some 9007199254740992 := by decide +kernel
  have hright : Double.nearestInt? 2 = some 2 := by decide +kernel
  rw [binary_mod_eq_ok .start rfl (Number.mod_int hleft hright (by decide))] at hr
  cases hr
  exact absurd hlaw.dvd (by decide)

end Operation

end MiniApp
