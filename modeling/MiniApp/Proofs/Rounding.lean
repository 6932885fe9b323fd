import Mathlib.Algebra.Group.Nat.Defs
import Mathlib.Data.Nat.Log
import MiniApp.Proofs.Eval.Faults

/-!
# Integers among the doubles

An integer is a double when it has at most 53 significant bits and stays below `2¹⁰²⁴`. Such an
integer is left alone by rounding, any other one moves to another integer or has no double at all.
Quanta with the right number of bits are closed under remainders, so that the remainder of two
doubles is never rounded.

## Main definitions

* `Double.Exact`: the integers that are doubles
* `Double.nearestInt?`: the integer that an integer becomes as a double

## Main results

* `Double.fits_mod`: a remainder of doubles is a double
* `Double.nearestInt?_eq_self_iff`: the integers that rounding leaves alone
* `Double.nearestInt?_eq_none`: integers from `2¹⁰²⁴` on have no double
-/

namespace MiniApp.Double

variable {p q n e : Nat} {i j : Int}

/-! ## Gaps -/

theorem gap_dvd_gap (h : p ≤ q) : gap p ∣ gap q := by
  refine Nat.pow_dvd_pow 2 (Nat.sub_le_sub_right ?_ 52)
  rw [Nat.log2_eq_log_two, Nat.log2_eq_log_two]
  exact Nat.log_mono_right h

theorem Fits.gap_dvd (h : Fits q) : gap q ∣ q := Nat.dvd_of_mod_eq_zero h.2

/-- What has few enough significant bits is left alone by rounding. -/
theorem nearest_eq_self (h : gap q ∣ q) : nearest q 1 = q := by
  rw [nearest, Nat.div_one, Nat.one_mul, roundDiv, Nat.mod_eq_zero_of_dvd h,
    if_pos (gap_pos q), Nat.div_mul_cancel h]

theorem ofRatio_of_fits (negative : Bool) (h : Fits q) :
    ofRatio negative q 1 = .finite negative q h := by
  have hself := nearest_eq_self h.gap_dvd
  have hfits : Fits (nearest q 1) := hself.symm ▸ h
  rw [ofRatio, dif_pos hfits]
  congr

/-- A remainder has no more significant bits than the coarser of its operands. -/
theorem fits_mod (hp : Fits p) (hq : Fits q) : Fits (p % q) := by
  refine ⟨(Nat.mod_le p q).trans_lt hp.1, Nat.mod_eq_zero_of_dvd ?_⟩
  obtain rfl | hzero := Nat.eq_zero_or_pos q
  · rw [Nat.mod_zero]
    exact hp.gap_dvd
  · have hleft : gap (p % q) ∣ p := Nat.dvd_trans (gap_dvd_gap (Nat.mod_le p q)) hp.gap_dvd
    have hright : gap (p % q) ∣ q :=
      Nat.dvd_trans (gap_dvd_gap (Nat.mod_lt p hzero).le) hq.gap_dvd
    exact (Nat.dvd_mod_iff hright).mpr hleft

/-- The remainder of finite doubles is exact. -/
theorem fmod?_finite (m n : Bool) (hp : Fits p) (hq : Fits q) (hzero : q ≠ 0) :
    fmod? (.finite m p hp) (.finite n q hq) = some (.finite m (p % q) (fits_mod hp hq)) := by
  rw [fmod?, if_neg hzero, ofRatio_of_fits]

/-! ## Whole units -/

theorem unit_eq : unit = 2 ^ 1074 := by decide +kernel

/-- The bound of the doubles in whole units. -/
theorem fits_iff (q : Nat) : Fits q ↔ q < 2 ^ 1024 * unit ∧ gap q ∣ q := by
  -- the bound is compared with its value in units by the kernel, which computes powers fast
  obtain ⟨bound, hfits, hbound⟩ :
      ∃ bound, Fits q = (q < bound ∧ q % gap q = 0) ∧ bound = 2 ^ 1024 * unit :=
    ⟨_, rfl, by decide +kernel⟩
  rw [hfits, hbound, Nat.dvd_iff_mod_eq_zero]

theorem log2_mul_two_pow (h : n ≠ 0) : (n * 2 ^ e).log2 = n.log2 + e := by
  have hpos : n * 2 ^ e ≠ 0 := Nat.mul_ne_zero h (Nat.two_pow_pos e).ne'
  refine (Nat.log2_eq_iff hpos).mpr ⟨?_, ?_⟩
  · rw [Nat.pow_add]
    exact Nat.mul_le_mul_right _ (Nat.log2_self_le h)
  · rw [Nat.add_right_comm, Nat.pow_add]
    exact Nat.mul_lt_mul_of_pos_right Nat.lt_log2_self (Nat.two_pow_pos e)

/-- A gap is a part of the unit or a multiple of it. -/
theorem gap_dvd_two_pow_or (q e : Nat) : gap q ∣ 2 ^ e ∨ 2 ^ e ∣ gap q :=
  (Nat.le_total (q.log2 - 52) e).imp (Nat.pow_dvd_pow 2) (Nat.pow_dvd_pow 2)

theorem two_pow_dvd_nearest (n e : Nat) : 2 ^ e ∣ nearest (n * 2 ^ e) 1 := by
  rcases gap_dvd_two_pow_or (n * 2 ^ e) e with hgap | hgap
  · rw [nearest_eq_self (Nat.dvd_trans hgap (Nat.dvd_mul_left _ n))]
    exact Nat.dvd_mul_left _ n
  · rw [nearest, Nat.div_one]
    exact Nat.dvd_trans hgap (Nat.dvd_mul_left _ _)

/-- The leading bit survives rounding. -/
theorem two_pow_log2_le_nearest (h : q ≠ 0) : 2 ^ q.log2 ≤ nearest q 1 := by
  have hself := Nat.log2_self_le h
  have hround : q / gap q ≤ roundDiv q (gap q) := by
    rw [roundDiv]
    split
    · exact le_rfl
    · split
      · exact Nat.le_succ _
      · exact Nat.le_add_right _ _
  have hdvd : gap q ∣ 2 ^ q.log2 := Nat.pow_dvd_pow 2 (Nat.sub_le _ _)
  calc 2 ^ q.log2 = 2 ^ q.log2 / gap q * gap q := (Nat.div_mul_cancel hdvd).symm
    _ ≤ roundDiv q (gap q) * gap q :=
      Nat.mul_le_mul_right _ ((Nat.div_le_div_right hself).trans hround)
    _ = nearest q 1 := by rw [nearest, Nat.div_one, Nat.one_mul]

theorem two_pow_mul_le_nearest {k : Nat} (h : 2 ^ k ≤ n) :
    2 ^ k * 2 ^ e ≤ nearest (n * 2 ^ e) 1 := by
  have hn : n ≠ 0 := ((Nat.two_pow_pos k).trans_le h).ne'
  have hlog : k ≤ n.log2 := (Nat.le_log2 hn).mpr h
  calc 2 ^ k * 2 ^ e = 2 ^ (k + e) := (Nat.pow_add 2 k e).symm
    _ ≤ 2 ^ (n * 2 ^ e).log2 := by
      rw [log2_mul_two_pow hn]
      exact Nat.pow_le_pow_right Nat.two_pos (Nat.add_le_add_right hlog e)
    _ ≤ nearest (n * 2 ^ e) 1 :=
      two_pow_log2_le_nearest (Nat.mul_ne_zero hn (Nat.two_pow_pos e).ne')

/-- Whole units are a double when their number has at most 53 significant bits. -/
theorem gap_mul_two_pow_dvd_iff (n : Nat) (he : 52 ≤ e) :
    gap (n * 2 ^ e) ∣ n * 2 ^ e ↔ gap n ∣ n := by
  obtain rfl | hn := eq_or_ne n 0
  · rw [Nat.zero_mul]
  rcases Nat.le_total 52 n.log2 with hlog | hlog
  · have hgap : gap (n * 2 ^ e) = gap n * 2 ^ e := by
      have hsplit : n.log2 + e - 52 = n.log2 - 52 + e := Nat.sub_add_comm hlog
      rw [gap, log2_mul_two_pow hn, hsplit]
      exact Nat.pow_add 2 _ _
    rw [hgap]
    exact Nat.mul_dvd_mul_iff_right (Nat.two_pow_pos e)
  · -- so few bits are no coarser than one unit, with or without the factor
    have hone : gap n = 1 := by
      rw [gap, Nat.sub_eq_zero_of_le hlog]
    have hpart : gap (n * 2 ^ e) ∣ 2 ^ e := by
      rw [gap, log2_mul_two_pow hn]
      exact Nat.pow_dvd_pow 2 (by omega)
    exact iff_of_true (Nat.dvd_trans hpart (Nat.dvd_mul_left _ n)) (hone ▸ Nat.one_dvd n)

/-! ## Integers -/

/-- The integers that are doubles: below `2¹⁰²⁴`, with at most 53 significant bits. -/
def Exact (i : Int) : Prop := i.natAbs < 2 ^ 1024 ∧ gap i.natAbs ∣ i.natAbs

theorem fits_units_iff (n : Nat) : Fits (n * unit) ↔ n < 2 ^ 1024 ∧ gap n ∣ n := by
  rw [fits_iff, Nat.mul_lt_mul_right unit_pos, unit_eq, gap_mul_two_pow_dvd_iff n (by decide)]

/-- All integers up to `2⁵³` are doubles. -/
theorem exact_of_le (h : i.natAbs ≤ 2 ^ 53) : Exact i := by
  have hrange : (2 : Nat) ^ 53 < 2 ^ 1024 := by decide +kernel
  refine ⟨h.trans_lt hrange, ?_⟩
  obtain heq | hlt := h.eq_or_lt
  · rw [heq]
    decide
  · have hlog : i.natAbs.log2 ≤ 52 := by
      rw [Nat.log2_eq_log_two]
      exact Nat.lt_succ_iff.mp (Nat.log_lt_of_lt_pow' (by decide) hlt)
    rw [gap, Nat.sub_eq_zero_of_le hlog]
    exact Nat.one_dvd _

theorem natAbs_signed (negative : Bool) (n : Nat) : (signed negative n).natAbs = n := by
  cases negative with
  | false => exact Int.natAbs_natCast n
  | true => exact (Int.natAbs_neg _).trans (Int.natAbs_natCast n)

theorem signed_natAbs (i : Int) : signed (i < 0) i.natAbs = i := by
  by_cases hsign : i < 0
  · rw [decide_eq_true hsign, signed, if_pos rfl]
    omega
  · rw [decide_eq_false hsign, signed, if_neg Bool.false_ne_true]
    omega

theorem toInt?_units (negative : Bool) (n : Nat) (fits : Fits (n * unit)) :
    toInt? (.finite negative (n * unit) fits) = some (signed negative n) := by
  delta toInt?
  dsimp only
  rw [if_pos (Nat.mul_mod_left n unit), Nat.mul_div_cancel n unit_pos]

theorem truncate_units (negative : Bool) (n : Nat) (fits : Fits (n * unit)) :
    truncate (.finite negative (n * unit) fits) = signed negative n := by
  delta truncate
  dsimp only
  rw [Nat.mul_div_cancel n unit_pos]

theorem finite_congr (negative : Bool) (h : p = q) (hp : Fits p) (hq : Fits q) :
    finite negative p hp = finite negative q hq := by
  subst h
  rfl

/-- Whole units are rounded to whole units. -/
theorem exists_units_nearest (n : Nat) : ∃ r, nearest (n * unit) 1 = r * unit := by
  obtain ⟨r, hr⟩ := two_pow_dvd_nearest n 1074
  rw [unit_eq]
  exact ⟨r, hr.trans (Nat.mul_comm _ r)⟩

/-- Rounding an integer to a double, in quanta. -/
theorem ofInt?_eq (i : Int) :
    ofInt? i = if fits : Fits (nearest (i.natAbs * unit) 1)
      then some (.finite (i < 0) (nearest (i.natAbs * unit) 1) fits) else none := by
  -- the quanta of one unit are left a variable, lest they be computed
  obtain ⟨f, hf⟩ : ∃ f, f = ofInt? := ⟨_, rfl⟩
  obtain ⟨u, hu⟩ : ∃ u, u = unit := ⟨_, rfl⟩
  rw [← hf, ← hu]
  delta ofInt? at hf
  rw [← hu] at hf
  subst hf
  dsimp only
  by_cases fits : Fits (nearest (i.natAbs * u) 1)
  · rw [ofRatio, dif_pos fits, dif_pos fits]
  · rw [ofRatio, dif_neg fits, dif_neg fits]

/-- The double of an integer is a whole number of units with the sign of the integer. -/
theorem ofInt?_eq_some {d : Double} (h : ofInt? i = some d) :
    ∃ n fits, d = .finite (i < 0) (n * unit) fits ∧ (i ≠ 0 → n ≠ 0) := by
  rw [ofInt?_eq] at h
  split at h
  · next fits =>
    obtain ⟨n, hn⟩ := exists_units_nearest i.natAbs
    have hzero : i ≠ 0 → n ≠ 0 := by
      rintro hi rfl
      rw [Nat.zero_mul] at hn
      exact nearest_ne_zero (Nat.mul_ne_zero (Int.natAbs_ne_zero.mpr hi) unit_pos.ne') hn
    refine ⟨n, hn ▸ fits, ?_, hzero⟩
    rw [← Option.some.inj h]
    exact finite_congr _ hn _ _
  · cases h

/-- The integer that an integer becomes as a double; none if it is too large. -/
def nearestInt? (i : Int) : Option Int := (ofInt? i).bind toInt?

theorem nearestInt?_eq_none_iff : nearestInt? i = none ↔ ofInt? i = none := by
  rw [nearestInt?]
  cases hd : ofInt? i with
  | none => exact iff_of_true rfl rfl
  | some d =>
    obtain ⟨n, fits, rfl, -⟩ := ofInt?_eq_some hd
    rw [Option.bind_some, toInt?_units]
    exact iff_of_false (by simp) (by simp)

theorem nearestInt?_eq_some (h : nearestInt? i = some j) :
    ∃ n fits, ofInt? i = some (.finite (i < 0) (n * unit) fits) ∧ j = signed (i < 0) n ∧
      (i ≠ 0 → n ≠ 0) := by
  obtain ⟨d, hd, hj⟩ := Option.bind_eq_some_iff.mp h
  obtain ⟨n, fits, rfl, hzero⟩ := ofInt?_eq_some hd
  rw [toInt?_units] at hj
  exact ⟨n, fits, hd, (Option.some.inj hj).symm, hzero⟩

theorem nearestInt?_ne_zero (h : nearestInt? i = some j) (hi : i ≠ 0) : j ≠ 0 := by
  obtain ⟨n, -, -, rfl, hzero⟩ := nearestInt?_eq_some h
  rw [← Int.natAbs_ne_zero, natAbs_signed]
  exact hzero hi

/-- Rounding leads to integers that are doubles. -/
theorem exact_of_nearestInt? (h : nearestInt? i = some j) : Exact j := by
  obtain ⟨n, fits, -, rfl, -⟩ := nearestInt?_eq_some h
  rw [Exact, natAbs_signed]
  exact (fits_units_iff n).mp fits

/-- The integers that are doubles are those that rounding leaves alone. -/
theorem nearestInt?_eq_self_iff : nearestInt? i = some i ↔ Exact i := by
  refine ⟨exact_of_nearestInt?, fun h => ?_⟩
  have fits : Fits (i.natAbs * unit) := (fits_units_iff _).mpr h
  have hself : nearest (i.natAbs * unit) 1 = i.natAbs * unit := nearest_eq_self fits.gap_dvd
  have hd : ofInt? i = some (.finite (i < 0) (i.natAbs * unit) fits) := by
    rw [ofInt?_eq, dif_pos (hself.symm ▸ fits), finite_congr _ hself]
  rw [nearestInt?, hd, Option.bind_some, toInt?_units, signed_natAbs]

/-- An integer of 1025 bits or more has no double. -/
theorem nearestInt?_eq_none (h : 2 ^ 1024 ≤ i.natAbs) : nearestInt? i = none := by
  have hlarge : 2 ^ 1024 * unit ≤ nearest (i.natAbs * unit) 1 := by
    rw [unit_eq]
    exact two_pow_mul_le_nearest h
  rw [nearestInt?_eq_none_iff, ofInt?_eq, dif_neg]
  intro fits
  exact (((fits_iff _).mp fits).1.trans_le hlarge).false

end MiniApp.Double
