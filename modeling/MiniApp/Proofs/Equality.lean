import MiniApp.Proofs.Rounding

/-!
# Equality of values

Two numbers are equal when they have the same exact value, whichever sort they are of. Equality is
symmetric and transitive, and only the double that is not a number differs from itself. Equal values
have the same type, count the same in tests, and are shown the same, where functions are assumed to
be told apart by their identities.

## Main results

* `Number.equal_iff`: equality as having one exact value
* `Number.display_eq_of_equal`: equal numbers are shown the same, or are both too long to be shown
* `Value.equal_symm`, `Value.equal_trans`, `Value.equal_self_iff`: laws of equality
* `Value.typeName_eq_of_equal`, `Value.isTruthy_eq_of_equal`, `Value.display_eq_of_equal`: what
  equal values have in common
-/

namespace MiniApp

namespace Double

variable {d e : Double} {i : Int} {x : Extent}

theorem signed_mul (negative : Bool) (n u : Nat) :
    signed negative (n * u) = signed negative n * u := by
  cases negative with
  | false => exact Int.natCast_mul n u
  | true =>
    have hcast : ((n * u : Nat) : Int) = n * u := Int.natCast_mul n u
    simp only [signed, if_true, hcast, Int.neg_mul]

/-- A signed magnitude has one sign and one magnitude, except for zero. -/
theorem signed_inj {m n : Bool} {q r : Nat} (h : signed m q = signed n r) :
    m = n ∧ q = r ∨ signed m q = 0 := by
  have hq : q = r := by rw [← natAbs_signed m q, h, natAbs_signed]
  subst hq
  cases m <;> cases n
  · exact .inl ⟨rfl, rfl⟩
  · refine .inr ?_
    simp only [signed, Bool.false_eq_true, if_false, if_true] at h ⊢
    omega
  · refine .inr ?_
    simp only [signed, Bool.false_eq_true, if_false, if_true] at h ⊢
    omega
  · exact .inl ⟨rfl, rfl⟩

theorem unit_ne_zero : (unit : Int) ≠ 0 := Int.natCast_ne_zero.mpr unit_pos.ne'

/-- A double with the exact value of an integer is that integer. -/
theorem toInt?_of_extent? (h : d.extent? = some (.quanta (i * unit))) : d.toInt? = some i := by
  cases d with
  | nan => cases h
  | infinite negative => cases negative <;> cases h
  | finite negative q fits =>
    have hvalue : signed negative q = i * unit := Extent.quanta.inj (Option.some.inj h)
    have hq : q = i.natAbs * unit := by
      rw [← natAbs_signed negative q, hvalue, Int.natAbs_mul, Int.natAbs_natCast]
    have hfits : Fits (i.natAbs * unit) := hq ▸ fits
    rw [hq, signed_mul] at hvalue
    rw [finite_congr negative hq fits hfits, toInt?_units,
      Int.eq_of_mul_eq_mul_right unit_ne_zero hvalue]

/-- Doubles with the same exact value are the same, unless they are zeros. -/
theorem eq_or_toInt?_of_extent? (hd : d.extent? = some x) (he : e.extent? = some x) :
    d = e ∨ d.toInt? = some 0 ∧ e.toInt? = some 0 := by
  have hsame := hd.trans he.symm
  cases d with
  | nan => cases hd
  | infinite m =>
    cases e with
    | nan => cases he
    | infinite n =>
      left
      cases m <;> cases n <;> first | rfl | cases hsame
    | finite n r hr => cases m <;> cases hsame
  | finite m q hq =>
    cases e with
    | nan => cases he
    | infinite n => cases n <;> cases hsame
    | finite n r hr =>
      have hvalue : signed m q = signed n r := Extent.quanta.inj (Option.some.inj hsame)
      -- the sign and the amount are read off the value, except for zero, which has both signs
      obtain ⟨rfl, hqr⟩ | hzero := signed_inj hvalue
      · exact .inl (finite_congr m hqr hq hr)
      · have hunits : (0 : Int) = 0 * unit := (Int.zero_mul _).symm
        refine .inr ⟨toInt?_of_extent? ?_, toInt?_of_extent? ?_⟩
        · rw [← hunits, ← hzero]
          rfl
        · rw [← hunits, ← hzero, hvalue]
          rfl

end Double

namespace Number

variable {a b c : Number}

theorem both_eq_iff (x? y? : Option Extent) :
    (match x?, y? with
      | some x, some y => x == y
      | _, _ => false) = true ↔ ∃ x, x? = some x ∧ y? = some x := by
  cases x? with
  | none => exact iff_of_false Bool.false_ne_true (by rintro ⟨x, hx, -⟩; cases hx)
  | some x =>
    cases y? with
    | none => exact iff_of_false Bool.false_ne_true (by rintro ⟨y, -, hy⟩; cases hy)
    | some y =>
      refine ⟨fun h => ⟨x, rfl, congrArg some (beq_iff_eq.mp h).symm⟩, ?_⟩
      rintro ⟨z, hx, hy⟩
      cases hx
      cases hy
      exact beq_self_eq_true x

theorem extent?_int_inj {i j : Int} : (Number.int i).extent? = (Number.int j).extent? ↔ i = j := by
  refine ⟨fun h => ?_, fun h => by rw [h]⟩
  exact Int.eq_of_mul_eq_mul_right Double.unit_ne_zero (Extent.quanta.inj (Option.some.inj h))

/-- Numbers are equal when they have the same exact value. -/
theorem equal_iff : a.equal b = true ↔ ∃ x, a.extent? = some x ∧ b.extent? = some x := by
  rw [equal.eq_def]
  split
  · next i j =>
    refine beq_iff_eq.trans (extent?_int_inj.symm.trans ⟨fun h => ⟨_, rfl, h.symm⟩, ?_⟩)
    rintro ⟨x, hi, hj⟩
    exact hi.trans hj.symm
  · exact both_eq_iff _ _

theorem equal_symm (h : a.equal b = true) : b.equal a = true := by
  obtain ⟨x, ha, hb⟩ := equal_iff.mp h
  exact equal_iff.mpr ⟨x, hb, ha⟩

theorem equal_trans (hab : a.equal b = true) (hbc : b.equal c = true) : a.equal c = true := by
  obtain ⟨x, ha, hb⟩ := equal_iff.mp hab
  obtain ⟨y, hb', hc⟩ := equal_iff.mp hbc
  exact equal_iff.mpr ⟨x, ha, Option.some.inj (hb.symm.trans hb') ▸ hc⟩

/-- Only the double that is no number has no exact value. -/
theorem exists_extent?_iff : (∃ x, a.extent? = some x) ↔ a ≠ .double .nan := by
  cases a with
  | int i => exact iff_of_true ⟨_, rfl⟩ nofun
  | double d =>
    cases d with
    | nan => exact iff_of_false nofun fun h => h rfl
    | infinite negative => exact iff_of_true ⟨_, rfl⟩ nofun
    | finite negative q fits => exact iff_of_true ⟨_, rfl⟩ nofun

theorem equal_self_iff : a.equal a = true ↔ a ≠ .double .nan := by
  rw [equal_iff, ← exists_extent?_iff]
  exact ⟨fun ⟨x, hx, _⟩ => ⟨x, hx⟩, fun ⟨x, hx⟩ => ⟨x, hx, hx⟩⟩

/-- Equal numbers are zero together. -/
theorem isZero_eq_of_equal (h : a.equal b = true) : a.isZero = b.isZero :=
  Bool.eq_iff_iff.mpr ⟨equal_trans (equal_symm h), equal_trans h⟩

theorem display_int_double {i : Int} {d : Double} (h : (Number.int i).equal (.double d) = true) :
    (Number.int i).display = (Number.double d).display := by
  obtain ⟨x, hi, hd⟩ := equal_iff.mp h
  have hd' : d.toInt? = some i := Double.toInt?_of_extent? (hd.trans hi.symm)
  rw [display, display, hd']

/-- Equal numbers are shown the same, or both have too many digits to be shown. -/
theorem display_eq_of_equal (h : a.equal b = true) : a.display = b.display := by
  cases a with
  | int i =>
    cases b with
    | int j => rw [beq_iff_eq.mp h]
    | double d => exact display_int_double h
  | double d =>
    cases b with
    | int j => exact (display_int_double (equal_symm h)).symm
    | double e =>
      obtain ⟨x, hd, he⟩ := equal_iff.mp h
      -- the two zeros differ, but both are shown as the integer zero
      obtain rfl | ⟨hd, he⟩ := Double.eq_or_toInt?_of_extent? hd he
      · rfl
      · rw [display, display, hd, he]

end Number

namespace Value

variable {v w u : Value}

/-- How values are equal, sort by sort. -/
inductive Equal : Value → Value → Prop
  | null : Equal .null .null
  | bool (b : Bool) : Equal (.bool b) (.bool b)
  | number {a b : Number} : a.equal b = true → Equal (.number a) (.number b)
  | str (s : String) : Equal (.str s) (.str s)
  | closure {f g : Closure} : f.id = g.id → Equal (.closure f) (.closure g)
  | builtin {f g : Builtin} : f.id = g.id → Equal (.builtin f) (.builtin g)

theorem equal_iff : v.equal w = true ↔ Equal v w := by
  refine ⟨fun h => ?_, fun h => ?_⟩
  · rw [equal.eq_def] at h
    split at h
    · exact .null
    · cases beq_iff_eq.mp h
      exact .bool _
    · exact .number h
    · cases beq_iff_eq.mp h
      exact .str _
    · exact .closure (beq_iff_eq.mp h)
    · exact .builtin (beq_iff_eq.mp h)
    · cases h
  · cases h with
    | null => rfl
    | bool b => exact beq_self_eq_true b
    | number h => exact h
    | str s => exact beq_self_eq_true s
    | closure h => exact beq_iff_eq.mpr h
    | builtin h => exact beq_iff_eq.mpr h

theorem equal_symm (h : v.equal w = true) : w.equal v = true := by
  cases equal_iff.mp h with
  | null => rfl
  | bool b => exact h
  | number hn => exact Number.equal_symm hn
  | str s => exact h
  | closure hid => exact beq_iff_eq.mpr hid.symm
  | builtin hid => exact beq_iff_eq.mpr hid.symm

theorem equal_trans (hvw : v.equal w = true) (hwu : w.equal u = true) : v.equal u = true := by
  cases equal_iff.mp hvw with
  | null => exact hwu
  | bool b => exact hwu
  | number hn =>
    cases equal_iff.mp hwu with
    | number hn' => exact Number.equal_trans hn hn'
  | str s => exact hwu
  | closure hid =>
    cases equal_iff.mp hwu with
    | closure hid' => exact beq_iff_eq.mpr (hid.trans hid')
  | builtin hid =>
    cases equal_iff.mp hwu with
    | builtin hid' => exact beq_iff_eq.mpr (hid.trans hid')

theorem equal_self_iff : v.equal v = true ↔ v ≠ .number (.double .nan) := by
  cases v with
  | null => exact iff_of_true rfl nofun
  | bool b => exact iff_of_true (beq_self_eq_true b) nofun
  | number n => exact Number.equal_self_iff.trans (not_congr ⟨congrArg _, number.inj⟩)
  | str s => exact iff_of_true (beq_self_eq_true s) nofun
  | closure f => exact iff_of_true (beq_self_eq_true f.id) nofun
  | builtin f => exact iff_of_true (beq_self_eq_true f.id) nofun

theorem typeName_eq_of_equal (h : v.equal w = true) : v.typeName = w.typeName := by
  cases equal_iff.mp h <;> rfl

theorem isTruthy_eq_of_equal (h : v.equal w = true) : v.isTruthy = w.isTruthy := by
  cases equal_iff.mp h with
  | number hn => exact congrArg not (Number.isZero_eq_of_equal hn)
  | null | bool _ | str _ | closure _ | builtin _ => rfl

/-- Equal values are shown the same, provided that a function is the only one with its identity. -/
theorem display_eq_of_equal (h : v.equal w = true)
    (hclosure : ∀ f g, v = .closure f → w = .closure g → f.id = g.id → f = g)
    (hbuiltin : ∀ f g, v = .builtin f → w = .builtin g → f.id = g.id → f = g) :
    v.display = w.display := by
  cases equal_iff.mp h with
  | null => rfl
  | bool b => rfl
  | number hn => exact Number.display_eq_of_equal hn
  | str s => rfl
  | closure hid => rw [hclosure _ _ rfl rfl hid]
  | builtin hid => rw [hbuiltin _ _ rfl rfl hid]

end Value

end MiniApp
