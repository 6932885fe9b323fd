import MiniApp.Proofs.Eval.Faults
import MiniApp.Proofs.Json

/-!
# Numbers as JSON

The digits of integers and the shortest decimals of doubles are literals of JSON numbers. What there
is to see is that no zero stands in front of other digits, and that a decimal has a fraction or an
exponent. The former needs that the shortest decimal of a positive double is not zero: the search
for it begins on a grid that the double reaches, and goes on to finer ones.

## Main results

* `Json.spellsNumber_intText`: the text of an integer
* `Double.digits_shortest_ne_zero`: the shortest decimal of a positive double
* `Json.spellsNumber_text`: the text of a finite double
-/

namespace MiniApp

/-! ## Digits -/

namespace Json

variable {n : Nat} {ds : List Char}

theorem isAsciiDigit_of_mem_toDigits {c : Char} (h : c ∈ Nat.toDigits 10 n) :
    Text.isAsciiDigit c = true := by
  have hdigit := Nat.isDigit_of_mem_toDigits (by decide) (by decide) h
  simpa [Text.isAsciiDigit, Char.isDigit, Char.le_def] using hdigit

theorem digits_toDigits (n : Nat) : Digits (Nat.toDigits 10 n) :=
  ⟨Nat.toDigits_ne_nil, fun _ => isAsciiDigit_of_mem_toDigits⟩

theorem numberOf_toDigits (n : Nat) : numberOf (Nat.toDigits 10 n) = n :=
  Nat.ofDigitChars_toDigits (by decide) (by decide)

/-- No zero stands in front of the digits of a positive number. -/
theorem head?_toDigits_ne (hn : n ≠ 0) : (Nat.toDigits 10 n).head? ≠ some '0' := by
  induction n using Nat.strongRecOn with
  | ind n ih =>
    by_cases hlt : n < 10
    · rw [Nat.toDigits_of_lt_base hlt]
      have hdigit : ∀ d < 10, d ≠ 0 → d.digitChar ≠ '0' := by decide
      simpa using hdigit n hlt hn
    -- the first digit is that of a tenth of the number
    · rw [Nat.toDigits_of_base_le (by decide) (by omega),
        List.head?_append, Option.or_of_isSome (List.isSome_head?.mpr Nat.toDigits_ne_nil)]
      exact ih (n / 10) (by omega) (by omega)

theorem whole_toDigits (n : Nat) : Whole (Nat.toDigits 10 n) := by
  refine ⟨digits_toDigits n, fun hhead => ?_⟩
  by_cases hn : n = 0
  · subst hn
    rfl
  · exact absurd hhead (head?_toDigits_ne hn)

theorem spellsNumber_intText (i : Int) :
    SpellsNumber (Decimal.intText i).toList (.int i) := by
  have hspells := SpellsNumber.int (decide (i < 0)) (whole_toDigits i.natAbs)
  rw [numberOf_toDigits] at hspells
  have htext : (Decimal.intText i).toList = minus (decide (i < 0)) ++ Nat.toDigits 10 i.natAbs := by
    by_cases hneg : i < 0 <;> simp [Decimal.intText, Decimal.natText, hneg, minus]
  have hvalue : (if decide (i < 0) then -(i.natAbs : Int) else i.natAbs) = i := by
    by_cases hneg : i < 0
    · rw [if_pos (decide_eq_true hneg)]
      omega
    · rw [if_neg (by simpa using hneg)]
      omega
  rw [htext]
  rwa [hvalue] at hspells

end Json

/-! ## Shortest decimals -/

namespace Decimal

theorem pow_digitCount_le {n : Nat} (hn : n ≠ 0) : 10 ^ (digitCount n - 1) ≤ n := by
  by_cases hone : digitCount n ≤ 1
  · rw [Nat.sub_eq_zero_of_le hone]
    exact Nat.one_le_iff_ne_zero.mpr hn
  · by_contra hlt
    have hle := (Nat.length_toDigits_le_iff (b := 10) (n := n) (k := digitCount n - 1)
      (by decide) (by omega)).mpr (by omega)
    rw [← digitCount] at hle
    omega

theorem lt_pow_digitCount (n : Nat) : n < 10 ^ digitCount n :=
  (Nat.length_toDigits_le_iff (by decide) Nat.length_toDigits_pos).mp le_rfl

/-- The magnitude is within reach: a power of ten that the ratio is not below. -/
theorem pow_magnitude_le {num den : Nat} (hnum : num ≠ 0) :
    10 ^ (magnitude num den).toNat * den ≤ num * 10 ^ (-magnitude num den).toNat := by
  rw [magnitude]
  split
  · next h => exact h
  -- the difference of the numbers of digits is too large by one at most
  · have hle := pow_digitCount_le hnum
    have hlt := lt_pow_digitCount den
    have hpos : 0 < digitCount num := Nat.length_toDigits_pos
    generalize digitCount num = m at hle hpos ⊢
    generalize digitCount den = n at hlt ⊢
    rcases Nat.lt_or_ge n m with hmn | hmn
    · have hexp : ((m : Int) - n - 1).toNat = m - 1 - n := by omega
      have hzero : (-((m : Int) - n - 1)).toNat = 0 := by omega
      rw [hexp, hzero, pow_zero, Nat.mul_one]
      calc 10 ^ (m - 1 - n) * den ≤ 10 ^ (m - 1 - n) * 10 ^ n := Nat.mul_le_mul_left _ hlt.le
        _ = 10 ^ (m - 1) := by rw [← pow_add]; congr 1; omega
        _ ≤ num := hle
    · have hzero : ((m : Int) - n - 1).toNat = 0 := by omega
      have hexp : (-((m : Int) - n - 1)).toNat = n - (m - 1) := by omega
      rw [hexp, hzero, pow_zero, Nat.one_mul]
      calc den ≤ 10 ^ n := hlt.le
        _ = 10 ^ (m - 1) * 10 ^ (n - (m - 1)) := by rw [← pow_add]; congr 1; omega
        _ ≤ num * 10 ^ (n - (m - 1)) := Nat.mul_le_mul_right _ hle

theorem digits_strip_ne_zero (fuel : Nat) {d : Decimal} (h : d.digits ≠ 0) :
    (strip fuel d).digits ≠ 0 := by
  induction fuel generalizing d with
  | zero => exact h
  | succ fuel ih =>
    rw [strip]
    split
    · next hzero =>
      refine ih ?_
      have hdigits := hzero.1
      dsimp only
      omega
    · exact h

end Decimal

namespace Double

/-- A double reaches a grid of decimals: it is not below the first step of the grid. -/
def Reaches (quanta : Nat) (exponent : Int) : Prop :=
  10 ^ exponent.toNat * unit ≤ quanta * 10 ^ (-exponent).toNat

variable {quanta : Nat} {exponent : Int}

/-- Finer grids are reached as well. -/
theorem Reaches.finer (h : Reaches quanta exponent) : Reaches quanta (exponent - 1) := by
  have hdown : (exponent - 1).toNat ≤ exponent.toNat := by omega
  have hup : (-exponent).toNat ≤ (-(exponent - 1)).toNat := by omega
  calc 10 ^ (exponent - 1).toNat * unit
      ≤ 10 ^ exponent.toNat * unit :=
        Nat.mul_le_mul_right _ (Nat.pow_le_pow_right (by decide) hdown)
    _ ≤ quanta * 10 ^ (-exponent).toNat := h
    _ ≤ quanta * 10 ^ (-(exponent - 1)).toNat :=
        Nat.mul_le_mul_left _ (Nat.pow_le_pow_right (by decide) hup)

theorem le_roundDiv (num den : Nat) : num / den ≤ roundDiv num den := by
  rw [roundDiv]
  split
  · exact le_rfl
  · split <;> omega

theorem Reaches.one_le_div (h : Reaches quanta exponent) :
    1 ≤ 4 * quanta * 10 ^ (-exponent).toNat / (4 * unit * 10 ^ exponent.toNat) := by
  have hpos : 0 < 4 * unit * 10 ^ exponent.toNat :=
    Nat.mul_pos (Nat.mul_pos (by decide) unit_pos) (Nat.pow_pos (by decide))
  rw [Nat.one_le_div_iff hpos]
  calc 4 * unit * 10 ^ exponent.toNat = 4 * (10 ^ exponent.toNat * unit) := by
        rw [Nat.mul_assoc, Nat.mul_comm unit]
    _ ≤ 4 * (quanta * 10 ^ (-exponent).toNat) := Nat.mul_le_mul_left 4 h
    _ = 4 * quanta * 10 ^ (-exponent).toNat := (Nat.mul_assoc ..).symm

theorem Reaches.one_le_roundDiv (h : Reaches quanta exponent) :
    1 ≤ roundDiv (4 * quanta * 10 ^ (-exponent).toNat) (4 * unit * 10 ^ exponent.toNat) :=
  h.one_le_div.trans (le_roundDiv _ _)

/-- On a grid that the double reaches, no decimal that the search can end with is zero. -/
theorem digits_search_ne_zero (remaining : Nat) (h : Reaches quanta exponent) :
    (search quanta (remaining + 1) exponent).digits ≠ 0 := by
  induction remaining generalizing exponent with
  | zero =>
    -- on the last grid the nearest decimal is taken, in the interval or not
    simp only [search, Nat.pow_eq, beq_self_eq_true, Bool.or_true, if_true]
    exact Nat.one_le_iff_ne_zero.mp h.one_le_roundDiv
  | succ remaining ih =>
    rw [search]
    simp only [Nat.pow_eq]
    split
    · have hround := h.one_le_roundDiv
      dsimp only
      omega
    · split
      · have hdown := h.one_le_div
        dsimp only
        omega
      · split
        · exact Nat.succ_ne_zero _
        · exact ih h.finer

/-- The shortest decimal of a positive double is positive. -/
theorem digits_shortest_ne_zero (hq : quanta ≠ 0) : (shortest quanta).digits ≠ 0 :=
  Decimal.digits_strip_ne_zero 20 (digits_search_ne_zero 16 (Decimal.pow_magnitude_le hq))

end Double

/-! ## Layouts -/

namespace Json

variable {ds : List Char} {exponent : Int}

/-- The parts of a decimal: a whole number with a fraction or an exponent. -/
def IsDecimal (cs : List Char) : Prop :=
  ∃ ds fs es, Whole ds ∧ Fraction fs ∧ Exponent es ∧ fs ++ es ≠ [] ∧ cs = ds ++ (fs ++ es)

theorem IsDecimal.spellsNumber {cs : List Char} (h : IsDecimal cs) (negative : Bool) :
    SpellsNumber (minus negative ++ cs) (.real (String.ofList (minus negative ++ cs))) := by
  obtain ⟨ds, fs, es, hds, hfs, hes, hne, rfl⟩ := h
  rw [← List.append_assoc]
  exact .real negative hds hfs hes hne

theorem zeros_forall (n : Nat) : ∀ c ∈ List.replicate n '0', Text.isAsciiDigit c = true :=
  fun c hc => by rw [List.eq_of_mem_replicate hc]; rfl

theorem digits_zeros {n : Nat} (hn : n ≠ 0) : Digits (List.replicate n '0') :=
  ⟨by simpa using hn, zeros_forall n⟩

theorem Digits.append {cs : List Char} (h : Digits ds)
    (hcs : ∀ c ∈ cs, Text.isAsciiDigit c = true) : Digits (ds ++ cs) :=
  ⟨List.append_ne_nil_of_left_ne_nil h.1 _, List.forall_mem_append.mpr ⟨h.2, hcs⟩⟩

/-- A run of digits that does not begin with a zero is a whole number, and so is its beginning. -/
theorem whole_of_head (hds : Digits ds) (hhead : ds.head? ≠ some '0') : Whole ds :=
  ⟨hds, fun h => absurd h hhead⟩

theorem whole_take (hds : Digits ds) (hhead : ds.head? ≠ some '0') {n : Nat} (hn : n ≠ 0) :
    Whole (ds.take n) := by
  obtain ⟨n, rfl⟩ := Nat.exists_eq_succ_of_ne_zero hn
  refine whole_of_head ⟨?_, fun d hd => hds.2 d (List.mem_of_mem_take hd)⟩ ?_
  · simp [hds.1]
  · rwa [List.head?_take, if_neg (Nat.succ_ne_zero n)]

theorem digits_drop (hds : Digits ds) {n : Nat} (hn : n < ds.length) : Digits (ds.drop n) :=
  ⟨by simpa using hn, fun d hd => hds.2 d (List.mem_of_mem_drop hd)⟩

theorem isDecimal_positional (hds : Digits ds) (hhead : ds.head? ≠ some '0') :
    IsDecimal (Decimal.positional ds exponent) := by
  by_cases hexp : 0 ≤ exponent
  -- zeros behind the digits, and a fraction that is zero
  · have htext : Decimal.positional ds exponent =
        ds ++ List.replicate exponent.toNat '0' ++ ['.', '0'] := if_pos hexp
    refine ⟨_, _, [], whole_of_head (hds.append (zeros_forall _)) ?_,
      .some (digits_zeros Nat.one_ne_zero), .none, by simp, htext⟩
    rwa [List.head?_append, Option.or_of_isSome (List.isSome_head?.mpr hds.1)]
  · have htext : Decimal.positional ds exponent =
        if (-exponent).toNat < ds.length then
          ds.take (ds.length - (-exponent).toNat) ++
            '.' :: ds.drop (ds.length - (-exponent).toNat)
        else '0' :: '.' :: (List.replicate ((-exponent).toNat - ds.length) '0' ++ ds) :=
      if_neg hexp
    rw [htext]
    split
    -- the point inside the digits
    · next hlt =>
      have hlead : ds.length - (-exponent).toNat ≠ 0 := by omega
      have hpoint : ds.length - (-exponent).toNat < ds.length := by omega
      exact ⟨_, _, [], whole_take hds hhead hlead, .some (digits_drop hds hpoint), .none,
        by simp, by rw [List.append_nil]⟩
    -- zeros between the point and the digits
    · refine ⟨['0'], '.' :: (List.replicate ((-exponent).toNat - ds.length) '0' ++ ds), [],
        whole_toDigits 0, .some ⟨by simp [hds.1], ?_⟩, .none, by simp, by simp⟩
      exact List.forall_mem_append.mpr ⟨zeros_forall _, hds.2⟩

theorem isDecimal_scientific (hds : Digits ds) (hhead : ds.head? ≠ some '0') :
    IsDecimal (Decimal.scientific ds exponent) := by
  have htext : Decimal.scientific ds exponent =
      ds.take 1 ++ (if ds.length = 1 then [] else '.' :: ds.drop 1) ++
        'e' :: (if exponent + ds.length - 1 < 0 then '-' else '+') ::
          (List.replicate (2 - (Nat.toDigits 10 (exponent + ds.length - 1).natAbs).length) '0' ++
            Nat.toDigits 10 (exponent + ds.length - 1).natAbs) := rfl
  rw [htext]
  -- the exponent is any number, written with a sign and at least two digits
  generalize exponent + ds.length - 1 = lead
  have hsize : Digits (List.replicate (2 - (Nat.toDigits 10 lead.natAbs).length) '0' ++
      Nat.toDigits 10 lead.natAbs) :=
    ⟨by simp [Nat.toDigits_ne_nil],
      List.forall_mem_append.mpr ⟨zeros_forall _, (digits_toDigits _).2⟩⟩
  have hfraction : Fraction (if ds.length = 1 then [] else '.' :: ds.drop 1) := by
    split
    · exact .none
    · next hone =>
      have hpos := List.length_pos_iff.mpr hds.1
      exact .some (digits_drop hds (by omega))
  refine ⟨_, _, 'e' :: ([if lead < 0 then '-' else '+'] ++ _), whole_take hds hhead Nat.one_ne_zero,
    hfraction, .some (by simp) ?_ hsize, by simp, by simp⟩
  split <;> simp

theorem isDecimal_text {d : Decimal} (hd : d.digits ≠ 0) : IsDecimal d.text := by
  rw [Decimal.text]
  split
  · exact isDecimal_positional (digits_toDigits _) (head?_toDigits_ne hd)
  · exact isDecimal_scientific (digits_toDigits _) (head?_toDigits_ne hd)

/-- The text of a finite double is a number with a fraction or an exponent. -/
theorem spellsNumber_text {negative : Bool} {quanta : Nat} (fits : Double.Fits quanta)
    (nanWord infinityWord : String) :
    SpellsNumber ((Double.finite negative quanta fits).textWith nanWord infinityWord).toList
      (.real (Double.finite negative quanta fits).text) := by
  have hsize : IsDecimal (if quanta = 0 then "0.0"
      else String.ofList (Double.shortest quanta).text).toList := by
    split
    · exact ⟨['0'], ['.', '0'], [], whole_toDigits 0, .some (digits_zeros Nat.one_ne_zero), .none,
        by simp, rfl⟩
    · next hq =>
      rw [String.toList_ofList]
      exact isDecimal_text (Double.digits_shortest_ne_zero hq)
  -- neither word is used for a number that is finite
  have htext : ∀ nanWord infinityWord,
      (Double.finite negative quanta fits).textWith nanWord infinityWord =
        String.ofList (minus negative ++ (if quanta = 0 then "0.0"
          else String.ofList (Double.shortest quanta).text).toList) := by
    intro nanWord infinityWord
    rw [Double.textWith]
    cases negative with
    | true => simp [minus]
    | false => simp [minus]
  have hspells := hsize.spellsNumber negative
  rwa [Double.text, htext, htext, String.toList_ofList]

end Json

end MiniApp
