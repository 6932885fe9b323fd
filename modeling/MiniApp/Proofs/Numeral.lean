import MiniApp.Number
import MiniApp.Proofs.Lexeme
import Mathlib.Data.Bool.AllAny
import Mathlib.Tactic.IntervalCases

/-!
# Numerals are read

The numerals of the language are plain ASCII digits, perhaps with a point between them, so reading
one as a number meets none of the liberties that reading allows elsewhere: no margins, no signs, no
low lines and no exponents. Only the number of digits of an integer is limited.

## Main results

* `Lexical.Numeral.fault_of_read`: a numeral is a number, unless it is an integer of too many digits
-/

namespace MiniApp

namespace Text

/-- The ASCII digits. -/
def asciiDigits : List Char := ['0', '1', '2', '3', '4', '5', '6', '7', '8', '9']

theorem mem_asciiDigits {c : Char} (h : isAsciiDigit c = true) : c ∈ asciiDigits := by
  have hrange : 48 ≤ c.toNat ∧ c.toNat ≤ 57 := by
    simpa [isAsciiDigit, Char.le_def, UInt32.le_iff_toNat_le] using h
  rw [← Char.ofNat_toNat c]
  obtain ⟨hlo, hhi⟩ := hrange
  -- ten code points, looked at one by one
  generalize c.toNat = n at hlo hhi
  interval_cases n <;> decide

/-- What holds of each of the ten digits holds of every ASCII digit. -/
@[elab_as_elim]
theorem of_digit {P : Char → Prop} [DecidablePred P] (c : Char)
    (h : asciiDigits.all fun c => P c) (hc : isAsciiDigit c = true) : P c :=
  List.all_iff_forall_prop.mp h c (mem_asciiDigits hc)

theorem forall_digits {P : Char → Prop} [DecidablePred P] (h : asciiDigits.all fun c => P c)
    {ds : List Char} (hds : ∀ d ∈ ds, isAsciiDigit d = true) : ∀ d ∈ ds, P d :=
  fun d hd => of_digit d h (hds d hd)

theorem digitRun_of_digits {ds : List Char} (hne : ds ≠ [])
    (h : ∀ d ∈ ds, isAsciiDigit d = true) :
    ∃ values, digitRun? ds = some values ∧ values.length = ds.length := by
  have hvalue : ∀ d ∈ ds, (digitValue? d).isSome = true := forall_digits (by decide) h
  have hline : ∀ d ∈ ds, d ≠ '_' := forall_digits (by decide) h
  clear h
  induction ds with
  | nil => exact absurd rfl hne
  | cons d ds ih =>
    obtain ⟨v, hv⟩ := Option.isSome_iff_exists.mp (hvalue d List.mem_cons_self)
    -- the equations of a run look at two characters, for a low line may only stand between digits
    cases ds with
    | nil => exact ⟨[v], by simp [digitRun?, hv], rfl⟩
    | cons e es =>
      have he : e ≠ '_' := hline e (by simp)
      obtain ⟨values, hvalues, hlen⟩ := ih (List.cons_ne_nil _ _)
        (fun d hd => hvalue d (List.mem_cons_of_mem _ hd))
        fun d hd => hline d (List.mem_cons_of_mem _ hd)
      refine ⟨v :: values, ?_, by simp [hlen]⟩
      rw [digitRun?]
      · simp [hv, hvalues]
      · simp
      · simpa using he

theorem dropWhile_eq_self {p : Char → Bool} {cs : List Char} (h : ∀ c ∈ cs, p c = false) :
    cs.dropWhile p = cs := by
  cases cs with
  | nil => rfl
  | cons c cs => simp [h c List.mem_cons_self]

theorem trimMargins_of_none {cs : List Char} (h : ∀ c ∈ cs, isMargin c = false) :
    trimMargins cs = cs := by
  rw [trimMargins, dropWhile_eq_self h, dropWhile_eq_self fun c hc => h c (List.mem_reverse.mp hc),
    List.reverse_reverse]

theorem splitSign_of_digit {c : Char} {cs : List Char} (h : isAsciiDigit c = true) :
    splitSign (c :: cs) = (false, c :: cs) := by
  have hsign : c ≠ '-' ∧ c ≠ '+' := of_digit c (by decide) h
  rw [splitSign]
  · rintro cs heq
    exact hsign.1 (List.cons.inj heq).1
  · rintro cs heq
    exact hsign.2 (List.cons.inj heq).1

/-- Digits are read as an integer, unless there are too many of them. -/
theorem readInteger_of_digits {ds : List Char} (hne : ds ≠ [])
    (h : ∀ d ∈ ds, isAsciiDigit d = true) :
    ∃ i, readInteger ds =
      if digitLimit < ds.length then .error (.tooManyDigits ds.length) else .ok i := by
  obtain ⟨d, es, rfl⟩ := List.exists_cons_of_ne_nil hne
  obtain ⟨values, hvalues, hlen⟩ := digitRun_of_digits hne h
  have hmargin : ∀ c ∈ d :: es, isMargin c = false := forall_digits (by decide) h
  refine ⟨ofDigits values, ?_⟩
  rw [readInteger, trimMargins_of_none hmargin, splitSign_of_digit (h d List.mem_cons_self)]
  simp only [hvalues, hlen, Bool.false_eq_true, if_false]

/-- The text of a numeral with a point is neither of the words for unusual numbers. -/
theorem word_of_digit {c : Char} {cs : List Char} (h : isAsciiDigit c = true) {s : String}
    (hs : s ∈ ["nan", "inf", "infinity"]) : String.ofList ((c :: cs).map Char.toLower) ≠ s := by
  have hhead : c.toLower ≠ 'n' ∧ c.toLower ≠ 'i' := of_digit c (by decide) h
  intro heq
  have hlist := congrArg (·.toList.head?) heq
  simp only [String.toList_ofList, List.map_cons, List.head?_cons] at hlist
  have hall : ∀ s ∈ ["nan", "inf", "infinity"], s.toList.head? = some 'n' ∨
      s.toList.head? = some 'i' := by decide
  rcases hall s hs with hn | hi
  · exact hhead.1 (Option.some.inj (hlist.trans hn))
  · exact hhead.2 (Option.some.inj (hlist.trans hi))

theorem readDouble_of_digits {ds es : List Char} (hds : ds ≠ [])
    (hdigits : ∀ d ∈ ds, isAsciiDigit d = true) (hes : es ≠ [])
    (hdigits' : ∀ e ∈ es, isAsciiDigit e = true) : ∃ x, readDouble? (ds ++ '.' :: es) = some x := by
  obtain ⟨d, ds', rfl⟩ := List.exists_cons_of_ne_nil hds
  have hd := hdigits d List.mem_cons_self
  obtain ⟨values, hvalues, hlen⟩ := digitRun_of_digits hds hdigits
  obtain ⟨values', hvalues', -⟩ := digitRun_of_digits hes hdigits'
  -- neither margins nor an exponent: the mantissa is the whole text
  have hall : ∀ c ∈ d :: ds' ++ '.' :: es, isMargin c = false ∧ (c != 'e' && c != 'E') = true := by
    intro c hc
    rcases List.mem_append.mp hc with hc | hc
    · exact of_digit c (by decide) (hdigits c hc)
    · rcases List.mem_cons.mp hc with rfl | hc
      · decide
      · exact of_digit c (by decide) (hdigits' c hc)
  have hmantissa : (d :: ds' ++ '.' :: es).takeWhile (fun c => c != 'e' && c != 'E') =
      d :: ds' ++ '.' :: es := List.takeWhile_eq_self_iff.mpr fun c hc => (hall c hc).2
  have hpoint : ∀ c ∈ d :: ds', (c != '.') = true := forall_digits (by decide) hdigits
  have hwhole : (d :: ds' ++ '.' :: es).takeWhile (· != '.') = d :: ds' := by
    rw [List.takeWhile_append_of_pos hpoint]
    simp
  rw [readDouble?, trimMargins_of_none fun c hc => (hall c hc).1, List.cons_append,
    splitSign_of_digit hd]
  dsimp only
  rw [if_neg (word_of_digit hd (by simp)), if_neg]
  · rw [unsignedDouble?, ← List.cons_append]
    simp only [hmantissa, hwhole, List.drop_length, List.drop_left, List.drop_one, List.tail_cons]
    have hvalues_ne : values ≠ [] := fun hnil => by simp [hnil] at hlen
    simp [digitRunOrNone?, hvalues, hvalues', hes, hvalues_ne]
  · rw [Bool.or_eq_true, not_or]
    exact ⟨fun h => word_of_digit hd (by simp) (of_decide_eq_true h),
      fun h => word_of_digit hd (by simp) (of_decide_eq_true h)⟩

end Text

namespace Lexical

/-- A numeral that is no number is an integer of too many digits. -/
theorem Numeral.fault_of_read {cs : List Char} {f : Fault} (h : Numeral cs)
    (hread : Number.read (String.ofList cs) = .error f) :
    '.' ∉ cs ∧ Text.digitLimit < cs.length ∧ f = .digitLimit (some cs.length) := by
  rw [Number.read, String.toList_ofList] at hread
  cases h with
  | whole hne hdigits =>
    have hpoint : '.' ∉ cs := fun hmem => absurd (hdigits '.' hmem) (by decide)
    obtain ⟨i, hi⟩ := Text.readInteger_of_digits hne hdigits
    rw [if_neg (by simpa using hpoint), hi] at hread
    by_cases hlong : Text.digitLimit < cs.length
    · rw [if_pos hlong] at hread
      exact ⟨hpoint, hlong, (Except.error.inj hread).symm⟩
    · rw [if_neg hlong] at hread
      cases hread
  | fraction hds hdigits hes hdigits' =>
    obtain ⟨x, hx⟩ := Text.readDouble_of_digits hds hdigits hes hdigits'
    rw [if_pos (by simp), hx] at hread
    cases hread

end Lexical

end MiniApp
