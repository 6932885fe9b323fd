import MiniApp.Proofs.Lint.Lines
import Mathlib.Data.List.DropRight
import Mathlib.Data.List.Infix

/-!
# Places in a text

The search for a text stops at its first occurrence, the white space at the end of a line begins
behind the last character that is none, and a text without line feeds that occurs in another occurs
in one of its lines.

## Main results

* `Text.find?_eq_some_iff`, `Text.occursIn_iff`: the first occurrence, and whether there is one
* `Text.trimBlanksEnd_append`: a line is what is kept of it, and white space
* `Lint.exists_firstPlace`: the first line in which a text occurs
-/

namespace MiniApp

namespace Text

variable {needle cs line : List Char} {n : Nat}

/-! ## The first occurrence -/

/-- An occurrence is found where one is, and where none is before it. -/
theorem find?_eq_some_iff : find? needle cs = some n ↔
    needle <+: cs.drop n ∧ ∀ m < n, ¬ needle <+: cs.drop m := by
  induction cs generalizing n with
  | nil =>
    cases needle with
    | cons d ds => simp [find?]
    | nil =>
      cases n with
      | zero => simp [find?]
      | succ n =>
        exact iff_of_false (by simp [find?]) fun h => h.2 0 (Nat.succ_pos n) List.nil_prefix
  -- a place behind the first character is a place in the rest, one less
  | cons c cs ih =>
    rw [find?]
    by_cases h : needle <+: c :: cs
    · rw [if_pos (List.isPrefixOf_iff_prefix.mpr h)]
      cases n with
      | zero => simpa using h
      | succ n => exact iff_of_false (by simp) fun h' => h'.2 0 (Nat.succ_pos n) h
    · rw [if_neg (List.isPrefixOf_iff_prefix.not.mpr h)]
      cases n with
      | zero => simpa using fun h' => absurd h' h
      | succ n =>
        rw [Option.map_eq_some_iff]
        simp only [Nat.add_right_cancel_iff, exists_eq_right, ih, List.drop_succ_cons]
        refine and_congr_right fun _ => ⟨fun hnone m hm => ?_, fun hnone m hm => ?_⟩
        · cases m with
          | zero => exact h
          | succ m => exact hnone m (Nat.lt_of_succ_lt_succ hm)
        · exact hnone (m + 1) (Nat.succ_lt_succ hm)

theorem find?_eq_none_iff : find? needle cs = none ↔ ¬ needle <:+: cs := by
  induction cs with
  | nil => cases needle <;> simp [find?]
  | cons c cs ih =>
    rw [find?, List.infix_cons_iff]
    by_cases h : needle <+: c :: cs
    · simp [List.isPrefixOf_iff_prefix.mpr h, h]
    · rw [if_neg (List.isPrefixOf_iff_prefix.not.mpr h), Option.map_eq_none_iff, ih]
      simp [h]

theorem occursIn_iff {needle text : String} :
    occursIn needle text = true ↔ needle.toList <:+: text.toList := by
  rw [occursIn, ← not_iff_not, ← find?_eq_none_iff]
  simp

/-- The text before an occurrence that is found, and from it on. -/
theorem exists_append_of_find? (h : find? needle cs = some n) :
    ∃ before rest, cs = before ++ (needle ++ rest) ∧ before.length = n := by
  obtain ⟨⟨rest, hrest⟩, hfirst⟩ := find?_eq_some_iff.mp h
  refine ⟨cs.take n, rest, by rw [hrest, List.take_append_drop], ?_⟩
  rw [List.length_take, Nat.min_eq_left]
  -- behind the end only the empty text occurs, and that would have been found before
  by_contra hn
  have hempty : needle = [] := by
    rw [List.drop_eq_nil_of_le (Nat.le_of_not_le hn)] at hrest
    exact (List.append_eq_nil_iff.mp hrest).1
  exact hfirst cs.length (Nat.lt_of_not_le hn) (hempty ▸ List.nil_prefix)

/-! ## White space at the end -/

theorem trimBlanksEnd_eq_rdropWhile (cs : List Char) :
    trimBlanksEnd cs = cs.rdropWhile isBlank := rfl

/-- A text is what is kept of it and white space, and what is kept ends in none. -/
theorem trimBlanksEnd_append (cs : List Char) : ∃ rest, cs = trimBlanksEnd cs ++ rest ∧
    (∀ b ∈ rest, isBlank b = true) ∧ ∀ c ∈ (trimBlanksEnd cs).getLast?, isBlank c = false := by
  rw [trimBlanksEnd_eq_rdropWhile]
  refine ⟨cs.rtakeWhile isBlank, (List.rdropWhile_append_rtakeWhile).symm,
    fun b => List.mem_rtakeWhile_imp, fun c hc => ?_⟩
  obtain ⟨hne, rfl⟩ := List.mem_getLast?_eq_getLast hc
  simpa using List.rdropWhile_last_not isBlank cs hne

theorem length_trimBlanksEnd_eq_iff :
    (trimBlanksEnd cs).length = cs.length ↔ cs.getLast?.any isBlank = false := by
  rw [trimBlanksEnd_eq_rdropWhile]
  rcases List.eq_nil_or_concat' cs with rfl | ⟨cs, c, rfl⟩
  · simp
  · rw [List.rdropWhile_concat, List.getLast?_concat, Option.any_some]
    by_cases hc : isBlank c = true
    · have hle := (List.rdropWhile_prefix isBlank cs).length_le
      rw [if_pos hc, List.length_append, hc]
      simp only [List.length_singleton, Bool.true_eq_false, iff_false]
      omega
    · simp [hc]

/-! ## Lines -/

/-- The first line ends where the first line feed stands. -/
theorem splitLines_head_prefix {below : List (List Char)} (h : splitLines cs = line :: below) :
    line <+: cs := by
  obtain ⟨below', hcs⟩ : ∃ below', splitLines cs = cs.takeWhile (· != '\n') :: below' :=
    exists_splitLines_cons List.not_mem_nil cs
  rw [hcs] at h
  obtain ⟨rfl, -⟩ := List.cons.inj h
  exact List.takeWhile_prefix _

/-- What occurs in a text and has no line feed in it occurs in a line. -/
theorem exists_mem_splitLines (hneedle : '\n' ∉ needle) (h : needle <:+: cs) :
    ∃ line ∈ splitLines cs, needle <:+: line := by
  obtain ⟨before, after, rfl⟩ := h
  obtain ⟨above, below, hlines, -⟩ := exists_splitLines_append hneedle before after
  rw [List.append_assoc, hlines]
  exact ⟨_, List.mem_append_right _ List.mem_cons_self, lastLine before, _, List.append_assoc _ _ _⟩

end Text

namespace Lint

variable {source line : String} {n : Nat}

/-- A line with its number. -/
theorem mem_numberedLines :
    (line, n) ∈ numberedLines source ↔ 1 ≤ n ∧ (Text.lines source)[n - 1]? = some line := by
  rw [numberedLines, List.mk_mem_zipIdx_iff_le_and_getElem?_sub]

/-- A text without line feeds that occurs in another has its first place in a line. -/
theorem exists_firstPlace {needle : String} (hneedle : '\n' ∉ needle.toList)
    (h : needle.toList <:+: source.toList) :
    ∃ line n index, (line, n) ∈ numberedLines source ∧
      Text.find? needle.toList line.toList = some index ∧
      firstPlace needle source = (n, index + 1) := by
  obtain ⟨cs, hcs, hin⟩ := Text.exists_mem_splitLines hneedle h
  have hplaces : firstPlace needle source = ((numberedLines source).findSome? fun e =>
    (Text.find? needle.toList e.1.toList).map fun index => (e.2, index + 1)).getD (1, 1) := rfl
  rw [hplaces]
  -- some line has the needle in it, so the search through the lines cannot come back empty
  cases hfound : (numberedLines source).findSome? fun e =>
      (Text.find? needle.toList e.1.toList).map fun index => (e.2, index + 1) with
  | none =>
    have hnone : Text.find? needle.toList cs = none := by
      have hmem : String.ofList cs ∈ (numberedLines source).map Prod.fst := by
        rw [numberedLines, List.zipIdx_map_fst]
        exact List.mem_map_of_mem hcs
      obtain ⟨⟨line, n⟩, he, rfl : line = String.ofList cs⟩ := List.mem_map.mp hmem
      have hmiss := Option.map_eq_none_iff.mp (List.findSome?_eq_none_iff.mp hfound _ he)
      rwa [String.toList_ofList] at hmiss
    exact absurd hin (Text.find?_eq_none_iff.mp hnone)
  | some place =>
    obtain ⟨⟨line, n⟩, hmem, hplace⟩ := List.exists_of_findSome?_eq_some hfound
    obtain ⟨index, hindex, rfl⟩ := Option.map_eq_some_iff.mp hplace
    exact ⟨line, n, index, hmem, hindex, rfl⟩

/-- What stands at the start of the first line stands at the start of the text. -/
theorem prefix_of_mem_numberedLines (h : (line, 1) ∈ numberedLines source) :
    line.toList <+: source.toList := by
  obtain ⟨-, hline⟩ := mem_numberedLines.mp h
  rw [Text.lines, List.getElem?_map] at hline
  obtain ⟨cs, hcs, rfl⟩ := Option.map_eq_some_iff.mp hline
  cases hlines : Text.splitLines source.toList with
  | nil => simp [hlines] at hcs
  | cons l below =>
    obtain rfl : l = cs := by simpa [hlines] using hcs
    rw [String.toList_ofList]
    exact Text.splitLines_head_prefix hlines

end Lint

end MiniApp
