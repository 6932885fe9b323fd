import MiniApp.Lint.Rules
import Mathlib.Data.List.TakeWhile
import Mathlib.Tactic.Common

/-!
# Lines

A text is cut at its line feeds. What stands at some place within a line, and has no line feed in
it, is found in the line whose number is one more than the line feeds before it: between what
follows the last of these and what stands before the next one. A check that looks at a text line by
line finds in a line what it finds in that line alone.

## Main results

* `Text.exists_splitLines_append`: the line of a stretch of a text
* `Lint.filter_flatMap_zipIdx`: what is found in one line
-/

namespace MiniApp

namespace Text

variable {cs ds before line : List Char}

theorem splitLines_ne_nil (cs : List Char) : splitLines cs ≠ [] := by
  cases cs with
  | nil => exact List.cons_ne_nil _ _
  | cons c cs =>
    rw [splitLines]
    split
    · exact List.cons_ne_nil _ _
    · split <;> exact List.cons_ne_nil _ _

/-- A line feed cuts a text in two. -/
theorem splitLines_append_line_feed (ds cs : List Char) :
    splitLines (ds ++ '\n' :: cs) = splitLines ds ++ splitLines cs := by
  induction ds with
  | nil =>
    obtain ⟨l, ls, hls⟩ := List.exists_cons_of_ne_nil (splitLines_ne_nil cs)
    simp [splitLines, hls]
  | cons d ds ih =>
    obtain ⟨l, ls, hls⟩ := List.exists_cons_of_ne_nil (splitLines_ne_nil ds)
    rw [List.cons_append, splitLines, splitLines, ih, hls, List.cons_append]
    dsimp only
    split <;> rfl

theorem splitLines_of_not_mem (h : '\n' ∉ ds) : splitLines ds = [ds] := by
  induction ds with
  | nil => rfl
  | cons d ds ih =>
    obtain ⟨hd, hds⟩ := not_or.mp (List.mem_cons.not.mp h)
    simp [splitLines, ih hds, Ne.symm hd]

/-- There is one line more than there are line feeds. -/
theorem length_splitLines (ds : List Char) : (splitLines ds).length = 1 + ds.count '\n' := by
  induction ds with
  | nil => rfl
  | cons d ds ih =>
    obtain ⟨l, ls, hls⟩ := List.exists_cons_of_ne_nil (splitLines_ne_nil ds)
    rw [hls] at ih
    rw [splitLines, hls]
    by_cases hd : d = '\n' <;> simp [hd] at ih ⊢ <;> omega

/-- What follows the last line feed of a text. -/
def lastLine (cs : List Char) : List Char := (cs.reverse.takeWhile (· != '\n')).reverse

theorem not_mem_takeWhile (cs : List Char) : '\n' ∉ cs.takeWhile (· != '\n') := fun h => by
  simpa using List.mem_takeWhile_imp h

theorem not_mem_lastLine (cs : List Char) : '\n' ∉ lastLine cs := by
  rw [lastLine, List.mem_reverse]
  exact not_mem_takeWhile cs.reverse

/-- The longest run of characters of some sort at the head of a text, and what stops it. -/
theorem exists_takeWhile_append (q : Char → Bool) (cs : List Char) :
    ∃ ds, cs = cs.takeWhile q ++ ds ∧ cs.drop (cs.takeWhile q).length = ds ∧
      ∀ c ∈ ds.head?, q c = false := by
  have hsplit := List.takeWhile_append_dropWhile (p := q) (l := cs)
  have hdrop := congrArg (List.drop (cs.takeWhile q).length) hsplit
  rw [List.drop_left] at hdrop
  refine ⟨cs.dropWhile q, hsplit.symm, hdrop.symm, fun c hc => ?_⟩
  · obtain ⟨ds, hds⟩ := List.head?_eq_some_iff.mp hc
    have hhead := List.head_dropWhile_not q (hds ▸ List.cons_ne_nil c ds)
    simpa [hds] using hhead

/-- A text is a line, or a line feed stands behind its first line. -/
theorem eq_takeWhile_append (cs : List Char) : cs = cs.takeWhile (· != '\n') ∨
    ∃ ds, cs = cs.takeWhile (· != '\n') ++ '\n' :: ds := by
  obtain ⟨ds, hds, -, hstop⟩ := exists_takeWhile_append (· != '\n') cs
  cases ds with
  | nil => exact .inl (by rwa [List.append_nil] at hds)
  | cons d ds =>
    obtain rfl : d = '\n' := by simpa using hstop d rfl
    exact .inr ⟨ds, hds⟩

/-- A text is a line, or a line feed stands before its last line. -/
theorem eq_append_lastLine (cs : List Char) : cs = lastLine cs ∨
    ∃ ds, cs = ds ++ '\n' :: lastLine cs := by
  rcases eq_takeWhile_append cs.reverse with h | ⟨ds, h⟩
  · exact .inl (List.reverse_eq_iff.mp h)
  · refine .inr ⟨ds.reverse, ?_⟩
    simpa [lastLine] using congrArg List.reverse h

theorem lastLine_suffix (cs : List Char) : lastLine cs <:+ cs := by
  rw [lastLine, ← List.reverse_prefix, List.reverse_reverse]
  exact List.takeWhile_prefix _

theorem exists_splitLines_cons (h : '\n' ∉ line) (cs : List Char) :
    ∃ below, splitLines (line ++ cs) = (line ++ cs.takeWhile (· != '\n')) :: below := by
  have hline : '\n' ∉ line ++ cs.takeWhile (· != '\n') :=
    List.not_mem_append h (not_mem_takeWhile cs)
  rcases eq_takeWhile_append cs with heq | ⟨ds, heq⟩
  · exact ⟨[], by rw [← splitLines_of_not_mem hline, ← heq]⟩
  · refine ⟨splitLines ds, ?_⟩
    rw [← List.singleton_append, ← splitLines_of_not_mem hline, ← splitLines_append_line_feed,
      List.append_assoc, ← heq]

/-- A stretch of a text within one line lies in the line of that number. -/
theorem exists_splitLines_append (h : '\n' ∉ line) (before cs : List Char) :
    ∃ above below, splitLines (before ++ (line ++ cs)) =
        above ++ (lastLine before ++ (line ++ cs.takeWhile (· != '\n'))) :: below ∧
      above.length = before.count '\n' := by
  have hline := List.not_mem_append (not_mem_lastLine before) h
  obtain ⟨below, hbelow⟩ := exists_splitLines_cons hline cs
  have hcount : (lastLine before).count '\n' = 0 :=
    List.count_eq_zero.mpr (not_mem_lastLine before)
  rw [List.append_assoc, List.append_assoc] at hbelow
  -- either the line is the first one, or a line feed ends what stands above it
  rcases eq_append_lastLine before with heq | ⟨ds, heq⟩
  · exact ⟨[], below, by rw [List.nil_append, ← hbelow, ← heq], by rw [heq, hcount]; rfl⟩
  · refine ⟨splitLines ds, below, ?_, ?_⟩
    · rw [← hbelow, ← splitLines_append_line_feed, ← List.cons_append, ← List.append_assoc ds,
        ← heq]
    · rw [length_splitLines, heq, List.count_append, List.count_cons_self, hcount]
      omega

end Text

namespace Lint

/-- What is found in one line, when all lines are looked at and every finding names its own. -/
theorem filter_flatMap_zipIdx {f : String × Nat → List Finding}
    (hf : ∀ x, ∀ y ∈ f x, y.line = x.2) (above below : List String) (line : String) (n : Nat) :
    (((above ++ line :: below).zipIdx n).flatMap f).filter (·.line = n + above.length) =
      f (line, n + above.length) := by
  -- lines numbered on one side of the line contribute nothing with its number
  have hother : ∀ (ls : List String) (m : Nat),
      (n + above.length < m ∨ m + ls.length ≤ n + above.length) →
      ((ls.zipIdx m).flatMap f).filter (·.line = n + above.length) = [] := by
    intro ls m hm
    simp only [List.filter_eq_nil_iff, List.mem_flatMap, decide_eq_true_eq]
    rintro y ⟨x, hx, hy⟩ heq
    obtain ⟨hle, hlt, -⟩ := List.mem_zipIdx hx
    have := hf x y hy
    omega
  have hself : (f (line, n + above.length)).filter (·.line = n + above.length) =
      f (line, n + above.length) :=
    List.filter_eq_self.mpr fun y hy => by simpa using hf _ y hy
  rw [List.zipIdx_append, List.zipIdx_cons, List.flatMap_append, List.flatMap_cons,
    List.filter_append, List.filter_append, hself, hother above n (by omega),
    hother below _ (by omega), List.nil_append, List.append_nil]

end Lint

end MiniApp
