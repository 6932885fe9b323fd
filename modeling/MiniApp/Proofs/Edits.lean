import Mathlib.Data.List.Basic
import Mathlib.Order.Bounds.Basic
import Mathlib.Order.MinMax
import MiniApp.Text.Edits

/-!
# The edit distance is the least number of edits

An edit inserts, deletes or substitutes one character anywhere in a text. Any edits that turn one
text into another one can be put in order from the first character to the last, as an alignment of
the two texts, without becoming more of them. The least alignments of all beginnings of two texts
satisfy the recurrence by which the rows of the distance table are computed, so the last entry of
the last row is the least number of edits.

## Main definitions

* `Text.Edit`, `Text.Edits`: one edit, and a number of edits one after another
* `Text.Aligned`: an alignment of two texts with a number of differences
* `Text.Row`: a row of the distance table

## Main results

* `Text.exists_aligned_of_edits`: edits can be put in order
* `Text.isLeast_editDistance`: the distance computed is the least number of edits
* `Text.similarNames_by_distance`: which names are suggested, and in which order
-/

namespace MiniApp.Text

variable {k n m : ℕ} {c d : Char} {r s t u v : List Char}

/-! ## Edits -/

/-- One character is inserted, deleted or substituted somewhere in a text. -/
inductive Edit : List Char → List Char → Prop
  | insert (u : List Char) (c : Char) (v : List Char) : Edit (u ++ v) (u ++ c :: v)
  | delete (u : List Char) (c : Char) (v : List Char) : Edit (u ++ c :: v) (u ++ v)
  | substitute (u : List Char) (c d : Char) (v : List Char) : Edit (u ++ c :: v) (u ++ d :: v)

/-- A number of edits, one after another. -/
inductive Edits : ℕ → List Char → List Char → Prop
  | refl (s : List Char) : Edits 0 s s
  | step {n : ℕ} {r s t : List Char} : Edit r s → Edits n s t → Edits (n + 1) r t

/-- Behind one more character the same edits can be made. -/
theorem Edit.cons (h : Edit s t) (c : Char) : Edit (c :: s) (c :: t) := by
  cases h with
  | insert u d v => exact .insert (c :: u) d v
  | delete u d v => exact .delete (c :: u) d v
  | substitute u d e v => exact .substitute (c :: u) d e v

theorem Edits.cons (h : Edits n s t) (c : Char) : Edits n (c :: s) (c :: t) := by
  induction h with
  | refl s => exact .refl _
  | step h _ ih => exact .step (h.cons c) ih

/-- An edit replaces at most one character by at most one. -/
theorem Edit.exists_replaced (h : Edit s t) : ∃ u x y v,
    s = u ++ (x ++ v) ∧ t = u ++ (y ++ v) ∧ x.length ≤ 1 ∧ y.length ≤ 1 := by
  cases h with
  | insert u c v => exact ⟨u, [], [c], v, rfl, rfl, zero_le_one, le_rfl⟩
  | delete u c v => exact ⟨u, [c], [], v, rfl, rfl, le_rfl, zero_le_one⟩
  | substitute u c d v => exact ⟨u, [c], [d], v, rfl, rfl, le_rfl, le_rfl⟩

/-! ## Alignments -/

/-- An alignment of two texts: characters that are kept, and others that are substituted, deleted
or inserted, the number of which is counted. -/
inductive Aligned : ℕ → List Char → List Char → Prop
  | nil : Aligned 0 [] []
  | keep {n : ℕ} {s t : List Char} (c : Char) : Aligned n s t → Aligned n (c :: s) (c :: t)
  | substitute {n : ℕ} {s t : List Char} (c d : Char) :
      Aligned n s t → Aligned (n + 1) (c :: s) (d :: t)
  | delete {n : ℕ} {s t : List Char} (c : Char) : Aligned n s t → Aligned (n + 1) (c :: s) t
  | insert {n : ℕ} {s t : List Char} (d : Char) : Aligned n s t → Aligned (n + 1) s (d :: t)

namespace Aligned

theorem refl : ∀ s : List Char, Aligned 0 s s
  | [] => .nil
  | c :: s => .keep c (refl s)

theorem symm (h : Aligned n s t) : Aligned n t s := by
  induction h with
  | nil => exact .nil
  | keep c _ ih => exact .keep c ih
  | substitute c d _ ih => exact .substitute d c ih
  | delete c _ ih => exact .insert c ih
  | insert d _ ih => exact .delete d ih

theorem append (h : Aligned n s t) (h' : Aligned m u v) : Aligned (n + m) (s ++ u) (t ++ v) := by
  induction h with
  | nil => rwa [Nat.zero_add]
  | keep c _ ih => exact .keep c ih
  | substitute c d _ ih => exact Nat.succ_add .. ▸ .substitute c d ih
  | delete c _ ih => exact Nat.succ_add .. ▸ .delete c ih
  | insert d _ ih => exact Nat.succ_add .. ▸ .insert d ih

theorem reverse (h : Aligned n s t) : Aligned n s.reverse t.reverse := by
  induction h with
  | nil => exact .nil
  | keep c _ ih =>
    rw [List.reverse_cons, List.reverse_cons]
    exact ih.append (.keep c .nil)
  | substitute c d _ ih =>
    rw [List.reverse_cons, List.reverse_cons]
    exact ih.append (.substitute c d .nil)
  | @delete n s t c _ ih =>
    rw [List.reverse_cons, ← List.append_nil t.reverse]
    exact ih.append (.delete c .nil)
  | @insert n s t d _ ih =>
    rw [List.reverse_cons, ← List.append_nil s.reverse]
    exact ih.append (.insert d .nil)

/-- The first character is aligned with some beginning of the other text. -/
theorem exists_head (h : Aligned n (c :: u) t) :
    ∃ k m t₁ t₂, n = k + m ∧ t = t₁ ++ t₂ ∧ Aligned k [c] t₁ ∧ Aligned m u t₂ := by
  generalize hr : c :: u = r at h
  induction h with
  | nil => cases hr
  | @keep m _ t _ h =>
    obtain ⟨rfl, rfl⟩ := List.cons.inj hr
    exact ⟨0, m, [c], t, (Nat.zero_add m).symm, rfl, .keep c .nil, h⟩
  | @substitute m _ t _ d h =>
    obtain ⟨rfl, rfl⟩ := List.cons.inj hr
    exact ⟨1, m, [d], t, Nat.add_comm m 1, rfl, .substitute c d .nil, h⟩
  | @delete m _ t _ h =>
    obtain ⟨rfl, rfl⟩ := List.cons.inj hr
    exact ⟨1, m, [], t, Nat.add_comm m 1, rfl, .delete c .nil, h⟩
  | insert d _ ih =>
    -- what is inserted in front belongs to the beginning
    obtain ⟨k, m, t₁, t₂, rfl, rfl, h₁, h₂⟩ := ih hr
    exact ⟨k + 1, m, d :: t₁, t₂, (Nat.succ_add k m).symm, rfl, .insert d h₁, h₂⟩

/-- A text that is aligned can be cut, and the other text and the count with it. -/
theorem exists_split (h : Aligned n (s ++ u) t) :
    ∃ k m t₁ t₂, n = k + m ∧ t = t₁ ++ t₂ ∧ Aligned k s t₁ ∧ Aligned m u t₂ := by
  induction s generalizing n t with
  | nil => exact ⟨0, n, [], t, (Nat.zero_add n).symm, rfl, .nil, h⟩
  | cons c s ih =>
    obtain ⟨k, m, t₁, t₂, rfl, rfl, hhead, htail⟩ := h.exists_head
    obtain ⟨l, m, t₂, t₃, rfl, rfl, hs, hu⟩ := ih htail
    exact ⟨k + l, m, t₁ ++ t₂, t₃, (Nat.add_assoc k l m).symm, (List.append_assoc ..).symm,
      hhead.append hs, hu⟩

/-- The differences make up at least for the difference in length. -/
theorem length_le (h : Aligned n s t) : t.length ≤ s.length + n := by
  induction h with
  | nil => exact le_rfl
  | keep _ _ ih | substitute _ _ _ ih | delete _ _ ih | insert _ _ ih =>
    simp only [List.length_cons]
    omega

/-- Texts can always be aligned with as many differences as the longer one has characters. -/
theorem of_length : ∀ s t : List Char, Aligned (max s.length t.length) s t
  | [], [] => .nil
  | [], d :: t => by simpa using insert d (of_length [] t)
  | c :: s, [] => by simpa using delete c (of_length s [])
  | c :: s, d :: t => by
    rw [List.length_cons, List.length_cons, Nat.add_max_add_right]
    exact .substitute c d (of_length s t)

end Aligned

/-- An alignment says how one text can be edited into the other one. -/
theorem Aligned.edits (h : Aligned n s t) : Edits n s t := by
  induction h with
  | nil => exact .refl []
  | keep c _ ih => exact ih.cons c
  | substitute c d _ ih => exact .step (.substitute [] c d _) (ih.cons d)
  | delete c _ ih => exact .step (.delete [] c _) ih
  | insert d _ ih => exact .step (.insert [] d _) (ih.cons d)

/-- An edit before an alignment adds at most one difference to it. -/
theorem Edit.exists_aligned (h : Edit r s) (h' : Aligned n s t) :
    ∃ m ≤ n + 1, Aligned m r t := by
  obtain ⟨u, x, y, v, rfl, rfl, hx, hy⟩ := h.exists_replaced
  -- only the few characters that the edit replaces are aligned anew
  obtain ⟨k, m, t₁, t₂, rfl, rfl, hu, hyv⟩ := h'.exists_split
  obtain ⟨l, m, t₂, t₃, rfl, rfl, hyt, hv⟩ := hyv.exists_split
  have hlength := hyt.length_le
  exact ⟨k + (max x.length t₂.length + m), by omega, hu.append ((Aligned.of_length x t₂).append hv)⟩

/-- Edits can be put in order without becoming more of them. -/
theorem exists_aligned_of_edits (h : Edits n s t) : ∃ m ≤ n, Aligned m s t := by
  induction h with
  | refl s => exact ⟨0, le_rfl, .refl s⟩
  | step h _ ih =>
    obtain ⟨m, hm, hm'⟩ := ih
    obtain ⟨k, hk, hk'⟩ := h.exists_aligned hm'
    exact ⟨k, by omega, hk'⟩

/-! ## The least number of edits -/

/-- The least number of differences with which two texts can be aligned. -/
abbrev Least (n : ℕ) (s t : List Char) : Prop := IsLeast {m | Aligned m s t} n

/-- The least alignment is also the least number of edits. -/
theorem Least.edits (h : Least n s t) : IsLeast {m | Edits m s t} n := by
  refine ⟨h.1.edits, fun m hm => ?_⟩
  obtain ⟨k, hk, haligned⟩ := exists_aligned_of_edits hm
  exact (h.2 haligned).trans hk

theorem Least.symm (h : Least n s t) : Least n t s :=
  ⟨h.1.symm, fun _ hm => h.2 hm.symm⟩

theorem Least.reverse (h : Least n s.reverse t.reverse) : Least n s t := by
  refine ⟨?_, fun m hm => h.2 hm.reverse⟩
  have haligned := h.1.reverse
  rwa [List.reverse_reverse, List.reverse_reverse] at haligned

theorem least_nil (t : List Char) : Least t.length [] t := by
  refine ⟨?_, fun m (hm : Aligned m [] t) => ?_⟩
  · simpa using Aligned.of_length [] t
  · simpa using hm.length_le

/-- The recurrence of the distance table: the last difference is a deletion, an insertion or a
substitution, if it is one at all. -/
theorem least_cons {up left diagonal : ℕ} (hup : Least up s (d :: t))
    (hleft : Least left (c :: s) t) (hdiagonal : Least diagonal s t) :
    Least (min (min (up + 1) (left + 1)) (diagonal + if c = d then 0 else 1))
      (c :: s) (d :: t) := by
  constructor
  · -- each of the three numbers belongs to an alignment
    have hsame : Aligned (diagonal + if c = d then 0 else 1) (c :: s) (d :: t) := by
      split
      · next h => exact h ▸ .keep c hdiagonal.1
      · exact .substitute c d hdiagonal.1
    have hend : Aligned (min (up + 1) (left + 1)) (c :: s) (d :: t) :=
      min_rec' (Aligned · (c :: s) (d :: t)) (.delete c hup.1) (.insert d hleft.1)
    exact min_rec' (Aligned · (c :: s) (d :: t)) hend hsame
  · rintro m (hm : Aligned m (c :: s) (d :: t))
    cases hm with
    | keep _ h =>
      have := hdiagonal.2 h
      rw [if_pos rfl]
      omega
    | substitute _ _ h =>
      have := hdiagonal.2 h
      split <;> omega
    | delete _ h =>
      have := hup.2 h
      omega
    | insert _ h =>
      have := hleft.2 h
      omega

/-! ## The distance table -/

/-- A row of the table: the least alignments of one text with another one, and with what that text
becomes as further characters are put in front of it one by one. -/
inductive Row (s : List Char) : List Char → List Char → List ℕ → Prop
  | last {t : List Char} {n : ℕ} : Least n s t → Row s t [] [n]
  | more {d : Char} {t ds : List Char} {n : ℕ} {row : List ℕ} :
      Least n s t → Row s (d :: t) ds row → Row s t (d :: ds) (n :: row)

/-- The row for no characters counts up. -/
theorem row_range (t ds : List Char) : Row [] t ds (List.range' t.length (ds.length + 1)) := by
  induction ds generalizing t with
  | nil => exact .last (least_nil t)
  | cons d ds ih => exact .more (least_nil t) (ih (d :: t))

/-- One row is computed from the row above it. -/
theorem Row.next {row : List ℕ} {left : ℕ} {ds : List Char} (h : Row s t ds row)
    (hleft : Least left (c :: s) t) : Row (c :: s) t ds (left :: nextRow c left row ds) := by
  induction h generalizing left with
  | last _ => exact .last hleft
  | more hdiagonal h ih =>
    -- the entry above the next one comes first in what is left of the row above
    cases h with
    | last hup => exact .more hleft (.last (least_cons hup hleft hdiagonal))
    | more hup h => exact .more hleft (ih (least_cons hup hleft hdiagonal))

/-- The rows for the characters of a text follow one another. -/
theorem Row.lastRow {row : List ℕ} {ds : List Char} (h : Row s [] ds row) (cs : List Char) :
    Row (cs.reverse ++ s) [] ds (lastRow ds s.length row cs) := by
  induction cs generalizing s row with
  | nil => exact h
  | cons c cs ih =>
    have hleft : Least (s.length + 1) (c :: s) [] := (least_nil (c :: s)).symm
    rw [List.reverse_cons, List.append_assoc]
    exact ih (h.next hleft)

/-- The last entry of a row belongs to the whole text. -/
theorem Row.least_getLastD {row : List ℕ} {ds : List Char} (h : Row s t ds row) :
    Least (row.getLastD 0) s (ds.reverse ++ t) := by
  induction h with
  | last h => exact h
  | more _ h ih =>
    rw [List.reverse_cons, List.append_assoc]
    cases h <;> exact ih

theorem least_editDistance (s t : List Char) : Least (editDistance s t) s t := by
  have hrows : ∀ long short : List Char,
      Least ((lastRow short 0 (List.range (short.length + 1)) long).getLastD 0) long short := by
    intro long short
    rw [List.range_eq_range']
    apply Least.reverse
    have h := ((row_range [] short).lastRow long).least_getLastD
    rwa [List.append_nil, List.append_nil] at h
  -- the longer text runs down the table, which is of no matter to the distance
  by_cases h : s.length < t.length
  · rw [editDistance, if_pos h]
    exact (hrows t s).symm
  · rw [editDistance, if_neg h]
    exact hrows s t

/-- The distance computed is the least number of edits that turn one text into the other one. -/
theorem isLeast_editDistance (s t : List Char) : IsLeast {n | Edits n s t} (editDistance s t) :=
  (least_editDistance s t).edits

theorem editDistance_comm (s t : List Char) : editDistance s t = editDistance t s :=
  (least_editDistance s t).unique (least_editDistance t s).symm

/-! ## Suggestions -/

section Sorting

variable {α : Type} {key : α → ℕ} {xs : List α}

/-- Sorting by a key keeps the order of items with equal keys. -/
theorem filter_mergeSort (key : α → ℕ) (xs : List α) (k : ℕ) :
    (xs.mergeSort fun a b => key a ≤ key b).filter (key · = k) = xs.filter (key · = k) := by
  have hsorted : (xs.filter (key · = k)).Pairwise fun a b => decide (key a ≤ key b) = true := by
    refine List.pairwise_of_forall_mem_list fun a ha b hb => decide_eq_true ?_
    have ha : key a = k := by simpa using List.of_mem_filter ha
    have hb : key b = k := by simpa using List.of_mem_filter hb
    omega
  have hsublist := List.sublist_mergeSort (by simp; omega) (by simp; omega) hsorted
    List.filter_sublist
  -- one list of these items is part of the other one, and they are as many
  have hfilter := hsublist.filter (key · = k)
  rw [List.filter_filter] at hfilter
  simp only [Bool.and_self] at hfilter
  exact (hfilter.eq_of_length ((List.mergeSort_perm xs _).filter _).length_eq.symm).symm

/-- With the greatest key, the items of that key come last. -/
theorem filter_le_succ_of_sorted (h : xs.Pairwise (key · ≤ key ·)) (bound : ℕ) :
    xs.filter (key · ≤ bound + 1) = xs.filter (key · ≤ bound) ++ xs.filter (key · = bound + 1) := by
  induction h with
  | nil => rfl
  | @cons a xs ha _ ih =>
    obtain hgt | hle := Nat.lt_or_ge bound (key a)
    · -- from here on no key is smaller
      have hall : ∀ b ∈ a :: xs, bound < key b :=
        List.forall_mem_cons.mpr ⟨hgt, fun b hb => hgt.trans_le (ha b hb)⟩
      have hnone : (a :: xs).filter (key · ≤ bound) = [] :=
        List.filter_eq_nil_iff.mpr fun b hb => by
          have := hall b hb
          simp
          omega
      rw [hnone, List.nil_append]
      refine List.filter_congr fun b hb => ?_
      have := hall b hb
      exact decide_eq_decide.mpr (by omega)
    · rw [List.filter_cons_of_pos (by simp; omega), List.filter_cons_of_pos (by simpa using hle),
        List.filter_cons_of_neg (by simp; omega), ih, List.cons_append]

/-- Sorted items up to a bound are those of each key, one key after another. -/
theorem filter_le_of_sorted (h : xs.Pairwise (key · ≤ key ·)) (bound : ℕ) :
    xs.filter (key · ≤ bound) =
      (List.range (bound + 1)).flatMap fun k => xs.filter (key · = k) := by
  induction bound with
  | zero => simp
  | succ bound ih =>
    rw [filter_le_succ_of_sorted h, ih, List.range_succ (n := bound + 1), List.flatMap_append,
      List.flatMap_singleton]

/-- The items of the least keys, sorted: first all of key zero in their order, then all of key one,
and so on. -/
theorem filter_mergeSort_le (key : α → ℕ) (xs : List α) (bound : ℕ) :
    (xs.mergeSort fun a b => key a ≤ key b).filter (key · ≤ bound) =
      (List.range (bound + 1)).flatMap fun k => xs.filter (key · = k) := by
  have hsorted : (xs.mergeSort fun a b => key a ≤ key b).Pairwise
      fun a b => decide (key a ≤ key b) :=
    List.pairwise_mergeSort (by simp; omega) (by simp; omega) xs
  rw [filter_le_of_sorted (hsorted.imp of_decide_eq_true)]
  exact List.flatMap_congr fun k _ => filter_mergeSort key xs k

end Sorting

/-- The names suggested, one distance after another. -/
theorem similarNames_eq_flatMap (target : String) (candidates : List String) :
    similarNames target candidates = (List.range (closeness + 1)).flatMap fun k =>
      candidates.filter fun name => name ≠ target ∧
        editDistance (lowercase target).toList (lowercase name).toList = k := by
  simp only [similarNames]
  rw [filter_mergeSort_le Prod.snd, List.map_flatMap]
  refine List.flatMap_congr fun k _ => ?_
  -- scoring a name and dropping its score again leaves the name
  rw [List.filter_map, List.map_map, List.filter_filter]
  refine (List.map_id _).trans (List.filter_congr fun name _ => ?_)
  rw [Bool.eq_iff_iff]
  simp [and_comm]

/-- Names are suggested by their distance in lower case. The distance is the least number of single
characters inserted, deleted or substituted to turn one text into the other one, in either
direction. The names suggested are the candidates other than the name itself at a distance of two at
most: first those at no distance, then those at distance one, then those at distance two, each in
the order of the candidates. -/
theorem similarNames_by_distance :
    (∀ s t, IsLeast {n | Edits n s t} (editDistance s t)) ∧
      (∀ s t, editDistance s t = editDistance t s) ∧
      ∀ target candidates, similarNames target candidates = [0, 1, 2].flatMap fun k =>
        candidates.filter fun name => name ≠ target ∧
          editDistance (lowercase target).toList (lowercase name).toList = k :=
  ⟨isLeast_editDistance, editDistance_comm, similarNames_eq_flatMap⟩

/-- Names at the same distance keep their order, and a nearer one overtakes them. -/
example : similarNames "count" ["cont", "amount", "counts", "Count", "count"] =
    ["Count", "cont", "counts", "amount"] := by
  cbv

end MiniApp.Text
