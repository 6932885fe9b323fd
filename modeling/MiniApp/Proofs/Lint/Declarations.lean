import MiniApp.Proofs.Lexeme.Neighbours
import MiniApp.Proofs.Lint.Lines

/-!
# Declarations in a line

A line is searched for declarations from left to right, and what belongs to one is not searched
again. A keyword could therefore be missed: it may lie within something that was taken for a
declaration before, as a name. That does not happen behind a text that is free, one that ends in no
word and in no keyword with blanks behind it. Whatever is found in such a text ends there, the
search reaches what follows it, and the declaration at its head is found, in its place, once.

## Main definitions

* `Lint.Clear`: a text does not end in a keyword with blanks behind it
* `Lint.Free`: nor in a word

## Main results

* `Lint.declarationBy?_eq_some_iff`: what a declaration is
* `Lint.Free.length_le`: what is found in a free text ends in it
* `Lint.filter_declarations`: the declaration behind a free text is found once
-/

namespace MiniApp.Lint

open Lexical

variable {b c p : Char} {before cs ds post pre rest ws : List Char} {keyword name : String}
variable {d : Declaration}

/-! ## A single declaration -/

/-- A declaration by its parts: a keyword, blanks, and the whole of the word behind them. -/
theorem declarationBy?_eq_some_iff : declarationBy? keyword cs = some d ↔
    ∃ ws w word rest, cs = keyword.toList ++ (ws ++ (w :: word ++ rest)) ∧ ws ≠ [] ∧
      (∀ b ∈ ws, Text.isBlank b = true) ∧ isWordStart w = true ∧
      (∀ c ∈ word, isWordPart c = true) ∧ (∀ c ∈ rest.head?, isWordPart c = false) ∧
      d = ⟨keyword, String.ofList (w :: word), keyword.length + ws.length,
        keyword.length + ws.length + (w :: word).length⟩ := by
  rw [declarationBy?]
  constructor
  · intro h
    -- what stands behind the keyword are blanks, a word, and what cannot go on with it
    split at h
    · next hkeyword =>
      obtain ⟨behind, rfl⟩ := List.isPrefixOf_iff_prefix.mp hkeyword
      obtain ⟨named, hnamed, hdrop, -⟩ := Text.exists_takeWhile_append Text.isBlank behind
      rw [← String.length_toList, List.drop_left] at h
      dsimp only at h
      rw [hdrop] at h
      split at h
      · next hword =>
        simp only [Bool.and_eq_true, Bool.not_eq_true', List.isEmpty_eq_false_iff] at hword
        obtain ⟨hblanks, hstart⟩ := hword
        cases named with
        | nil => simp at hstart
        | cons w named =>
          obtain ⟨rest, hrest, -, hstop⟩ := Text.exists_takeWhile_append isWordPart named
          have hw : isWordStart w = true := by simpa using hstart
          rw [List.takeWhile_cons_of_pos (isWordPart_of_isWordStart hw), String.length_toList] at h
          refine ⟨_, w, _, rest, ?_, hblanks, fun _ => List.mem_takeWhile_imp, hw,
            fun _ => List.mem_takeWhile_imp, hstop, (Option.some.inj h).symm⟩
          rw [List.cons_append, ← hrest, ← hnamed]
      · cases h
    · cases h
  · rintro ⟨ws, w, word, rest, rfl, hne, hws, hw, hword, hstop, rfl⟩
    have hword : ∀ c ∈ w :: word, isWordPart c = true :=
      List.forall_mem_cons.mpr ⟨isWordPart_of_isWordStart hw, hword⟩
    have hblanks : (ws ++ (w :: word ++ rest)).takeWhile Text.isBlank = ws :=
      takeWhile_append_boundary hws fun c hc => by
        obtain rfl : w = c := by simpa using hc
        exact not_isBlank_of_isWordPart (isWordPart_of_isWordStart hw)
    have hname : (w :: word ++ rest).takeWhile isWordPart = w :: word :=
      takeWhile_append_boundary hword hstop
    rw [if_pos (List.isPrefixOf_iff_prefix.mpr (List.prefix_append _ _))]
    simp only [← String.length_toList, List.drop_left, hblanks, hname]
    rw [if_pos (by simp [hne, hw])]

/-! ## Texts that declarations do not leave -/

/-- The text does not end in a keyword with blanks of the same line behind it. -/
def Clear (cs : List Char) : Prop := ∀ keyword ∈ declaringKeywords, ∀ ws : List Char,
  (∀ b ∈ ws, Text.isBlank b = true ∧ b ≠ '\n') → ¬ keyword.toList ++ ws <:+ cs

/-- The text does not end in a word either. -/
structure Free (cs : List Char) : Prop where
  clear : Clear cs
  last : ∀ c ∈ cs.getLast?, isWordPart c = false ∧ Text.isWordChar c = false

theorem word_of_keyword (hkeyword : keyword ∈ declaringKeywords) :
    keyword.toList ≠ [] ∧ (∀ c ∈ keyword.toList, isWordStart c = true) ∧
      ∀ c ∈ keyword.toList.getLast?, c ∈ ['c', 't'] := by
  have hall : ∀ q ∈ declaringKeywords, q.toList ≠ [] ∧ q.toList.all isWordStart = true ∧
      q.toList.getLast?.all (· ∈ ['c', 't']) = true := by decide
  obtain ⟨hne, hstart, hlast⟩ := hall keyword hkeyword
  refine ⟨hne, List.all_eq_true.mp hstart, fun c hc => ?_⟩
  simpa [Option.mem_def.mp hc] using hlast

theorem clear_nil : Clear [] := by
  intro keyword hkeyword ws _ hsuffix
  exact (word_of_keyword hkeyword).1 (List.append_eq_nil_iff.mp (List.suffix_nil.mp hsuffix)).1

/-- A character that ends no keyword leaves a text clear, as long as the text was clear if it is a
blank of the same line. -/
theorem Clear.concat (h : Text.isBlank c = true → c ≠ '\n' → Clear cs) (hc : c ∉ ['c', 't']) :
    Clear (cs ++ [c]) := by
  intro keyword hkeyword ws hws hsuffix
  obtain ⟨hne, -, hlast⟩ := word_of_keyword hkeyword
  rcases List.eq_nil_or_concat' ws with rfl | ⟨ws, b, rfl⟩
  · -- the keyword itself ends in the character
    obtain ⟨ds, hds⟩ := hsuffix
    have hlast' := congrArg List.getLast? hds
    simp [List.getLast?_append_of_ne_nil _ hne] at hlast'
    exact hc (hlast c hlast')
  · obtain ⟨ds, hds⟩ := hsuffix
    rw [← List.append_assoc, ← List.append_assoc] at hds
    obtain ⟨rfl, hb⟩ := List.append_inj' hds rfl
    obtain rfl : b = c := by simpa using hb
    obtain ⟨hblank, hline⟩ := hws b (by simp)
    exact h hblank hline keyword hkeyword ws (fun b hb => hws b (List.mem_append_left _ hb))
      ⟨ds, (List.append_assoc _ _ _).symm⟩

theorem Free.suffix (h : Free cs) (hds : ds <:+ cs) : Free ds where
  clear keyword hkeyword ws hws hsuffix := h.clear keyword hkeyword ws hws (hsuffix.trans hds)
  last c hc := by
    obtain ⟨es, rfl⟩ := hds
    exact h.last c (by rw [List.getLast?_append, hc]; rfl)

theorem Free.not_word (h : Free cs) (hds : ds <:+ cs) (hne : ds ≠ []) :
    ¬ ∀ c ∈ ds, isWordPart c = true := by
  intro hparts
  have hlast := (h.suffix hds).last (ds.getLast hne) (List.getLast?_eq_some_getLast hne)
  simp [hparts _ (List.getLast_mem hne)] at hlast

/-- What is found in a free text ends in it. -/
theorem Free.length_le (h : Free pre) (hline : '\n' ∉ pre) (hne : pre ≠ [])
    (hp : isWordStart p = true) (hkeyword : keyword ∈ declaringKeywords)
    (hd : declarationBy? keyword (pre ++ p :: post) = some d) :
    d.offset < d.length ∧ d.length ≤ pre.length := by
  obtain ⟨ws, w, word, rest, heq, -, hws, hw, hword, -, rfl⟩ := declarationBy?_eq_some_iff.mp hd
  obtain ⟨-, hstart, -⟩ := word_of_keyword hkeyword
  refine ⟨by simp, ?_⟩
  have hword : ∀ c ∈ w :: word, isWordPart c = true :=
    List.forall_mem_cons.mpr ⟨isWordPart_of_isWordStart hw, hword⟩
  have hclear : pre ≠ keyword.toList ++ ws := by
    rintro rfl
    exact h.clear keyword hkeyword ws (fun b hb => ⟨hws b hb, fun hfeed =>
      hline (hfeed ▸ List.mem_append_right _ hb)⟩) List.suffix_rfl
  -- where the text ends: in the keyword, in the blanks, in the name, or behind it
  rcases List.append_eq_append_iff.mp heq with ⟨ds, hds, -⟩ | ⟨ds, rfl, hnamed⟩
  · exact absurd (fun c hc => isWordPart_of_isWordStart
      (hstart c (hds ▸ List.mem_append_left _ hc))) (h.not_word List.suffix_rfl hne)
  rcases List.append_eq_append_iff.mp hnamed with ⟨es, rfl, hrest⟩ | ⟨es, rfl, hwords⟩
  · rcases List.append_eq_append_iff.mp hrest with ⟨fs, rfl, -⟩ | ⟨fs, hfs, -⟩
    · simp only [List.length_append, ← String.length_toList]
      omega
    · have hsuffix : es <:+ keyword.toList ++ (ws ++ es) :=
        (List.suffix_append ws es).trans (List.suffix_append keyword.toList _)
      have hes : es ≠ [] := by
        rintro rfl
        exact hclear (by rw [List.append_nil])
      exact absurd (fun c hc => hword c (hfs ▸ List.mem_append_left _ hc)) (h.not_word hsuffix hes)
  · cases es with
    | nil => exact absurd (by rw [List.append_nil]) hclear
    | cons e es =>
      obtain ⟨rfl, -⟩ := List.cons.inj hwords
      have hblank := hws p (by simp)
      simp [not_isBlank_of_isWordPart (isWordPart_of_isWordStart hp)] at hblank

/-! ## The search -/

variable {previous : Option Char} {skip i : Nat}

/-- The declaration at the head of a text, behind a character or at the start of the line. -/
def leading (previous : Option Char) (cs : List Char) : Option Declaration :=
  if previous.any Text.isWordChar then none
  else declaringKeywords.findSome? (declarationBy? · cs)

theorem declarations_zero_none (h : leading previous (c :: cs) = none) (i : Nat) :
    declarations 0 previous i (c :: cs) = declarations 0 (some c) (i + 1) cs := by
  rw [leading] at h
  simp only [declarations, h]

theorem declarations_zero_some (h : leading previous (c :: cs) = some d) (i : Nat) :
    declarations 0 previous i (c :: cs) =
      (d, i + d.offset) :: declarations (d.length - 1) (some c) (i + 1) cs := by
  rw [leading] at h
  simp only [declarations, h]

theorem exists_keyword_of_leading (h : leading previous cs = some d) :
    ∃ keyword ∈ declaringKeywords, declarationBy? keyword cs = some d := by
  rw [leading] at h
  split at h
  · cases h
  · exact List.exists_of_findSome?_eq_some h

/-- Nothing is found in what is skipped. -/
theorem le_of_mem_declarations {x : Declaration × Nat}
    (h : x ∈ declarations skip previous i cs) : i + skip ≤ x.2 := by
  induction cs generalizing skip previous i with
  | nil => simp [declarations] at h
  | cons c cs ih =>
    cases skip with
    | succ skip =>
      have := ih h
      omega
    | zero =>
      cases hfound : leading previous (c :: cs) with
      | none =>
        rw [declarations_zero_none hfound] at h
        have := ih h
        omega
      | some d =>
        rw [declarations_zero_some hfound] at h
        rcases List.mem_cons.mp h with rfl | h
        · exact Nat.le_add_right i d.offset
        · have := ih h
          omega

/-- The last character before a place is one of those behind the first one, or that one itself. -/
theorem getLast?_cons_or (c : Char) (cs : List Char) (previous : Option Char) :
    (c :: cs).getLast?.or previous = cs.getLast?.or (some c) := by
  rw [List.getLast?_cons]
  cases cs.getLast? <;> rfl

/-- The search of a free text ends where the text ends, and finds only names that stand in it. -/
theorem Free.declarations_append (h : Free pre) (hline : '\n' ∉ pre) (hp : isWordStart p = true)
    (hskip : skip ≤ pre.length) (previous : Option Char) (i : Nat) :
    ∃ found, declarations skip previous i (pre ++ p :: post) =
        found ++ declarations 0 (pre.getLast?.or previous) (i + pre.length) (p :: post) ∧
      ∀ x ∈ found, x.2 < i + pre.length := by
  induction pre generalizing skip previous i with
  | nil =>
    obtain rfl := Nat.le_zero.mp hskip
    exact ⟨[], rfl, fun _ hx => absurd hx List.not_mem_nil⟩
  | cons c pre ih =>
    have hpre := h.suffix (List.suffix_cons c pre)
    have hfeed : '\n' ∉ pre := fun hmem => hline (List.mem_cons_of_mem c hmem)
    have hplace : i + 1 + pre.length = i + (c :: pre).length := by
      rw [List.length_cons]
      omega
    -- from the next character on, whatever is still to be skipped there
    have hnext {skip : Nat} (hskip : skip ≤ pre.length) :
        ∃ found, declarations skip (some c) (i + 1) (pre ++ p :: post) =
            found ++ declarations 0 ((c :: pre).getLast?.or previous) (i + (c :: pre).length)
              (p :: post) ∧
          ∀ x ∈ found, x.2 < i + (c :: pre).length := by
      rw [getLast?_cons_or, ← hplace]
      exact ih hpre hfeed hskip (some c) (i + 1)
    rw [List.cons_append]
    cases skip with
    | succ skip => exact hnext (Nat.le_of_succ_le_succ hskip)
    | zero =>
      cases hlead : leading previous (c :: (pre ++ p :: post)) with
      | none =>
        rw [declarations_zero_none hlead]
        exact hnext (Nat.zero_le _)
      | some d =>
        -- a declaration found here ends before the character behind, so the search comes to it
        obtain ⟨keyword, hkeyword, hd⟩ := exists_keyword_of_leading hlead
        obtain ⟨hoffset, hlength⟩ := h.length_le hline (List.cons_ne_nil c pre) hp hkeyword hd
        have hskip : d.length - 1 ≤ pre.length := Nat.sub_le_iff_le_add.mpr hlength
        obtain ⟨found, hfound, hlt⟩ := hnext hskip
        refine ⟨(d, i + d.offset) :: found, ?_, List.forall_mem_cons.mpr ⟨?_, hlt⟩⟩
        · rw [declarations_zero_some hlead, hfound, List.cons_append]
        · rw [List.length_cons]
          omega

/-- No keyword begins another one. -/
theorem keyword_unique {keyword' : String} (h : keyword ∈ declaringKeywords)
    (h' : keyword' ∈ declaringKeywords) (hcs : keyword.toList <+: cs)
    (hcs' : keyword'.toList <+: cs) : keyword = keyword' := by
  have hall : ∀ q ∈ declaringKeywords, ∀ q' ∈ declaringKeywords,
      q.toList <+: q'.toList → q = q' := by decide
  rcases List.prefix_or_prefix_of_prefix hcs hcs' with hle | hle
  · exact hall _ h _ h' hle
  · exact (hall _ h' _ h hle).symm

/-- The declaration by the keyword that a text begins with is the one that is found. -/
theorem leading_eq_some (hprevious : previous.any Text.isWordChar = false)
    (hkeyword : keyword ∈ declaringKeywords) (hd : declarationBy? keyword cs = some d) :
    leading previous cs = some d := by
  have hbegins {q : String} {e : Declaration} (h : declarationBy? q cs = some e) :
      q.toList <+: cs := by
    obtain ⟨_, _, _, _, rfl, -⟩ := declarationBy?_eq_some_iff.mp h
    exact List.prefix_append _ _
  rw [leading, hprevious, if_neg Bool.false_ne_true]
  cases hfound : declaringKeywords.findSome? (declarationBy? · cs) with
  | none => simp [List.findSome?_eq_none_iff.mp hfound keyword hkeyword] at hd
  | some e =>
    obtain ⟨q, hq, he⟩ := List.exists_of_findSome?_eq_some hfound
    obtain rfl := keyword_unique hkeyword hq (hbegins hd) (hbegins he)
    exact hd ▸ he ▸ rfl

/-- The declaration behind a free text is found once, and nothing else is found in its place. -/
theorem filter_declarations (h : Free pre) (hline : '\n' ∉ pre)
    (hkeyword : keyword ∈ declaringKeywords) (hd : declarationBy? keyword post = some d) :
    (declarations 0 none 0 (pre ++ post)).filter (·.2 = pre.length + d.offset) =
      [(d, pre.length + d.offset)] := by
  obtain ⟨hne, hstart, -⟩ := word_of_keyword hkeyword
  obtain ⟨p, ps, hkeywordText⟩ := List.exists_cons_of_ne_nil hne
  obtain ⟨ws, w, word, rest, hpost, -, -, -, -, -, hdecl⟩ := declarationBy?_eq_some_iff.mp hd
  rw [hkeywordText, List.cons_append] at hpost
  have hoffset : d.offset < d.length := by simp [hdecl]
  have hprevious : (pre.getLast?.or none).any Text.isWordChar = false := by
    cases hlast : pre.getLast? with
    | none => rfl
    | some c => simpa using (h.last c hlast).2
  have hlead := leading_eq_some hprevious hkeyword hd
  have hp : isWordStart p = true := hstart p (by simp [hkeywordText])
  rw [hpost] at hlead ⊢
  obtain ⟨found, hfound, hlt⟩ := h.declarations_append hline hp (Nat.zero_le _) none 0
  -- what is found before has its name before this one, and what is found behind it behind
  have hbefore : found.filter (·.2 = pre.length + d.offset) = [] :=
    List.filter_eq_nil_iff.mpr fun x hx => by
      have := hlt x hx
      simp only [decide_eq_true_eq]
      omega
  have hbehind {i : Nat} (hi : i = 0 + pre.length + 1) :
      (declarations (d.length - 1) (some p) i (ps ++ (ws ++ (w :: word ++ rest)))).filter
        (·.2 = pre.length + d.offset) = [] :=
    List.filter_eq_nil_iff.mpr fun x hx => by
      have := le_of_mem_declarations hx
      simp only [decide_eq_true_eq]
      omega
  rw [hfound, declarations_zero_some hlead, List.filter_append, hbefore, List.nil_append,
    List.filter_cons_of_pos (by simp), hbehind rfl, Nat.zero_add]

end MiniApp.Lint
