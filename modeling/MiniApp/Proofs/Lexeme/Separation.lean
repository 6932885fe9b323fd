import MiniApp.Proofs.Lexeme.Split

/-!
# Lexemes that stand apart

A lexeme that is followed by a blank is scanned as it is: a blank goes on with no word, no number
and no sign, and it opens no comment. So a text that is spread out from lexemes, with separators
between them that begin with a blank, is scanned as these lexemes, whatever else the separators
hold. The same blank keeps what a text is split into when another text is put behind it.

## Main definitions

* `Lexical.Filler`, `Lexical.Separator`: blanks and closed comments, and those that begin with a
  blank
* `Lexical.spelled`: a lexeme as it is written
* `Lexical.spread`: lexemes with separators between them

## Main results

* `Lexical.Longest.append_blank`: a blank behind a text leaves the longest part at its head alone
* `Token.scan_spread`: spread lexemes are scanned as they are
-/

namespace MiniApp

namespace Lexical

variable {c : Char} {cs ds es rest value : List Char} {x : Part} {k : TokenKind} {parts : List Part}

/-! ## A blank behind a text -/

theorem takeWhile_append_stop {p : Char → Bool} (hc : p c = false) (cs ds : List Char) :
    (cs ++ c :: ds).takeWhile p = cs.takeWhile p := by
  induction cs with
  | nil => simp [hc]
  | cons d cs ih => simp [List.takeWhile_cons, ih]

theorem commentEnd?_append_right {n : Nat} (h : commentEnd? cs = some n) (ds : List Char) :
    commentEnd? (cs ++ ds) = some n ∧ (cs ++ ds).take n = cs.take n := by
  obtain ⟨fs, es, rfl, hfs, rfl⟩ := exists_of_commentEnd? h
  rw [List.append_assoc, List.cons_append, List.cons_append, commentEnd?_append hfs,
    take_append_end, take_append_end]
  exact ⟨rfl, rfl⟩

theorem of_blank (hc : isSpace c = true) :
    Text.isAsciiDigit c = false ∧ isWordPart c = false ∧ c ≠ '.' ∧ c ≠ '/' ∧ c ≠ '*' := by
  have hmem := isSpace_cases hc
  simp only [List.mem_cons, List.not_mem_nil, or_false] at hmem
  rcases hmem with rfl | rfl | rfl | rfl <;> decide

/-- No sign of two characters ends in a blank. -/
theorem lookup_pairs_blank (hc : isSpace c = true) (d : Char) :
    TokenKind.pairs.lookup (String.ofList [d, c]) = none := by
  have hall : ∀ x ∈ TokenKind.pairs, x.1.toList.all (!isSpace ·) = true := by decide
  rw [List.lookup_eq_none_iff]
  intro x hx
  rw [bne_iff_ne]
  intro heq
  have hspace := List.all_eq_true.mp (hall x hx) c (by simp [← heq])
  simp [hc] at hspace

theorem lookup_pairs_singleton (c : Char) : TokenKind.pairs.lookup (String.ofList [c]) = none := by
  have hall : ∀ x ∈ TokenKind.pairs, x.1.toList.length = 2 := by decide
  rw [List.lookup_eq_none_iff]
  intro x hx
  rw [bne_iff_ne]
  intro heq
  have hlength := hall x hx
  simp [← heq] at hlength

theorem numberText_append_blank (hc : isSpace c = true) (cs ds : List Char) :
    numberText (cs ++ c :: ds) = numberText cs := by
  obtain ⟨hdigit, -, hpoint, -⟩ := of_blank hc
  have hle : (cs.takeWhile Text.isAsciiDigit).length ≤ cs.length :=
    (List.takeWhile_prefix _).length_le
  simp only [numberText, takeWhile_append_stop hdigit cs ds, List.drop_append_of_le_length hle]
  -- what stands behind the first digits
  rcases cs.drop (cs.takeWhile Text.isAsciiDigit).length with _ | ⟨d, _ | ⟨e, fs⟩⟩
  · simp [hpoint]
  · grind
  · have htake := takeWhile_append_stop hdigit (e :: fs) ds
    grind

/-- A blank behind a text leaves the longest part at its head alone, unless that is a comment that
the blank would go on with. -/
theorem Longest.append_blank (h : Longest cs x) (hc : isSpace c = true)
    (hline : ∀ text, x = .trivia text → c = '\n') : Longest (cs ++ c :: ds) x := by
  obtain ⟨hdigit, hpart, hpoint, hslash, hstar⟩ := of_blank hc
  obtain ⟨b, cs, rfl⟩ := List.exists_cons_of_ne_nil h.heads.ne_nil
  cases h.heads.shape with
  | blank hb => exact (longest_blank hb).mpr rfl
  | @line es fs _ =>
    obtain rfl := hline _ rfl
    have hx := longest_line.mp h
    rw [← takeWhile_append_stop (p := (· != '\n')) (c := '\n') (by decide) _ ds] at hx
    exact longest_line.mpr hx
  | @block es fs _ =>
    obtain ⟨n, hn, hx⟩ := longest_block.mp h
    obtain ⟨hn', htake⟩ := commentEnd?_append_right hn (c :: ds)
    rw [← htake] at hx
    exact longest_block.mpr ⟨n, hn', hx⟩
  | @string es fs hes =>
    refine longest_string.mpr ⟨by simp, ?_⟩
    have htake : (es ++ '"' :: (fs ++ c :: ds)).takeWhile (· != '"') = es := takeWhile_ne_append hes
    simp [htake]
  | number hb _ =>
    have hx := (longest_number hb).mp h
    rw [← numberText_append_blank hc _ ds] at hx
    exact (longest_number hb).mpr hx
  | word hb _ =>
    have hx := (longest_word hb).mp h
    rw [← takeWhile_append_stop hpart _ ds] at hx
    exact (longest_word hb).mpr hx
  | pair _ hk => exact (longest_pair hk).mpr rfl
  | single _ hk hcs =>
    cases cs with
    | nil =>
      have hpair : TokenKind.pairs.lookup (String.ofList (b :: (c :: ds).take 1)) = none :=
        lookup_pairs_blank hc b
      refine (longest_single hk hpair fun _ d hd => ?_).mpr rfl
      obtain rfl : c = d := by simpa using hd
      exact ⟨hslash, hstar⟩
    | cons d cs =>
      -- a sign of two characters would have been longer
      have hpair : TokenKind.pairs.lookup
          (String.ofList (b :: (d :: (cs ++ c :: ds)).take 1)) = none :=
        Option.eq_none_iff_forall_ne_some.mpr fun k' hk' => by
          have hx := (longest_pair (mem_of_lookup hk')).mp h
          simp at hx
      exact (longest_single hk hpair hcs).mpr rfl

/-! ## Lexemes with separators -/

/-- Blanks and closed comments. A comment to the end of its line is closed by the line feed
there. -/
inductive Filler : List Char → Prop
  | nil : Filler []
  | blank {c : Char} {cs : List Char} : isSpace c = true → Filler cs → Filler (c :: cs)
  | line {ds cs : List Char} : '\n' ∉ ds → Filler cs → Filler ('/' :: '/' :: (ds ++ '\n' :: cs))
  | block {ds cs : List Char} : ¬ ['*', '/'] <:+: ds → Filler cs →
      Filler ('/' :: '*' :: (ds ++ '*' :: '/' :: cs))

/-- What sets two lexemes apart: a blank, and then blanks and closed comments. -/
inductive Separator : List Char → Prop
  | mk {c : Char} {cs : List Char} : isSpace c = true → Filler cs → Separator (c :: cs)

/-- A lexeme as it is written. -/
def spelled (l : TokenKind × String) : List Char := (Part.lexeme l.1 l.2.toList).text

/-- Lexemes with separators between them. -/
def spread : List (TokenKind × String) → List (List Char) → List Char
  | [], _ => []
  | l :: _, [] => spelled l
  | l :: ls, s :: separators => spelled l ++ (s ++ spread ls separators)

/-- The lexeme that a part is, if it is one. -/
def Part.lexeme? : Part → Option (TokenKind × String)
  | .trivia _ => none
  | .lexeme kind value => some (kind, String.ofList value)

theorem placed_lexemes (before : List Char) (parts : List Part) :
    (placed before parts).map Token.lexeme = parts.filterMap Part.lexeme? := by
  induction parts generalizing before with
  | nil => rfl
  | cons x parts ih =>
    cases x with
    | trivia text => exact ih (before ++ text)
    | lexeme kind value => exact congrArg _ (ih (before ++ (Part.lexeme kind value).text))

theorem Lexeme.longest (h : Lexeme k value) :
    Longest (Part.lexeme k value).text (.lexeme k value) := by
  cases h with
  | string hvalue => exact longest_string.mpr ⟨by simp, by rw [takeWhile_ne_append hvalue]⟩
  | number hn =>
    obtain ⟨d, ds, rfl⟩ := List.exists_cons_of_ne_nil hn.ne_nil
    have htext : numberText (d :: ds ++ []) = d :: ds :=
      numberText_of_numeral hn (by simp [Boundary])
    rw [List.append_nil] at htext
    rw [text_lexeme (by decide)]
    exact (longest_number hn.digit_head).mpr (by rw [htext])
  | word hstart hpart =>
    rw [text_lexeme (ofWord_ne _).1]
    exact (longest_word hstart).mpr (by rw [List.takeWhile_eq_self_iff.mpr hpart])
  | @pair s k hk =>
    obtain ⟨c, d, hs, -, hstring, -⟩ := of_pair hk
    rw [text_lexeme hstring, hs]
    exact (longest_pair (by rwa [← hs, String.ofList_toList])).mpr rfl
  | @single c k hk =>
    rw [text_lexeme (of_single hk).2.1]
    have hpair : TokenKind.pairs.lookup (String.ofList (c :: [].take 1)) = none :=
      lookup_pairs_singleton c
    exact (longest_single hk hpair (by simp)).mpr rfl

theorem Splits.blank (hc : isSpace c = true) (h : Splits cs parts rest) :
    Splits (c :: cs) (.trivia [c] :: parts) rest :=
  .cons (x := .trivia [c]) ((longest_blank hc).mpr rfl) h

/-- A filler goes in front of a split, and brings no lexeme. -/
theorem Filler.splits {ws : List Char} (h : Filler ws) (hsplit : Splits cs parts rest) :
    ∃ parts', Splits (ws ++ cs) parts' rest ∧
      parts'.filterMap Part.lexeme? = parts.filterMap Part.lexeme? := by
  induction h with
  | nil => exact ⟨parts, hsplit, rfl⟩
  | @blank c ws hc _ ih =>
    obtain ⟨parts', hparts, heq⟩ := ih
    exact ⟨.trivia [c] :: parts', hparts.blank hc, heq⟩
  | @line ds ws hds _ ih =>
    obtain ⟨parts', hparts, heq⟩ := ih
    -- the line feed that closes the comment is a blank behind it
    have hfeed := hparts.blank (c := '\n') rfl
    have hx : Longest ('/' :: '/' :: (ds ++ '\n' :: (ws ++ cs))) (.trivia ('/' :: '/' :: ds)) :=
      longest_line.mpr (by rw [takeWhile_ne_append hds])
    refine ⟨.trivia ('/' :: '/' :: ds) :: .trivia ['\n'] :: parts', ?_, heq⟩
    simpa [Part.text] using Splits.cons (x := .trivia ('/' :: '/' :: ds)) hx hfeed
  | @block ds ws hds _ ih =>
    obtain ⟨parts', hparts, heq⟩ := ih
    have hx : Longest ('/' :: '*' :: (ds ++ '*' :: '/' :: (ws ++ cs)))
        (.trivia ('/' :: '*' :: (ds ++ ['*', '/']))) :=
      longest_block.mpr ⟨_, commentEnd?_append hds, by rw [take_append_end]⟩
    refine ⟨.trivia ('/' :: '*' :: (ds ++ ['*', '/'])) :: parts', ?_, heq⟩
    have hcons : Splits ((Part.trivia ('/' :: '*' :: (ds ++ ['*', '/']))).text ++ (ws ++ cs)) _ _ :=
      .cons (by simpa [Part.text] using hx) hparts
    simpa [Part.text] using hcons

/-- A lexeme goes in front of a split of a text that begins with a blank. -/
theorem Lexeme.splits (h : Lexeme k value) (hc : isSpace c = true)
    (hsplit : Splits (c :: cs) parts rest) :
    Splits ((Part.lexeme k value).text ++ c :: cs) (.lexeme k value :: parts) rest :=
  .cons (h.longest.append_blank hc nofun) hsplit

/-- Spread lexemes are split into themselves and what stands between them. -/
theorem splits_spread {lexemes : List (TokenKind × String)} {separators : List (List Char)}
    (hlexemes : ∀ l ∈ lexemes, Lexeme l.1 l.2.toList) (hseparators : ∀ s ∈ separators, Separator s)
    (hlength : separators.length = lexemes.length - 1) :
    ∃ parts, Splits (spread lexemes separators) parts [] ∧
      parts.filterMap Part.lexeme? = lexemes := by
  -- from the last lexeme to the first; each is put in front of a separator, which is filled first
  induction lexemes generalizing separators with
  | nil => exact ⟨[], .nil, rfl⟩
  | cons l ls ih =>
    have hl := hlexemes l List.mem_cons_self
    have hls : ∀ l ∈ ls, Lexeme l.1 l.2.toList := fun l' hl' =>
      hlexemes l' (List.mem_cons_of_mem l hl')
    have hself : Part.lexeme? (.lexeme l.1 l.2.toList) = some l := by simp [Part.lexeme?]
    cases separators with
    | nil =>
      obtain rfl : ls = [] := List.length_eq_zero_iff.mp (by simpa using hlength.symm)
      have hcons : Splits ((Part.lexeme l.1 l.2.toList).text ++ []) _ _ :=
        .cons (by simpa using hl.longest) .nil
      rw [List.append_nil] at hcons
      exact ⟨_, hcons, by simp [hself]⟩
    | cons s separators =>
      obtain ⟨hs, hrest⟩ := List.forall_mem_cons.mp hseparators
      obtain ⟨parts, hparts, heq⟩ := ih hls hrest (by simp at hlength; omega)
      cases hs with
      | @mk c ws hc hfiller =>
        obtain ⟨parts', hparts', heq'⟩ := hfiller.splits hparts
        refine ⟨_, hl.splits hc (hparts'.blank hc), ?_⟩
        rw [List.filterMap_cons_some hself, List.filterMap_cons_none rfl, heq', heq]

end Lexical

open Lexical

/-- Lexemes are scanned as they are, in order, whatever separators stand between them, and one end
marker follows. -/
theorem Token.scan_spread (path : String) {lexemes : List (TokenKind × String)}
    {separators : List (List Char)} (hlexemes : ∀ l ∈ lexemes, Lexeme l.1 l.2.toList)
    (hseparators : ∀ s ∈ separators, Separator s)
    (hlength : separators.length = lexemes.length - 1) :
    ∃ tokens, Token.scan path (String.ofList (spread lexemes separators)) = .ok tokens ∧
      tokens.map Token.lexeme = lexemes ++ [(.eof, "")] := by
  obtain ⟨parts, hparts, heq⟩ := splits_spread hlexemes hseparators hlength
  refine ⟨_, Token.scan_of_splits (by rwa [String.toList_ofList]), ?_⟩
  rw [List.map_append, placed_lexemes, heq]
  rfl

/-- A name with a hyphen, two signs that would be one if they touched, and a string, with comments
between them. -/
theorem Token.scan_spread_comments :
    ∃ tokens, Token.scan "m.homy" "a-b /* + */==\n=\t// \"\n\"d\"" = .ok tokens ∧
      tokens.map Token.lexeme =
        [(.identifier, "a-b"), (.eq, "=="), (.assign, "="), (.string, "d"), (.eof, "")] := by
  have hname : Lexeme (.ofWord (String.ofList ['a', '-', 'b'])) ['a', '-', 'b'] :=
    .word rfl (by simp [isWordPart, isWordStart])
  have hlexemes : ∀ l ∈ [(.identifier, "a-b"), (.eq, "=="), (.assign, "="), (.string, "d")],
      Lexeme l.1 l.2.toList := by
    simp only [List.forall_mem_cons]
    exact ⟨hname, .pair (by decide), .single (by decide), .string (by decide), by simp⟩
  have hseparators : ∀ s ∈ [" /* + */".toList, ['\n'], "\t// \"\n".toList], Separator s := by
    simp only [List.forall_mem_cons]
    refine ⟨.mk rfl (.block (?_ : ¬ ['*', '/'] <:+: [' ', '+', ' ']) .nil), .mk rfl .nil,
      .mk rfl (.line (?_ : '\n' ∉ [' ', '"']) .nil), by simp⟩ <;> decide
  exact Token.scan_spread "m.homy" hlexemes hseparators rfl

end MiniApp
