import Mathlib.Data.List.Infix
import MiniApp.Proofs.Format.Layout

/-!
# The longest part at the head of a text

A text is made of *parts*: trivia, which is skipped, and lexemes. Blanks, comments to the end of a
line and comments to the next `*/` are trivia. A slash is a lexeme only where it opens no comment.
Which part is the longest at the head of a text is told by the first character, or by the first two,
and it is the part that `next` finds.

## Main definitions

* `Lexical.Trivia`, `Lexical.Part`: what a text is made of
* `Lexical.Heads`, `Lexical.Longest`: a part, and the longest part, at the head of a text
* `Lexical.Stops`: texts that have no part at their head

## Main results

* `Lexical.Longest.unique`: there is at most one longest part
* `Lexical.longest_number`, `Lexical.longest_word` and others: the longest part, by its first
  character
* `Lexical.Stops.not_heads`: where a text stops, no part begins
-/

namespace MiniApp

namespace Lexical

/-- Text that is skipped: a blank, a comment to the end of its line, or one to the first `*/`. -/
inductive Trivia : List Char → Prop
  | blank {c : Char} : c ∈ [' ', '\t', '\r', '\n'] → Trivia [c]
  | line {cs : List Char} : '\n' ∉ cs → Trivia ('/' :: '/' :: cs)
  | block {cs : List Char} : ¬ ['*', '/'] <:+: cs → Trivia ('/' :: '*' :: (cs ++ ['*', '/']))

/-- A part of a text: trivia, or a lexeme with its kind and the text that its token carries. -/
inductive Part where
  | trivia (text : List Char)
  | lexeme (kind : TokenKind) (value : List Char)

/-- The characters of a part. A string stands between quotes, which its token does not carry. -/
def Part.text : Part → List Char
  | .trivia text => text
  | .lexeme kind value => if kind = .string then '"' :: (value ++ ['"']) else value

/-- `Heads cs x`: the part `x` stands at the head of the text `cs`. A slash before another slash or
before a star is no lexeme. -/
inductive Heads : List Char → Part → Prop
  | trivia {text rest : List Char} : Trivia text → Heads (text ++ rest) (.trivia text)
  | lexeme {kind : TokenKind} {value rest : List Char} :
      Lexeme kind value → (kind = .slash → ∀ c ∈ rest.head?, c ≠ '/' ∧ c ≠ '*') →
      Heads ((Part.lexeme kind value).text ++ rest) (.lexeme kind value)

/-- The longest part at the head of a text. -/
structure Longest (cs : List Char) (x : Part) : Prop where
  heads : Heads cs x
  longest : ∀ y, Heads cs y → y.text.length ≤ x.text.length

/-- A text that is not empty and has no part at its head, and why: a comment or a string that is not
closed, or a character that begins nothing. -/
inductive Stops : List Char → Failure → Prop
  | comment {cs : List Char} : ¬ ['*', '/'] <:+: cs → Stops ('/' :: '*' :: cs) .unterminatedComment
  | string {cs : List Char} : '"' ∉ cs → Stops ('"' :: cs) .unterminatedString
  | character {c : Char} {cs : List Char} :
      (∀ x, ¬ Heads (c :: cs) x) → c ≠ '"' → (c = '/' → cs.head? ≠ some '*') →
      Stops (c :: cs) (.unexpectedCharacter c)

variable {c : Char} {cs ds es rest : List Char} {x y : Part} {k : TokenKind}

theorem text_lexeme (h : k ≠ .string) : (Part.lexeme k cs).text = cs := if_neg h

theorem Heads.isPrefix (h : Heads cs x) : x.text <+: cs := by
  cases h <;> exact List.prefix_append _ _

/-- A part that is at least as long as every part at the head, and the only one of its length, is
the longest. -/
theorem longest_iff_of_forall (hx : Heads cs x)
    (h : ∀ y, Heads cs y → y.text.length ≤ x.text.length ∧
      (y.text.length = x.text.length → y = x)) : Longest cs y ↔ y = x := by
  constructor
  · intro hy
    obtain ⟨hle, heq⟩ := h y hy.heads
    exact heq (Nat.le_antisymm hle (hy.longest x hx))
  · rintro rfl
    exact ⟨hx, fun z hz => (h z hz).1⟩

/-! ## First characters -/

theorem of_space (h : isSpace c = true) :
    c ≠ '/' ∧ c ≠ '"' ∧ Text.isAsciiDigit c = false ∧ isWordStart c = false := by
  have hmem := isSpace_cases h
  simp only [List.mem_cons, List.not_mem_nil, or_false] at hmem
  rcases hmem with rfl | rfl | rfl | rfl <;> decide

theorem isSpace_of_mem (h : c ∈ [' ', '\t', '\r', '\n']) : isSpace c = true := by
  simpa [isSpace, or_assoc] using h

theorem of_wordStart (h : isWordStart c = true) :
    isSpace c = false ∧ c ≠ '/' ∧ c ≠ '"' ∧ Text.isAsciiDigit c = false := by
  refine ⟨?_, ?_, ?_, ?_⟩
  · exact Bool.eq_false_iff.mpr fun hc => by simp [(of_space hc).2.2.2] at h
  · rintro rfl
    simp [isWordStart] at h
  · rintro rfl
    simp [isWordStart] at h
  · refine Bool.eq_false_iff.mpr fun hc => ?_
    have hstart : isWordStart c = false := Text.of_digit c (by decide) hc
    simp [hstart] at h

/-- The characters that begin neither a blank nor a string, a number or a word. -/
def IsSignStart (c : Char) : Prop :=
  isSpace c = false ∧ c ≠ '"' ∧ Text.isAsciiDigit c = false ∧ isWordStart c = false

instance : DecidablePred IsSignStart := fun _ => inferInstanceAs (Decidable (_ ∧ _))

/-- What a part can be, by the first character of the text. -/
inductive Shape : Char → List Char → Part → Prop
  | blank {c : Char} {cs : List Char} : isSpace c = true → Shape c cs (.trivia [c])
  | line {ds es : List Char} : '\n' ∉ ds → Shape '/' ('/' :: (ds ++ es)) (.trivia ('/' :: '/' :: ds))
  | block {ds es : List Char} : ¬ ['*', '/'] <:+: ds →
      Shape '/' ('*' :: (ds ++ '*' :: '/' :: es)) (.trivia ('/' :: '*' :: (ds ++ ['*', '/'])))
  | string {ds es : List Char} : '"' ∉ ds → Shape '"' (ds ++ '"' :: es) (.lexeme .string ds)
  | number {c : Char} {ds es : List Char} : Text.isAsciiDigit c = true → Numeral (c :: ds) →
      Shape c (ds ++ es) (.lexeme .number (c :: ds))
  | word {c : Char} {ds es : List Char} :
      isWordStart c = true → (∀ d ∈ ds, isWordPart d = true) →
      Shape c (ds ++ es) (.lexeme (.ofWord (String.ofList (c :: ds))) (c :: ds))
  | pair {c d : Char} {es : List Char} {k : TokenKind} :
      IsSignStart c → (String.ofList [c, d], k) ∈ TokenKind.pairs →
      Shape c (d :: es) (.lexeme k [c, d])
  | single {c : Char} {es : List Char} {k : TokenKind} :
      IsSignStart c → (c, k) ∈ TokenKind.singles → (c = '/' → ∀ d ∈ es.head?, d ≠ '/' ∧ d ≠ '*') →
      Shape c es (.lexeme k [c])

theorem of_pair {s : String} (h : (s, k) ∈ TokenKind.pairs) :
    ∃ c d, s.toList = [c, d] ∧ IsSignStart c ∧ k ≠ .string ∧ k ≠ .slash := by
  have hall : ∀ x ∈ TokenKind.pairs, x.1.toList.length = 2 ∧ IsSignStart x.1.toList.head! ∧
      x.2 ≠ .string ∧ x.2 ≠ .slash := by decide
  obtain ⟨hlength, hstart, hkind⟩ := hall _ h
  obtain ⟨c, d, hs⟩ := List.length_eq_two.mp hlength
  rw [hs] at hstart
  exact ⟨c, d, hs, hstart, hkind⟩

theorem of_single (h : (c, k) ∈ TokenKind.singles) :
    IsSignStart c ∧ k ≠ .string ∧ (c = '/' → k = .slash) := by
  have hall : ∀ x ∈ TokenKind.singles, IsSignStart x.1 ∧ x.2 ≠ .string ∧
      (x.1 = '/' → x.2 = .slash) := by decide
  exact hall _ h

theorem ofWord_ne (s : String) : TokenKind.ofWord s ≠ .string ∧ TokenKind.ofWord s ≠ .slash := by
  have hall : ∀ x ∈ TokenKind.words, x.2 ≠ .string ∧ x.2 ≠ .slash := by decide
  rcases ofWord_cases s with h | h
  · rw [h]
    decide
  · exact hall _ h

theorem Heads.shape (h : Heads (c :: cs) x) : Shape c cs x := by
  -- every part has a first character of its own kind, and it is that of the text
  generalize hcs : c :: cs = text at h
  cases h with
  | trivia ht =>
    cases ht with
    | blank hc =>
      obtain ⟨rfl, rfl⟩ := List.cons.inj hcs
      exact .blank (isSpace_of_mem hc)
    | line hline =>
      obtain ⟨rfl, rfl⟩ := List.cons.inj hcs
      exact .line hline
    | block hblock =>
      obtain ⟨rfl, rfl⟩ := List.cons.inj hcs
      simpa using Shape.block hblock
  | @lexeme kind value rest hl hslash =>
    cases hl with
    | string hquote =>
      obtain ⟨rfl, rfl⟩ := List.cons.inj hcs
      simpa using Shape.string hquote
    | number hn =>
      obtain ⟨d, ds, rfl⟩ := List.exists_cons_of_ne_nil hn.ne_nil
      obtain ⟨rfl, rfl⟩ := List.cons.inj hcs
      exact .number hn.digit_head hn
    | word hstart hpart =>
      rw [text_lexeme (ofWord_ne _).1] at hcs
      obtain ⟨rfl, rfl⟩ := List.cons.inj hcs
      exact .word hstart hpart
    | @pair s k hmem =>
      obtain ⟨d, e, hs, hstart, hkind, -⟩ := of_pair hmem
      rw [text_lexeme hkind, hs] at hcs
      obtain ⟨rfl, rfl⟩ := List.cons.inj hcs
      rw [hs]
      exact .pair hstart (by rwa [← hs, String.ofList_toList])
    | single hmem =>
      obtain ⟨hstart, hkind, hslash'⟩ := of_single hmem
      rw [text_lexeme hkind] at hcs
      obtain ⟨rfl, rfl⟩ := List.cons.inj hcs
      exact .single hstart hmem fun hc => hslash (hslash' hc)

/-! ## The longest part, by its first character -/

theorem longest_blank (hc : isSpace c = true) : Longest (c :: cs) y ↔ y = .trivia [c] := by
  have hheads : Heads ([c] ++ cs) _ := .trivia (.blank (isSpace_cases hc))
  refine longest_iff_of_forall hheads fun y hy => ?_
  obtain rfl : y = .trivia [c] := by
    obtain ⟨hslash, hquote, hdigit, hword⟩ := of_space hc
    cases hy.shape with
    | blank _ => rfl
    | line _ | block _ => exact absurd rfl hslash
    | string _ => exact absurd rfl hquote
    | number h _ => simp [hdigit] at h
    | word h _ => simp [hword] at h
    | pair h _ => simp [h.1] at hc
    | single h _ _ => simp [h.1] at hc
  exact ⟨le_rfl, fun _ => rfl⟩

/-- Characters that fit are no more than are taken as long as they fit. -/
theorem append_takeWhile (rest : List Char) {p : Char → Bool} (hds : ∀ d ∈ ds, p d = true) :
    ds.length ≤ ((ds ++ rest).takeWhile p).length ∧
      (ds.length = ((ds ++ rest).takeWhile p).length → ds = (ds ++ rest).takeWhile p) := by
  rw [List.takeWhile_append_of_pos hds]
  constructor
  · simp
  · intro h
    have hnil : rest.takeWhile p = [] := by simpa using h
    rw [hnil, List.append_nil]

/-- What begins with a slash. -/
theorem Heads.slash (h : Heads ('/' :: cs) x) :
    (∃ ds es, cs = '/' :: (ds ++ es) ∧ '\n' ∉ ds ∧ x = .trivia ('/' :: '/' :: ds)) ∨
    (∃ ds es, cs = '*' :: (ds ++ '*' :: '/' :: es) ∧ ¬ ['*', '/'] <:+: ds ∧
      x = .trivia ('/' :: '*' :: (ds ++ ['*', '/']))) ∨
    x = .lexeme .slash ['/'] ∧ ∀ d ∈ cs.head?, d ≠ '/' ∧ d ≠ '*' := by
  cases h.shape with
  | @line ds es hds => exact .inl ⟨ds, es, rfl, hds, rfl⟩
  | @block ds es hds => exact .inr (.inl ⟨ds, es, rfl, hds, rfl⟩)
  | single _ hk hslash =>
    have hall : ∀ x ∈ TokenKind.singles, x.1 = '/' → x.2 = .slash := by decide
    obtain rfl := hall _ hk rfl
    exact .inr (.inr ⟨rfl, hslash rfl⟩)
  | @pair _ d es k _ hk =>
    have hall : ∀ x ∈ TokenKind.pairs, x.1.toList.head? ≠ some '/' := by decide
    exact absurd (by simp) (hall _ hk)
  | blank hc => simp [isSpace] at hc
  | number hc _ => simp [Text.isAsciiDigit] at hc
  | word hc _ => simp [isWordStart] at hc

theorem longest_line :
    Longest ('/' :: '/' :: cs) y ↔ y = .trivia ('/' :: '/' :: cs.takeWhile (· != '\n')) := by
  have hline : '\n' ∉ cs.takeWhile (· != '\n') := fun hmem => by
    simpa using List.mem_takeWhile_imp hmem
  refine longest_iff_of_forall ?_ fun y hy => ?_
  · simpa using (.trivia (.line hline) : Heads (_ ++ cs.dropWhile (· != '\n')) _)
  rcases hy.slash with ⟨ds, es, hcs, hds, rfl⟩ | ⟨_, _, hcs, -⟩ | ⟨-, hhead⟩
  · obtain ⟨-, rfl⟩ := List.cons.inj hcs
    have hfits : ∀ d ∈ ds, (d != '\n') = true := fun d hd => by
      simpa using fun heq : d = '\n' => hds (heq ▸ hd)
    have htake := append_takeWhile es hfits
    simpa [Part.text] using htake
  · simp at hcs
  · exact absurd rfl (hhead '/' rfl).1

/-- A comment ends at the first `*/`. -/
theorem commentEnd?_append (h : ¬ ['*', '/'] <:+: ds) :
    commentEnd? (ds ++ '*' :: '/' :: rest) = some (ds.length + 2) := by
  induction ds with
  | nil => rfl
  | cons c ds ih =>
    obtain ⟨hleading, hinfix⟩ := not_or.mp (List.infix_cons_iff.not.mp h)
    rw [List.cons_append, commentEnd?.eq_2, ih hinfix]
    · rfl
    · rintro cs rfl hcs
      -- the character after the star is one of `ds`, or it is the star of the end
      cases ds with
      | nil => simp at hcs
      | cons d ds => simp_all

theorem commentEnd?_eq_none (h : commentEnd? cs = none) : ¬ ['*', '/'] <:+: cs := by
  rintro ⟨ds, es, rfl⟩
  induction ds with
  | nil => simp [commentEnd?] at h
  | cons c ds ih =>
    apply ih
    rw [List.cons_append, List.cons_append] at h
    by_cases hstart : ∃ fs, c = '*' ∧ ds ++ ['*', '/'] ++ es = '/' :: fs
    · obtain ⟨fs, rfl, heq⟩ := hstart
      rw [heq] at h
      simp [commentEnd?] at h
    · rw [commentEnd?.eq_2] at h
      · simpa using h
      · exact fun fs hc heq => hstart ⟨fs, hc, heq⟩

theorem exists_of_commentEnd? {n : Nat} (h : commentEnd? cs = some n) :
    ∃ ds es, cs = ds ++ '*' :: '/' :: es ∧ ¬ ['*', '/'] <:+: ds ∧ n = ds.length + 2 := by
  fun_induction commentEnd? cs generalizing n with
  | case1 es => exact ⟨[], es, rfl, by simp, by simpa using h.symm⟩
  | case2 c cs hstart ih =>
    obtain ⟨m, hm, rfl⟩ := Option.map_eq_some_iff.mp h
    obtain ⟨ds, es, rfl, hinfix, rfl⟩ := ih hm
    refine ⟨c :: ds, es, rfl, ?_, rfl⟩
    rw [List.infix_cons_iff, not_or]
    refine ⟨?_, hinfix⟩
    rintro ⟨fs, hfs⟩
    obtain ⟨rfl, htail⟩ := List.cons.inj hfs
    subst htail
    exact hstart _ rfl rfl
  | case3 => simp at h

theorem take_append_end : (ds ++ '*' :: '/' :: es).take (ds.length + 2) = ds ++ ['*', '/'] := by
  rw [List.take_length_add_append]
  rfl

theorem Heads.block (h : Heads ('/' :: '*' :: cs) x) :
    ∃ n, commentEnd? cs = some n ∧ x = .trivia ('/' :: '*' :: cs.take n) := by
  rcases h.slash with ⟨_, _, hcs, -⟩ | ⟨ds, es, hcs, hds, rfl⟩ | ⟨-, hhead⟩
  · simp at hcs
  · obtain ⟨-, rfl⟩ := List.cons.inj hcs
    exact ⟨_, commentEnd?_append hds, by rw [take_append_end]⟩
  · exact absurd rfl (hhead '*' rfl).2

theorem longest_block : Longest ('/' :: '*' :: cs) y ↔
    ∃ n, commentEnd? cs = some n ∧ y = .trivia ('/' :: '*' :: cs.take n) := by
  constructor
  · exact fun hy => hy.heads.block
  · rintro ⟨n, hn, rfl⟩
    refine (longest_iff_of_forall ?_ fun y hy => ?_).mpr rfl
    · obtain ⟨ds, es, rfl, hds, rfl⟩ := exists_of_commentEnd? hn
      rw [take_append_end]
      simpa using (.trivia (.block hds) : Heads (_ ++ es) _)
    · obtain ⟨m, hm, rfl⟩ := hy.block
      obtain rfl : n = m := Option.some.inj (hn.symm.trans hm)
      exact ⟨le_rfl, fun _ => rfl⟩

theorem takeWhile_length_lt_iff : (cs.takeWhile (· != c)).length < cs.length ↔ c ∈ cs := by
  have hleading := List.takeWhile_prefix (· != c) (l := cs)
  constructor
  · intro hlt
    by_contra hmem
    have hall : ∀ d ∈ cs, (d != c) = true := fun d hd => by
      simpa using fun heq : d = c => hmem (heq ▸ hd)
    rw [List.takeWhile_eq_self_iff.mpr hall] at hlt
    exact lt_irrefl _ hlt
  · intro hmem
    refine hleading.length_le.lt_of_ne fun hlength => ?_
    have hall := List.takeWhile_eq_self_iff.mp (hleading.eq_of_length hlength)
    simpa using hall c hmem

theorem takeWhile_ne_append (hds : c ∉ ds) : (ds ++ c :: es).takeWhile (· != c) = ds :=
  takeWhile_append_boundary (fun d hd => by simpa using fun heq : d = c => hds (heq ▸ hd)) (by simp)

theorem Heads.string (h : Heads ('"' :: cs) x) :
    '"' ∈ cs ∧ x = .lexeme .string (cs.takeWhile (· != '"')) := by
  cases h.shape with
  | string hds =>
    rw [takeWhile_ne_append hds]
    simp
  | blank hc => simp [isSpace] at hc
  | number hc _ => simp [Text.isAsciiDigit] at hc
  | word hc _ => simp [isWordStart] at hc
  | pair hc _ => exact absurd rfl hc.2.1
  | single hc _ _ => exact absurd rfl hc.2.1

theorem longest_string : Longest ('"' :: cs) y ↔
    '"' ∈ cs ∧ y = .lexeme .string (cs.takeWhile (· != '"')) := by
  constructor
  · exact fun hy => hy.heads.string
  · rintro ⟨hmem, rfl⟩
    refine (longest_iff_of_forall ?_ fun y hy => ?_).mpr rfl
    · obtain ⟨ds, es, rfl, hds⟩ := List.eq_append_cons_of_mem hmem
      rw [takeWhile_ne_append hds]
      simpa [Part.text] using (.lexeme (.string hds) (by simp) : Heads (_ ++ es) _)
    · obtain ⟨-, rfl⟩ := hy.string
      exact ⟨le_rfl, fun _ => rfl⟩

/-- A numeral at the head of a text is no longer than the text of the number there. -/
theorem Numeral.length_le (h : Numeral ds) : ds.length ≤ (numberText (ds ++ rest)).length := by
  cases h with
  | whole _ hdigits =>
    have htake := (append_takeWhile rest hdigits).1
    refine htake.trans ?_
    rw [numberText]
    split
    · split
      · exact (List.sublist_append_left _ _).length_le
      · exact le_rfl
    · exact le_rfl
  | @fraction ds es hne hdigits hes hfraction =>
    obtain ⟨e, es, rfl⟩ := List.exists_cons_of_ne_nil hes
    have hwhole : (ds ++ ('.' :: (e :: es ++ rest))).takeWhile Text.isAsciiDigit = ds :=
      takeWhile_append_boundary hdigits (by simp [Text.isAsciiDigit])
    have htake := (append_takeWhile rest hfraction).1
    have he : Text.isAsciiDigit e = true := hfraction e List.mem_cons_self
    rw [numberText, List.append_assoc, List.cons_append, hwhole, List.drop_left]
    simp only [List.cons_append, he, if_true, List.length_append, List.length_cons] at htake ⊢
    omega

theorem numberText_isPrefix (cs : List Char) : numberText cs <+: cs := by
  have hsplit := List.prefix_iff_eq_append.mp (List.takeWhile_prefix Text.isAsciiDigit (l := cs))
  rw [numberText]
  split
  · next d rest hdrop =>
    split
    · rw [hdrop] at hsplit
      conv_rhs => rw [← hsplit]
      exact (List.prefix_append_right_inj _).mpr
        (List.cons_prefix_cons.mpr ⟨rfl, List.takeWhile_prefix _⟩)
    · exact List.takeWhile_prefix _
  · exact List.takeWhile_prefix _

theorem longest_number (hc : Text.isAsciiDigit c = true) :
    Longest (c :: cs) y ↔ y = .lexeme .number (numberText (c :: cs)) := by
  obtain ⟨hspace, hslash, hquote, hword⟩ :
      isSpace c = false ∧ c ≠ '/' ∧ c ≠ '"' ∧ isWordStart c = false :=
    Text.of_digit c (by decide) hc
  refine longest_iff_of_forall ?_ fun y hy => ?_
  · obtain ⟨rest, hrest⟩ := numberText_isPrefix (c :: cs)
    have hheads : Heads (_ ++ rest) (.lexeme .number (numberText (c :: cs))) :=
      .lexeme (.number (numeral_numberText hc)) nofun
    rwa [text_lexeme (by decide), hrest] at hheads
  · have hleading := hy.isPrefix
    cases hy.shape with
    | @number _ ds es _ hds =>
      have hle : (c :: ds).length ≤ (numberText (c :: (ds ++ es))).length := hds.length_le
      refine ⟨hle, fun heq => ?_⟩
      have hnested := List.prefix_of_prefix_length_le hleading (numberText_isPrefix _) hle
      rw [Part.lexeme.injEq]
      exact ⟨rfl, hnested.eq_of_length heq⟩
    | blank h => simp [h] at hspace
    | line _ | block _ => exact absurd rfl hslash
    | string _ => exact absurd rfl hquote
    | word h _ => simp [h] at hword
    | pair h _ => simp [h.2.2.1] at hc
    | single h _ _ => simp [h.2.2.1] at hc

theorem longest_word (hc : isWordStart c = true) : Longest (c :: cs) y ↔
    y = .lexeme (.ofWord (String.ofList (c :: cs.takeWhile isWordPart)))
      (c :: cs.takeWhile isWordPart) := by
  obtain ⟨hspace, hslash, hquote, hdigit⟩ := of_wordStart hc
  have hparts : ∀ d ∈ cs.takeWhile isWordPart, isWordPart d = true := fun _ hd =>
    List.mem_takeWhile_imp hd
  refine longest_iff_of_forall ?_ fun y hy => ?_
  · have hheads : Heads (_ ++ cs.dropWhile isWordPart) _ :=
      .lexeme (.word hc hparts) fun hk => absurd hk (ofWord_ne _).2
    simpa [text_lexeme (ofWord_ne _).1] using hheads
  cases hy.shape with
  | @word _ ds es _ hds =>
    obtain ⟨hle, heq⟩ := append_takeWhile es hds
    rw [text_lexeme (ofWord_ne _).1, text_lexeme (ofWord_ne _).1]
    refine ⟨by simpa using hle, fun hlength => ?_⟩
    rw [← heq (by simpa using hlength)]
  | blank h => simp [h] at hspace
  | line _ | block _ => exact absurd rfl hslash
  | string _ => exact absurd rfl hquote
  | number h _ => simp [h] at hdigit
  | pair h _ => simp [h.2.2.2] at hc
  | single h _ _ => simp [h.2.2.2] at hc

/-- What a sign begins with is a sign of two characters or one. -/
theorem Heads.sign (h : Heads (c :: cs) x) (hc : IsSignStart c)
    (hcs : c = '/' → ∀ d ∈ cs.head?, d ≠ '/' ∧ d ≠ '*') :
    (∃ d es k, cs = d :: es ∧ (String.ofList [c, d], k) ∈ TokenKind.pairs ∧ x = .lexeme k [c, d]) ∨
      ∃ k, (c, k) ∈ TokenKind.singles ∧ x = .lexeme k [c] := by
  cases h.shape with
  | @pair _ d es k _ hk => exact .inl ⟨d, es, k, rfl, hk, rfl⟩
  | single _ hk _ => exact .inr ⟨_, hk, rfl⟩
  | blank hb => simp [hc.1] at hb
  | line _ => exact absurd rfl (hcs rfl '/' rfl).1
  | block _ => exact absurd rfl (hcs rfl '*' rfl).2
  | string _ => exact absurd rfl hc.2.1
  | number hb _ => simp [hc.2.2.1] at hb
  | word hb _ => simp [hc.2.2.2] at hb

theorem not_mem_of_lookup {α β : Type} [BEq α] [LawfulBEq α] {a : α} {b : β} {l : List (α × β)}
    (h : l.lookup a = none) : (a, b) ∉ l := by
  intro hmem
  simpa using List.lookup_eq_none_iff.mp h _ hmem

theorem pair_kind_unique {s : String} {k k' : TokenKind} (h : (s, k) ∈ TokenKind.pairs)
    (h' : (s, k') ∈ TokenKind.pairs) : k = k' := by
  have hall : ∀ x ∈ TokenKind.pairs, ∀ x' ∈ TokenKind.pairs, x.1 = x'.1 → x.2 = x'.2 := by decide
  exact hall _ h _ h' rfl

theorem single_kind_unique {k k' : TokenKind} (h : (c, k) ∈ TokenKind.singles)
    (h' : (c, k') ∈ TokenKind.singles) : k = k' := by
  have hall : ∀ x ∈ TokenKind.singles, ∀ x' ∈ TokenKind.singles, x.1 = x'.1 → x.2 = x'.2 := by
    decide
  exact hall _ h _ h' rfl

theorem longest_pair {d : Char} (hd : (String.ofList [c, d], k) ∈ TokenKind.pairs) :
    Longest (c :: d :: cs) y ↔ y = .lexeme k [c, d] := by
  have hall : ∀ x ∈ TokenKind.pairs, IsSignStart x.1.toList.head! ∧ x.1.toList.head! ≠ '/' ∧
      x.2 ≠ .string ∧ x.2 ≠ .slash := by decide
  obtain ⟨hc, hc', hstring, hslash⟩ := hall _ hd
  rw [String.toList_ofList] at hc hc'
  refine longest_iff_of_forall ?_ fun y hy => ?_
  · have hheads : Heads (_ ++ cs) _ := .lexeme (.pair hd) fun h => absurd h hslash
    rw [text_lexeme hstring] at hheads
    simpa using hheads
  rw [text_lexeme hstring]
  rcases hy.sign hc fun h => absurd h hc' with ⟨e, es, k', hcs, he, rfl⟩ | ⟨k', hk', rfl⟩
  · obtain ⟨rfl, -⟩ := List.cons.inj hcs
    rw [pair_kind_unique hd he, text_lexeme (pair_kind_unique hd he ▸ hstring)]
    exact ⟨le_rfl, fun _ => rfl⟩
  · rw [text_lexeme (of_single hk').2.1]
    exact ⟨by simp, by simp⟩

theorem longest_single (hk : (c, k) ∈ TokenKind.singles)
    (hpair : TokenKind.pairs.lookup (String.ofList (c :: cs.take 1)) = none)
    (hcs : c = '/' → ∀ d ∈ cs.head?, d ≠ '/' ∧ d ≠ '*') :
    Longest (c :: cs) y ↔ y = .lexeme k [c] := by
  have hall : ∀ x ∈ TokenKind.singles, x.2 = .slash → x.1 = '/' := by decide
  obtain ⟨hc, hstring, -⟩ := of_single hk
  refine longest_iff_of_forall ?_ fun y hy => ?_
  · have hheads : Heads (_ ++ cs) _ := .lexeme (.single hk) fun h => hcs (hall _ hk h)
    rw [text_lexeme hstring] at hheads
    exact hheads
  obtain rfl : y = .lexeme k [c] := by
    rcases hy.sign hc hcs with ⟨e, es, k', rfl, he, rfl⟩ | ⟨k', hk', rfl⟩
    · exact absurd he (not_mem_of_lookup hpair)
    · rw [single_kind_unique hk hk']
  exact ⟨le_rfl, fun _ => rfl⟩

/-! ## The piece that is read -/

/-- What is read at the head of a text: a blank with the blanks that follow it, or the longest part
there, unless the text stops. -/
inductive Reads (c : Char) (cs : List Char) : Except Failure Piece → Prop
  | blanks : isSpace c = true → Reads c cs (.ok (.skip (cs.takeWhile isSpace).length.succ))
  | comment {text : List Char} :
      (∀ y, Longest (c :: cs) y ↔ y = .trivia text) → Reads c cs (.ok (.skip text.length))
  | lexeme {k : TokenKind} {value : List Char} :
      (∀ y, Longest (c :: cs) y ↔ y = .lexeme k value) →
      Reads c cs (.ok (.lexeme k value (Part.lexeme k value).text.length))
  | stop {f : Failure} : Stops (c :: cs) f → Reads c cs (.error f)

theorem reads_sign (hc : IsSignStart c) (hcs : c = '/' → ∀ d ∈ cs.head?, d ≠ '/' ∧ d ≠ '*') :
    Reads c cs (sign c cs) := by
  rw [sign]
  cases hpair : TokenKind.pairs.lookup (String.ofList (c :: cs.take 1)) with
  | some k =>
    have hk := mem_of_lookup hpair
    -- the sign has two characters, so there is one behind this
    cases cs with
    | nil =>
      have hall : ∀ x ∈ TokenKind.pairs, x.1.toList.length = 2 := by decide
      exact absurd (hall _ hk) (by simp)
    | cons d cs =>
      have hread : Reads c (d :: cs) _ := .lexeme fun _ => longest_pair hk
      rwa [text_lexeme (of_pair hk).choose_spec.choose_spec.2.2.1] at hread
  | none =>
    cases hsingle : TokenKind.singles.lookup c with
    | some k =>
      have hk := mem_of_lookup hsingle
      have hread : Reads c cs _ := .lexeme fun _ => longest_single hk hpair hcs
      rwa [text_lexeme (of_single hk).2.1] at hread
    | none =>
      refine .stop (.character (fun x hx => ?_) hc.2.1 fun h => ?_)
      · rcases hx.sign hc hcs with ⟨d, es, k, rfl, hk, rfl⟩ | ⟨k, hk, rfl⟩
        · exact absurd hk (not_mem_of_lookup hpair)
        · exact absurd hk (not_mem_of_lookup hsingle)
      · exact fun hhead => (hcs h _ hhead).2 rfl

/-- A comment that is read is the longest part, and one that is not closed stops the text. -/
theorem reads_block : Reads '/' ('*' :: cs) (match commentEnd? cs with
    | some n => .ok (.skip (n + 2))
    | none => .error .unterminatedComment) := by
  cases hn : commentEnd? cs with
  | none => exact .stop (.comment (commentEnd?_eq_none hn))
  | some n =>
    obtain ⟨ds, es, hcs, -, hlength⟩ := exists_of_commentEnd? hn
    have hread : Reads '/' ('*' :: cs) (.ok (.skip ('/' :: '*' :: cs.take n).length)) :=
      .comment fun y => by simp [longest_block, hn]
    have htake : (cs.take n).length = n := by
      rw [List.length_take, hcs]
      simp [hlength]
    simpa [htake] using hread

theorem reads_string : Reads '"' cs (
    if (cs.takeWhile (· != '"')).length < cs.length then
      .ok (.lexeme .string (cs.takeWhile (· != '"')) ((cs.takeWhile (· != '"')).length + 2))
    else .error .unterminatedString) := by
  split
  · next hlt =>
    have hread : Reads '"' cs (.ok (.lexeme .string (cs.takeWhile (· != '"')) _)) :=
      .lexeme fun y => by simp [longest_string, takeWhile_length_lt_iff.mp hlt]
    simpa [Part.text] using hread
  · next hle => exact .stop (.string (mt takeWhile_length_lt_iff.mpr hle))

theorem reads_next (c : Char) (cs : List Char) : Reads c cs (next c cs) := by
  -- the cases are those of `next`, each with the first characters that lead to it
  rw [next]
  split
  · next hspace => exact .blanks hspace
  next hspace =>
  split
  · next hline =>
    simp only [Bool.and_eq_true, decide_eq_true_eq, beq_iff_eq] at hline
    obtain ⟨rfl, hhead⟩ := hline
    obtain ⟨cs, rfl⟩ := List.head?_eq_some_iff.mp hhead
    simpa using (.comment fun _ => longest_line : Reads '/' ('/' :: cs) _)
  next hline =>
  split
  · next hblock =>
    simp only [Bool.and_eq_true, decide_eq_true_eq, beq_iff_eq] at hblock
    obtain ⟨rfl, hhead⟩ := hblock
    obtain ⟨cs, rfl⟩ := List.head?_eq_some_iff.mp hhead
    exact reads_block
  next hblock =>
  split
  · next hquote =>
    subst hquote
    exact reads_string
  next hquote =>
  split
  · next hdigit =>
    have hread : Reads c cs _ := .lexeme fun _ => longest_number hdigit
    rwa [text_lexeme (by decide)] at hread
  next hdigit =>
  split
  · next hstart =>
    have hread : Reads c cs _ := .lexeme fun _ => longest_word hstart
    rwa [text_lexeme (ofWord_ne _).1] at hread
  next hword =>
  -- all that is left are signs, and a slash that opens no comment is one of them
  refine reads_sign ⟨by simpa using hspace, hquote, by simpa using hdigit, by simpa using hword⟩ ?_
  rintro rfl d hd
  simp_all

/-! ## Uniqueness -/

/-- A part takes something. -/
theorem Heads.text_ne_nil (h : Heads cs x) : x.text ≠ [] := by
  cases h with
  | trivia ht => cases ht <;> simp [Part.text]
  | @lexeme kind value _ hl _ =>
    rw [Part.text]
    split
    · simp
    · cases hl with
      | string _ => contradiction
      | number hn => exact hn.ne_nil
      | word _ _ => simp
      | pair hk =>
        obtain ⟨c, d, hs, -⟩ := of_pair hk
        simp [hs]
      | single _ => simp

theorem Heads.ne_nil (h : Heads cs x) : cs ≠ [] :=
  fun hcs => h.text_ne_nil (List.prefix_nil.mp (hcs ▸ h.isPrefix))

/-- Where a text stops, no part begins. -/
theorem Stops.not_heads {f : Failure} (h : Stops cs f) (x : Part) : ¬ Heads cs x := by
  intro hx
  cases h with
  | @comment cs hclosed =>
    obtain ⟨n, hn, -⟩ := hx.block
    obtain ⟨ds, es, rfl, -⟩ := exists_of_commentEnd? hn
    exact hclosed ⟨ds, es, by simp⟩
  | string hquote => exact hquote hx.string.1
  | character hnone _ _ => exact hnone x hx

/-- There is at most one longest part at the head of a text. -/
theorem Longest.unique (hx : Longest cs x) (hy : Longest cs y) : x = y := by
  obtain ⟨c, cs, rfl⟩ := List.exists_cons_of_ne_nil hx.heads.ne_nil
  have hread := reads_next c cs
  generalize next c cs = result at hread
  cases hread with
  | blanks hspace => rw [(longest_blank hspace).mp hx, (longest_blank hspace).mp hy]
  | comment h => rw [(h x).mp hx, (h y).mp hy]
  | lexeme h => rw [(h x).mp hx, (h y).mp hy]
  | stop hstop => exact absurd hx.heads (hstop.not_heads x)

/-- A text stops for one reason. -/
theorem Stops.unique {f g : Failure} (hf : Stops cs f) (hg : Stops cs g) : f = g := by
  cases hf with
  | comment _ =>
    cases hg with
    | comment _ => rfl
    | character _ _ hstar => exact absurd rfl (hstar rfl)
  | string _ =>
    cases hg with
    | string _ => rfl
    | character _ hquote _ => exact absurd rfl hquote
  | character _ hquote hstar =>
    cases hg with
    | comment _ => exact absurd rfl (hstar rfl)
    | string _ => exact absurd rfl hquote
    | character _ _ _ => rfl

end Lexical

end MiniApp
