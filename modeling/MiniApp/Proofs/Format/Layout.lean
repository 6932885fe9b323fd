import MiniApp.Proofs.Numeral

/-!
# Texts laid out from lexemes

A text is laid out from a list of lexemes when it is made of them in order, with white space where
it stands between them, and no lexeme runs into what follows it. Such a text is scanned as exactly
these lexemes. Layouts are built from their end: what stands in front is added to a layout that
begins with a character at which words and numerals end.

## Main definitions

* `Token.lexeme`: a token without its place
* `Lexical.Layout`: a text laid out from lexemes
* `Lexical.Boundary`: texts before which a word or a numeral ends

## Main results

* `Token.scan_of_layout`: a laid out text is scanned as the lexemes it is laid out from
-/

namespace MiniApp

/-- The kind and the text of a token, without its place. -/
def Token.lexeme (t : Token) : TokenKind × String := (t.kind, t.text)

namespace Lexical

/-- `Layout cs ls`: the text `cs` is laid out from the lexemes `ls`. -/
inductive Layout : List Char → List (TokenKind × String) → Prop
  | nil : Layout [] []
  | space {c : Char} {cs : List Char} {ls : List (TokenKind × String)} :
      isSpace c = true → Layout cs ls → Layout (c :: cs) ls
  | lexeme {c : Char} {cs text : List Char} {ls : List (TokenKind × String)} {k : TokenKind}
      {n : Nat} :
      next c cs = .ok (.lexeme k text n) → Layout ((c :: cs).drop n) ls →
      Layout (c :: cs) ((k, String.ofList text) :: ls)

/-- Texts before which a word or a numeral ends. -/
def Boundary (cs : List Char) : Prop := ∀ c ∈ cs.head?, isWordPart c = false ∧ c ≠ '.'

variable {cs : List Char} {ls : List (TokenKind × String)} {c : Char}

/-! ## Adding in front -/

theorem Layout.spaces (h : Layout cs ls) {ws : List Char} (hws : ∀ c ∈ ws, isSpace c = true) :
    Layout (ws ++ cs) ls := by
  induction ws with
  | nil => exact h
  | cons c ws ih =>
    exact .space (hws c List.mem_cons_self) (ih fun d hd => hws d (List.mem_cons_of_mem _ hd))

theorem takeWhile_append_boundary {p : Char → Bool} {ws : List Char} (hws : ∀ c ∈ ws, p c = true)
    (hcs : ∀ c ∈ cs.head?, p c = false) : (ws ++ cs).takeWhile p = ws := by
  rw [List.takeWhile_append_of_pos hws]
  cases cs with
  | nil => simp
  | cons c cs => simp [hcs c rfl]

theorem Boundary.not_part (h : Boundary cs) : ∀ c ∈ cs.head?, isWordPart c = false :=
  fun c hc => (h c hc).1

theorem Boundary.not_digit (h : Boundary cs) : ∀ c ∈ cs.head?, Text.isAsciiDigit c = false := by
  intro c hc
  have := (h c hc).1
  simp only [isWordPart, Bool.or_eq_false_iff] at this
  exact this.1.2

theorem isSpace_cases (h : isSpace c = true) : c ∈ [' ', '\t', '\r', '\n'] := by
  simpa [isSpace, or_assoc] using h

/-- The start of a word begins no other piece. -/
theorem next_of_wordStart (h : isWordStart c = true) :
    next c cs = .ok (.lexeme (.ofWord (String.ofList (c :: cs.takeWhile isWordPart)))
      (c :: cs.takeWhile isWordPart) (c :: cs.takeWhile isWordPart).length) := by
  have hspace : isSpace c = false := by
    apply Bool.eq_false_iff.mpr
    intro hc
    have hall : ∀ c ∈ [' ', '\t', '\r', '\n'], isWordStart c = false :=
      List.all_iff_forall_prop.mp (by decide)
    simp [hall c (isSpace_cases hc)] at h
  have hdigit : Text.isAsciiDigit c = false := by
    apply Bool.eq_false_iff.mpr
    intro hc
    have hstart : isWordStart c = false := Text.of_digit c (by decide) hc
    simp [hstart] at h
  have hslash : c ≠ '/' := by
    rintro rfl
    simp [isWordStart] at h
  have hquote : c ≠ '"' := by
    rintro rfl
    simp [isWordStart] at h
  simp [next, hspace, hdigit, hslash, hquote, h]

/-- A digit begins a numeral. -/
theorem next_of_digit (h : Text.isAsciiDigit c = true) :
    next c cs = .ok (.lexeme .number (numberText (c :: cs)) (numberText (c :: cs)).length) := by
  obtain ⟨hspace, hslash, hquote⟩ : isSpace c = false ∧ c ≠ '/' ∧ c ≠ '"' :=
    Text.of_digit c (by decide) h
  simp [next, hspace, hslash, hquote, h]

/-- Put a lexeme in front that is read as such. -/
theorem Layout.of_next (h : Layout cs ls) {w : String} {ds : List Char} {k : TokenKind}
    (hnext : next c (ds ++ cs) = .ok (.lexeme k w.toList (c :: ds).length)) :
    Layout (c :: (ds ++ cs)) ((k, w) :: ls) := by
  -- lexemes are lists of characters, tokens carry strings
  have hlayout : Layout (c :: (ds ++ cs)) ((k, String.ofList w.toList) :: ls) :=
    .lexeme hnext (by simpa using h)
  rwa [String.ofList_toList] at hlayout

theorem Layout.word (h : Layout cs ls) (hcs : Boundary cs) {w : String} {ds : List Char}
    (hw : w.toList = c :: ds) (hstart : isWordStart c = true)
    (hpart : ∀ d ∈ ds, isWordPart d = true) :
    Layout (w.toList ++ cs) ((.ofWord w, w) :: ls) := by
  have hnext : next c (ds ++ cs) = _ := next_of_wordStart hstart
  rw [takeWhile_append_boundary hpart hcs.not_part, ← hw, String.ofList_toList, hw] at hnext
  rw [hw]
  exact h.of_next (hw ▸ hnext)

theorem numberText_of_numeral {ws : List Char} (hw : Numeral ws) (hcs : Boundary cs) :
    numberText (ws ++ cs) = ws := by
  cases hw with
  | whole hne hdigits =>
    have htake := takeWhile_append_boundary hdigits hcs.not_digit
    simp only [numberText, htake, List.drop_left]
    split
    -- a point behind the digits would make them a fraction, but none stands there
    · next d rest =>
      exact absurd rfl (hcs '.' rfl).2
    · rfl
  | @fraction ds es hds hdigits hes hdigits' =>
    obtain ⟨e, es', rfl⟩ := List.exists_cons_of_ne_nil hes
    have hpoint : ∀ c ∈ ('.' :: (e :: es') ++ cs).head?, Text.isAsciiDigit c = false := by
      simp [Text.isAsciiDigit]
    have htake := takeWhile_append_boundary hdigits hpoint
    have htake' := takeWhile_append_boundary hdigits' hcs.not_digit
    simp only [numberText, List.append_assoc, List.cons_append] at htake htake' ⊢
    simp only [htake, List.drop_left, hdigits' e List.mem_cons_self, if_true, htake']

theorem Layout.numeral (h : Layout cs ls) (hcs : Boundary cs) {w : String}
    (hw : Numeral w.toList) : Layout (w.toList ++ cs) ((.number, w) :: ls) := by
  obtain ⟨c, ds, hcons, hdigit⟩ : ∃ c ds, w.toList = c :: ds ∧ Text.isAsciiDigit c = true := by
    obtain ⟨c, ds, hcons⟩ := List.exists_cons_of_ne_nil hw.ne_nil
    exact ⟨c, ds, hcons, Numeral.digit_head (hcons ▸ hw)⟩
  have hnext : next c (ds ++ cs) = _ := next_of_digit hdigit
  rw [← List.cons_append, ← hcons, numberText_of_numeral hw hcs] at hnext
  rw [hcons]
  exact h.of_next (hcons ▸ hnext)

theorem Layout.string (h : Layout cs ls) {w : String} (hw : '"' ∉ w.toList) :
    Layout ('"' :: (w.toList ++ '"' :: cs)) ((.string, w) :: ls) := by
  have htake : (w.toList ++ '"' :: cs).takeWhile (· != '"') = w.toList := by
    refine takeWhile_append_boundary (fun c hc => ?_) (by simp)
    simpa using fun heq : c = '"' => hw (heq ▸ hc)
  have hnext : next '"' (w.toList ++ '"' :: cs) =
      .ok (.lexeme .string w.toList (w.toList.length + 2)) := by
    simp [next, isSpace, htake]
  have hlayout : Layout _ ((.string, String.ofList w.toList) :: ls) :=
    .lexeme hnext (by simpa using h)
  rwa [String.ofList_toList] at hlayout

/-- The signs that are the start of nothing longer, with their kinds and texts. -/
def punctuators : List (Char × TokenKind × String) := [
  ('(', .lparen, "("), (')', .rparen, ")"), ('\x7b', .lbrace, "\x7b"), ('\x7d', .rbrace, "\x7d"),
  (',', .comma, ","), (';', .semicolon, ";"), (':', .colon, ":"), ('@', .at, "@"),
  ('-', .minus, "-")]

theorem lookup_pairs_eq_none {ds : List Char} (hc : c ∉ ['=', '!', '<', '>', '&', '|']) :
    TokenKind.pairs.lookup (String.ofList (c :: ds)) = none := by
  -- the first characters of all signs of two characters
  have hheads : ∀ x ∈ TokenKind.pairs,
      x.1.toList.head?.all (· ∈ ['=', '!', '<', '>', '&', '|']) = true := by decide
  rw [List.lookup_eq_none_iff]
  intro x hx
  simp only [bne_iff_ne]
  intro heq
  have hhead := hheads x hx
  rw [← heq, String.toList_ofList] at hhead
  exact hc (of_decide_eq_true hhead)

theorem Layout.punctuator (h : Layout cs ls) {k : TokenKind} {w : String}
    (hc : punctuators.lookup c = some (k, w)) : Layout (c :: cs) ((k, w) :: ls) := by
  have hall : ∀ x ∈ punctuators, x.1 ∉ ['=', '!', '<', '>', '&', '|'] ∧ x.1 ≠ '/' ∧ x.1 ≠ '"' ∧
      isSpace x.1 = false ∧ Text.isAsciiDigit x.1 = false ∧ isWordStart x.1 = false ∧
      TokenKind.singles.lookup x.1 = some x.2.1 ∧ x.2.2.toList = [x.1] := by decide
  obtain ⟨hpair, hslash, hquote, hspace, hdigit, hword, hsingle, htext⟩ :=
    hall _ (mem_of_lookup hc)
  have hnext : next c cs = .ok (.lexeme k w.toList 1) := by
    rw [next, if_neg (by simp [hspace]), if_neg (by simp [hslash]), if_neg (by simp [hslash]),
      if_neg hquote, if_neg (by simp [hdigit]), if_neg (by simp [hword]), sign,
      lookup_pairs_eq_none hpair, hsingle, htext]
  exact (h.of_next hnext : Layout (c :: ([] ++ cs)) _)

/-- A sign of negation stands before anything but an equals sign. -/
theorem Layout.not (h : Layout cs ls) (hcs : cs.head? ≠ some '=') :
    Layout ('!' :: cs) ((.not, "!") :: ls) := by
  have hpair : TokenKind.pairs.lookup (String.ofList ('!' :: cs.take 1)) = none := by
    -- the only longer sign that begins like this one
    have hall : ∀ x ∈ TokenKind.pairs, x.1.toList.head? = some '!' → x.1.toList = ['!', '='] := by
      decide
    rw [List.lookup_eq_none_iff]
    intro x hx
    simp only [bne_iff_ne]
    intro heq
    apply hcs
    have htail := hall x hx (by rw [← heq, String.toList_ofList]; rfl)
    rw [← heq, String.toList_ofList] at htail
    cases cs with
    | nil => simp at htail
    | cons d ds => simpa using htail
  have hnext : next '!' cs = .ok (.lexeme .not ['!'] 1) := by
    simp only [next, sign, hpair]
    rfl
  exact .lexeme hnext h

/-! ## Scanning -/

theorem next_of_space (h : isSpace c = true) :
    next c cs = .ok (.skip (cs.takeWhile isSpace).length.succ) := by
  simp [next, h]

theorem Layout.dropSpaces (h : Layout cs ls) : Layout (cs.dropWhile isSpace) ls := by
  induction h with
  | nil => exact .nil
  | space hc _ ih => simpa [hc] using ih
  | @lexeme c cs text ls k n hnext h _ =>
    have hc : isSpace c = false := by
      apply Bool.eq_false_iff.mpr
      intro hc
      simp [next_of_space hc] at hnext
    simpa [hc] using Layout.lexeme hnext h

/-- A laid out text is scanned as the lexemes it is laid out from. -/
theorem Layout.scanFrom {fuel : Nat} (h : Layout cs ls) (pos : Position)
    (hfuel : cs.length ≤ fuel) : ∃ ts stop, Lexical.scanFrom fuel pos cs = .ok (ts ++ [stop]) ∧
      ts.map Token.lexeme = ls ∧ stop.kind = .eof := by
  -- on the rounds of the scanner: it skips a whole run of spaces in one of them
  induction fuel generalizing pos cs ls with
  | zero =>
    obtain rfl : cs = [] := List.length_eq_zero_iff.mp (Nat.le_zero.mp hfuel)
    cases h
    exact ⟨[], _, rfl, rfl, rfl⟩
  | succ fuel ih =>
    cases h with
    | nil => exact ⟨[], _, rfl, rfl, rfl⟩
    | @space c cs _ hc h =>
      have hdrop : (c :: cs).drop (cs.takeWhile isSpace).length.succ = cs.dropWhile isSpace := by
        rw [Nat.succ_eq_add_one, List.drop_succ_cons]
        calc cs.drop (cs.takeWhile isSpace).length
            = (cs.takeWhile isSpace ++ cs.dropWhile isSpace).drop (cs.takeWhile isSpace).length := by
              rw [List.takeWhile_append_dropWhile]
          _ = cs.dropWhile isSpace := List.drop_left
      have hlen : (cs.dropWhile isSpace).length ≤ fuel := by
        have := (List.dropWhile_sublist isSpace (l := cs)).length_le
        simp at hfuel
        omega
      rw [Lexical.scanFrom, next_of_space hc]
      simp only [Piece.length, hdrop]
      exact ih h.dropSpaces _ hlen
    | @lexeme c cs text ls k n hnext h =>
      have hpos : 0 < n := (proper_of_next hnext).length_pos
      have hlen : ((c :: cs).drop n).length ≤ fuel := by
        simp only [List.length_drop, List.length_cons] at hfuel ⊢
        omega
      obtain ⟨ts, stop, hscan, hts, hstop⟩ := ih h (pos.after ((c :: cs).take n)) hlen
      refine ⟨⟨k, String.ofList text, pos⟩ :: ts, stop, ?_, by simp [hts, Token.lexeme], hstop⟩
      rw [Lexical.scanFrom, hnext]
      simp only [Piece.length, hscan, List.cons_append]

end Lexical

theorem Token.scan_of_layout {source : String} {ls : List (TokenKind × String)}
    (h : Lexical.Layout source.toList ls) (path : String) :
    ∃ ts stop, Token.scan path source = .ok (ts ++ [stop]) ∧ ts.map Token.lexeme = ls ∧
      stop.kind = .eof := by
  obtain ⟨ts, stop, hscan, hts, hstop⟩ := h.scanFrom .start le_rfl
  refine ⟨ts, stop, ?_, hts, hstop⟩
  rw [Token.scan, hscan]

end MiniApp
