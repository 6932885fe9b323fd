import MiniApp.Proofs.Lexeme.Joining

/-!
# What stands beside a lexeme

A token of a scanned text points back to a part of the text: the characters before the part lead up
to the place of the token, and the parts behind it are the longest parts of what follows. A place
determines the characters that lead up to it. Since parts are as long as they can be, no word is
followed by a character that would go on with it, a comment to the end of its line is followed by a
line feed, and blanks with a word behind them are split into just these.

## Main results

* `Position.past_inj`: a place determines the characters before it
* `Position.past_append`: places within a line
* `Lexical.placed_eq_append_cons`: the part that a token stands for
* `Lexical.Splits.of_append_cons`: parts in the middle of a split
* `Lexical.Longest.word_stop`, `Lexical.Longest.line_stop`: what follows a word and a comment
* `Lexical.Splits.of_blanks`: blanks with a word behind them
-/

namespace MiniApp

namespace Position

theorem eq_nil_of_past_eq {before ds : List Char} (h : past before = past (before ++ ds)) :
    ds = [] := by
  by_contra hne
  exact (before_after (past before) hne).ne (by rw [after_past, h])

/-- A place in a text determines the characters that lead up to it. -/
theorem past_inj {before before' cs : List Char} (h : before <+: cs) (h' : before' <+: cs)
    (heq : past before = past before') : before = before' := by
  rcases List.prefix_or_prefix_of_prefix h h' with ⟨ds, rfl⟩ | ⟨ds, rfl⟩
  · simp [eq_nil_of_past_eq heq]
  · simp [eq_nil_of_past_eq heq.symm]

/-- Within a line, places move to the right. -/
theorem past_append {before line : List Char} (h : '\n' ∉ line) : past (before ++ line) =
    ⟨(past before).line, (past before).column + line.length⟩ := by
  have hline : ∀ c ∈ line.reverse, (c != '\n') = true := fun c hc => by
    simpa using fun heq : c = '\n' => h (heq ▸ List.mem_reverse.mp hc)
  simp only [past, List.count_append, List.count_eq_zero.mpr h, List.reverse_append,
    List.takeWhile_append_of_pos hline, List.length_append, List.length_reverse, Position.mk.injEq]
  omega

end Position

namespace Lexical

variable {c d : Char} {cs ds rest : List Char} {x : Part} {k : TokenKind} {parts ps qs : List Part}

/-- All scanned tokens are lexemes but the end marker. -/
theorem Scanned.lexed_of_mem {pos : Position} {tokens : List Token} {t : Token}
    (h : Scanned pos tokens) (ht : t ∈ tokens) (hkind : t.kind ≠ .eof) : t.Lexed := by
  obtain ⟨ts, stop, rfl, hstop, hlexed⟩ := h.lexed
  rcases List.mem_append.mp ht with hmem | hmem
  · exact hlexed t hmem
  · exact absurd (List.mem_singleton.mp hmem ▸ hstop) hkind

theorem texts_cons (x : Part) (parts : List Part) : texts (x :: parts) = x.text ++ texts parts :=
  List.flatMap_cons

/-- A token stands for a part. -/
theorem placed_eq_append_cons {before : List Char} {xs zs : List Token} {t : Token}
    (h : placed before parts = xs ++ t :: zs) :
    ∃ ps value qs, parts = ps ++ .lexeme t.kind value :: qs ∧ placed before ps = xs ∧
      t = ⟨t.kind, String.ofList value, .past (before ++ texts ps)⟩ ∧
      placed (before ++ texts ps ++ (Part.lexeme t.kind value).text) qs = zs := by
  -- blanks and comments place no token; a lexeme places the token or one before it
  induction parts generalizing before xs with
  | nil => simp [placed] at h
  | cons x parts ih =>
    cases x with
    | trivia text =>
      obtain ⟨ps, value, qs, rfl, hxs, ht, hzs⟩ := ih h
      exact ⟨.trivia text :: ps, value, qs, rfl, hxs, by simpa [texts_cons, Part.text] using ht,
        by simpa [texts_cons, Part.text] using hzs⟩
    | lexeme kind value =>
      rw [placed] at h
      cases xs with
      | nil =>
        obtain ⟨rfl, hzs⟩ := List.cons.inj h
        exact ⟨[], value, parts, rfl, rfl, by simp [texts], by simpa [texts] using hzs⟩
      | cons y xs =>
        obtain ⟨rfl, htail⟩ := List.cons.inj h
        obtain ⟨ps, value', qs, rfl, hxs, ht, hzs⟩ := ih htail
        exact ⟨.lexeme kind value :: ps, value', qs, rfl, congrArg _ hxs,
          by simpa [texts_cons] using ht, by simpa [texts_cons] using hzs⟩

/-! ## Parts in a split -/

theorem Splits.of_nil (h : Splits cs [] rest) : cs = rest := by
  cases h
  rfl

theorem Splits.of_cons (h : Splits cs (x :: parts) rest) :
    ∃ ds, cs = x.text ++ ds ∧ Longest cs x ∧ Splits ds parts rest := by
  cases h with
  | cons hx h => exact ⟨_, rfl, hx, h⟩

/-- A part in the middle of a split is the longest one at the head of what is split from there. -/
theorem Splits.of_append_cons (h : Splits cs (ps ++ x :: qs) rest) :
    ∃ ds, cs = texts ps ++ (x.text ++ ds) ∧ Longest (x.text ++ ds) x ∧ Splits ds qs rest := by
  induction ps generalizing cs with
  | nil =>
    obtain ⟨ds, rfl, hx, h⟩ := h.of_cons
    exact ⟨ds, rfl, hx, h⟩
  | cons y ps ih =>
    obtain ⟨ds, rfl, -, h⟩ := h.of_cons
    obtain ⟨es, rfl, hx, h⟩ := ih h
    exact ⟨es, by rw [texts_cons, List.append_assoc], hx, h⟩

theorem texts_concat (ps : List Part) (x : Part) : texts (ps ++ [x]) = texts ps ++ x.text := by
  simp [texts]

/-- The last of the parts that lead up to some place. -/
theorem Splits.of_concat (h : Splits (texts (ps ++ [x]) ++ cs) (ps ++ [x] ++ qs) rest) :
    Longest (x.text ++ cs) x ∧ Splits (texts ps ++ (x.text ++ cs)) (ps ++ x :: qs) rest := by
  rw [texts_concat, List.append_assoc, List.append_assoc, List.singleton_append] at h
  obtain ⟨ds, hds, hx, -⟩ := h.of_append_cons
  exact ⟨List.append_cancel_left hds ▸ hx, h⟩

/-- Where a text is used up, something of it is split off as long as something is left. -/
theorem Splits.exists_cons (h : Splits (c :: cs) parts []) : ∃ x qs, parts = x :: qs := by
  cases parts with
  | nil => exact absurd h.of_nil (List.cons_ne_nil c cs)
  | cons x qs => exact ⟨x, qs, rfl⟩

/-! ## What follows a part -/

theorem stop_of_takeWhile {p : Char → Bool} (h : (ds ++ c :: cs).takeWhile p = ds) :
    p c = false := by
  have hds : ∀ d ∈ ds, p d = true := fun d hd => List.mem_takeWhile_imp (h.symm ▸ hd)
  rw [List.takeWhile_append_of_pos hds] at h
  by_contra hc
  simp [hc] at h

/-- No word is followed by a character that would go on with it. -/
theorem Longest.word_stop (hd : isWordStart d = true)
    (h : Longest (d :: ds ++ c :: cs) (.lexeme k (d :: ds))) : isWordPart c = false := by
  have hx := (longest_word hd).mp h
  exact stop_of_takeWhile (List.cons.inj (Part.lexeme.inj hx).2).2.symm

/-- A comment to the end of its line is followed by a line feed. -/
theorem Longest.line_stop (h : Longest ('/' :: '/' :: ds ++ c :: cs) (.trivia ('/' :: '/' :: ds))) :
    c = '\n' := by
  have hx := longest_line.mp h
  have hstop := stop_of_takeWhile (List.cons.inj (List.cons.inj (Part.trivia.inj hx)).2).2.symm
  simpa using hstop

/-! ## Blanks -/

theorem toNat_le_of_isWordPart (hc : isWordPart c = true) : 0x2D ≤ c.toNat ∧ c.toNat ≤ 0x7A := by
  simp only [isWordPart, isWordStart, Text.isAsciiDigit, Bool.or_eq_true, Bool.and_eq_true,
    decide_eq_true_eq] at hc
  rcases hc with (((⟨hlo, hhi⟩ | ⟨hlo, hhi⟩) | rfl) | ⟨hlo, hhi⟩) | rfl
  case inl.inl.inl.inl | inl.inl.inl.inr | inl.inr =>
    simp only [Char.le_def, UInt32.le_iff_toNat_le] at hlo hhi
    exact ⟨hlo.trans' (by decide), hhi.trans (by decide)⟩
  all_goals decide

/-- No white space is part of a word. -/
theorem not_isBlank_of_isWordPart (hc : isWordPart c = true) : Text.isBlank c = false := by
  obtain ⟨hlo, hhi⟩ := toNat_le_of_isWordPart hc
  simp only [Text.isBlank, Text.CharSet.contains, Text.blanks, List.any_eq_false, Bool.and_eq_true,
    decide_eq_true_eq, not_and, not_le]
  have hranges : ∀ r ∈ Text.blanks.ranges, r.2 < 0x2D ∨ 0x7A < r.1 := by decide
  intro r hr hle
  have := hranges r hr
  omega

theorem isWordPart_of_isWordStart (hc : isWordStart c = true) : isWordPart c = true := by
  simp [isWordPart, hc]

/-- White space that begins a part is a part of its own. -/
theorem Heads.of_isBlank (h : Heads (c :: cs) x) (hc : Text.isBlank c = true) :
    x = .trivia [c] := by
  have hpairs : ∀ x ∈ TokenKind.pairs, x.1.toList.all (!Text.isBlank ·) = true := by decide
  have hsingles : ∀ x ∈ TokenKind.singles, Text.isBlank x.1 = false := by decide
  cases h.shape with
  | blank _ => rfl
  | line _ | block _ | string _ => exact absurd hc (by decide)
  | number hd _ => simp [not_isBlank_of_isWordPart (c := c) (by simp [isWordPart, hd])] at hc
  | word hd _ => simp [not_isBlank_of_isWordPart (isWordPart_of_isWordStart hd)] at hc
  | pair _ hk =>
    have hblank := List.all_eq_true.mp (hpairs _ hk) c (by simp)
    simp [hc] at hblank
  | single _ hk _ => simp [hsingles _ hk] at hc

/-- Blanks with a word behind them are split into just these. -/
theorem Splits.of_blanks {ws : List Char} (hws : ∀ w ∈ ws, Text.isBlank w = true)
    (hd : isWordStart d = true) (h : Splits (ws ++ d :: cs) parts []) :
    ∃ qs, parts = blanks ws ++ .lexeme (.ofWord (String.ofList (d :: cs.takeWhile isWordPart)))
      (d :: cs.takeWhile isWordPart) :: qs := by
  induction ws generalizing parts with
  | nil =>
    obtain ⟨x, qs, rfl⟩ := h.exists_cons
    obtain ⟨_, -, hx, -⟩ := h.of_cons
    exact ⟨qs, by rw [(longest_word hd).mp hx]; rfl⟩
  | cons w ws ih =>
    obtain ⟨hw, hws⟩ := List.forall_mem_cons.mp hws
    obtain ⟨x, qs, rfl⟩ := h.exists_cons
    obtain ⟨ds, hds, hx, h⟩ := h.of_cons
    obtain rfl := hx.heads.of_isBlank hw
    obtain ⟨-, rfl⟩ := List.cons.inj hds
    obtain ⟨qs', rfl⟩ := ih hws h
    exact ⟨qs', rfl⟩

/-- The first token of what begins with blanks and a word is that word. -/
theorem Splits.first_token {before ws : List Char} {t : Token} {ts : List Token}
    (h : Splits (ws ++ d :: cs) parts []) (hws : ∀ w ∈ ws, Text.isBlank w = true)
    (hd : isWordStart d = true) (hplaced : placed before parts = t :: ts) :
    t.pos = .past (before ++ ws) ∧ t.text.toList = d :: cs.takeWhile isWordPart := by
  obtain ⟨qs, rfl⟩ := h.of_blanks hws hd
  rw [placed_blanks_append, placed] at hplaced
  obtain ⟨rfl, -⟩ := List.cons.inj hplaced
  exact ⟨rfl, String.toList_ofList⟩

end Lexical

end MiniApp
