import MiniApp.Token.Scan
import Mathlib.Data.List.TakeWhile
import Mathlib.Tactic.Common

/-!
# Lexemes

What the tokens of a text can be. `Lexeme kind text` lists the lexemes of the language: strings
without quotes, numerals, words and signs, each with the text that its token carries. Every token
that scanning makes, the end marker apart, is a lexeme, and the end marker stands at the end and
nowhere else.

## Main definitions

* `Lexical.Lexeme`: the lexemes with their kinds
* `Token.Lexed`: a token that carries a lexeme

## Main results

* `Lexical.proper_of_next`: the head of a text is a lexeme or is skipped
* `Token.scanned_scan`: scanned tokens are lexemes and one end marker, in source order
-/

namespace MiniApp

namespace Lexical

/-- Digits, perhaps followed by a point and more digits. -/
inductive Numeral : List Char → Prop
  | whole {ds : List Char} : ds ≠ [] → (∀ d ∈ ds, Text.isAsciiDigit d = true) → Numeral ds
  | fraction {ds es : List Char} :
      ds ≠ [] → (∀ d ∈ ds, Text.isAsciiDigit d = true) →
      es ≠ [] → (∀ e ∈ es, Text.isAsciiDigit e = true) → Numeral (ds ++ '.' :: es)

/-- The lexemes of the language: the kind and the text of their tokens. -/
inductive Lexeme : TokenKind → List Char → Prop
  | string {cs : List Char} : '"' ∉ cs → Lexeme .string cs
  | number {cs : List Char} : Numeral cs → Lexeme .number cs
  | word {c : Char} {cs : List Char} :
      isWordStart c = true → (∀ d ∈ cs, isWordPart d = true) →
      Lexeme (.ofWord (String.ofList (c :: cs))) (c :: cs)
  | pair {s : String} {k : TokenKind} : (s, k) ∈ TokenKind.pairs → Lexeme k s.toList
  | single {c : Char} {k : TokenKind} : (c, k) ∈ TokenKind.singles → Lexeme k [c]

theorem takeWhile_ne_nil {p : Char → Bool} {c : Char} {cs : List Char} (h : p c = true) :
    (c :: cs).takeWhile p ≠ [] := by
  simp [h]

/-- The text of a number at the head of a text is a numeral. -/
theorem numeral_numberText {c : Char} {cs : List Char} (h : Text.isAsciiDigit c = true) :
    Numeral (numberText (c :: cs)) := by
  have hwhole : ∀ d ∈ (c :: cs).takeWhile Text.isAsciiDigit, Text.isAsciiDigit d = true :=
    fun _ hd => List.mem_takeWhile_imp hd
  rw [numberText]
  split
  · split
    · next d rest _ hd =>
      exact .fraction (takeWhile_ne_nil h) hwhole (takeWhile_ne_nil hd)
        fun _ he => List.mem_takeWhile_imp he
    · exact .whole (takeWhile_ne_nil h) hwhole
  · exact .whole (takeWhile_ne_nil h) hwhole

theorem mem_of_lookup {α β : Type} [BEq α] [LawfulBEq α] {a : α} {b : β} {l : List (α × β)}
    (h : l.lookup a = some b) : (a, b) ∈ l := by
  obtain ⟨l₁, l₂, rfl, -⟩ := List.lookup_eq_some_iff.mp h
  simp

theorem Numeral.ne_nil {cs : List Char} (h : Numeral cs) : cs ≠ [] := by
  cases h with
  | whole hne _ => exact hne
  | fraction => simp

/-- A piece that takes something, and is a lexeme unless it is skipped. -/
inductive Piece.Proper : Piece → Prop
  | skip {n : Nat} : 0 < n → Proper (.skip n)
  | lexeme {k : TokenKind} {text : List Char} {n : Nat} :
      Lexeme k text → 0 < n → Proper (.lexeme k text n)

theorem proper_of_sign {c : Char} {cs : List Char} {piece : Piece}
    (h : sign c cs = .ok piece) : piece.Proper := by
  rw [sign] at h
  split at h
  · next k hk =>
    obtain rfl := Except.ok.inj h
    have hpair := Lexeme.pair (mem_of_lookup hk)
    rw [String.toList_ofList] at hpair
    exact .lexeme hpair (by decide)
  · split at h
    · next k hk =>
      obtain rfl := Except.ok.inj h
      exact .lexeme (.single (mem_of_lookup hk)) (by decide)
    · cases h

/-- The head of a text is a lexeme or is skipped. -/
theorem proper_of_next {c : Char} {cs : List Char} {piece : Piece}
    (h : next c cs = .ok piece) : piece.Proper := by
  rw [next] at h
  -- blanks and the two kinds of comment
  split at h
  · obtain rfl := Except.ok.inj h
    exact .skip (Nat.succ_pos _)
  split at h
  · obtain rfl := Except.ok.inj h
    exact .skip (Nat.succ_pos _)
  split at h
  · split at h
    · obtain rfl := Except.ok.inj h
      exact .skip (Nat.succ_pos _)
    · cases h
  -- a string, if it is closed
  split at h
  · dsimp only at h
    split at h
    · obtain rfl := Except.ok.inj h
      have hquote : '"' ∉ cs.takeWhile (· != '"') := fun hmem => by
        simpa using List.mem_takeWhile_imp hmem
      exact .lexeme (.string hquote) (Nat.succ_pos _)
    · cases h
  split at h
  · next hdigit =>
    obtain rfl := Except.ok.inj h
    have hnumeral : Numeral (numberText (c :: cs)) := numeral_numberText hdigit
    exact .lexeme (.number hnumeral) (List.length_pos_iff.mpr hnumeral.ne_nil)
  split at h
  · next hstart =>
    obtain rfl := Except.ok.inj h
    exact .lexeme (.word hstart fun _ hd => List.mem_takeWhile_imp hd) (Nat.succ_pos _)
  · exact proper_of_sign h

theorem Piece.Proper.length_pos {piece : Piece} (h : piece.Proper) : 0 < piece.length := by
  cases h with
  | skip hn => exact hn
  | lexeme _ hn => exact hn

theorem Numeral.digit_head {c : Char} {cs : List Char} (h : Numeral (c :: cs)) :
    Text.isAsciiDigit c = true := by
  generalize hx : c :: cs = xs at h
  cases h with
  | whole _ hdigits => exact hdigits c (hx ▸ List.mem_cons_self)
  | @fraction ds es hne hdigits _ _ =>
    obtain ⟨d, ds', rfl⟩ := List.exists_cons_of_ne_nil hne
    obtain ⟨rfl, -⟩ := List.cons.inj hx
    exact hdigits c List.mem_cons_self

/-- A word is an identifier or one of the listed words. -/
theorem ofWord_cases (s : String) :
    TokenKind.ofWord s = .identifier ∨ (s, TokenKind.ofWord s) ∈ TokenKind.words := by
  rw [TokenKind.ofWord]
  cases hw : TokenKind.words.lookup s with
  | none => exact .inl rfl
  | some k => exact .inr (mem_of_lookup hw)

/-- The kinds of the words, pairs and single signs that are listed. -/
def listedKinds : List TokenKind :=
  TokenKind.words.map (·.2) ++ TokenKind.pairs.map (·.2) ++ TokenKind.singles.map (·.2)

/-- A lexeme is a string, a numeral, a name or something listed. -/
theorem Lexeme.shape {k : TokenKind} {cs : List Char} (h : Lexeme k cs) :
    k = .string ∧ '"' ∉ cs ∨ k = .number ∧ Numeral cs ∨
      (k = .identifier ∧ TokenKind.ofWord (String.ofList cs) = .identifier ∧
        ∃ c ds, cs = c :: ds ∧ isWordStart c = true ∧ ∀ d ∈ ds, isWordPart d = true) ∨
      k ∈ listedKinds := by
  cases h with
  | string h => exact .inl ⟨rfl, h⟩
  | number h => exact .inr (.inl ⟨rfl, h⟩)
  | @word c cs hstart hpart =>
    rcases ofWord_cases (String.ofList (c :: cs)) with heq | hmem
    · exact .inr (.inr (.inl ⟨heq, heq, c, cs, rfl, hstart, hpart⟩))
    · refine .inr (.inr (.inr ?_))
      simp only [listedKinds, List.mem_append, List.mem_map]
      exact .inl (.inl ⟨_, hmem, rfl⟩)
  | pair hmem =>
    refine .inr (.inr (.inr ?_))
    simp only [listedKinds, List.mem_append, List.mem_map]
    exact .inl (.inr ⟨_, hmem, rfl⟩)
  | single hmem =>
    refine .inr (.inr (.inr ?_))
    simp only [listedKinds, List.mem_append, List.mem_map]
    exact .inr ⟨_, hmem, rfl⟩

theorem Lexeme.kind_ne_eof {k : TokenKind} {cs : List Char} (h : Lexeme k cs) : k ≠ .eof := by
  have hlisted : ∀ k ∈ listedKinds, k ≠ .eof := by decide
  rcases h.shape with ⟨rfl, -⟩ | ⟨rfl, -⟩ | ⟨rfl, -⟩ | hmem
  · decide
  · decide
  · decide
  · exact hlisted k hmem

theorem Lexeme.name {cs : List Char} (h : Lexeme .identifier cs) :
    TokenKind.ofWord (String.ofList cs) = .identifier ∧
      ∃ c ds, cs = c :: ds ∧ isWordStart c = true ∧ ∀ d ∈ ds, isWordPart d = true := by
  have hlisted : TokenKind.identifier ∉ listedKinds := by decide
  rcases h.shape with ⟨hk, -⟩ | ⟨hk, -⟩ | ⟨-, hname⟩ | hmem
  · cases hk
  · cases hk
  · exact hname
  · exact absurd hmem hlisted

theorem Lexeme.unquoted {cs : List Char} (h : Lexeme .string cs) : '"' ∉ cs := by
  have hlisted : TokenKind.string ∉ listedKinds := by decide
  rcases h.shape with ⟨-, hquote⟩ | ⟨hk, -⟩ | ⟨hk, -⟩ | hmem
  · exact hquote
  · cases hk
  · cases hk
  · exact absurd hmem hlisted

theorem Lexeme.numeral {cs : List Char} (h : Lexeme .number cs) : Numeral cs := by
  have hlisted : TokenKind.number ∉ listedKinds := by decide
  rcases h.shape with ⟨hk, -⟩ | ⟨-, hnum⟩ | ⟨hk, -⟩ | hmem
  · cases hk
  · exact hnum
  · cases hk
  · exact absurd hmem hlisted

/-- A lexeme whose kind has a fixed spelling is spelled that way. -/
theorem Lexeme.spelling {k : TokenKind} {cs : List Char} {s : String} (h : Lexeme k cs)
    (hk : k.spelling? = some s) : String.ofList cs = s := by
  -- the tables of words and signs spell their kinds as the table of spellings does
  have hwords : ∀ x ∈ TokenKind.words, ∀ s ∈ x.2.spelling?, s = x.1 := by decide
  have hpairs : ∀ x ∈ TokenKind.pairs, ∀ s ∈ x.2.spelling?, s = x.1 := by decide
  have hsingles : ∀ x ∈ TokenKind.singles, ∀ s ∈ x.2.spelling?, s = String.singleton x.1 := by
    decide
  cases h with
  | string | number => simp [TokenKind.spelling?] at hk
  | @word c cs _ _ =>
    rcases ofWord_cases (String.ofList (c :: cs)) with heq | hmem
    · rw [heq] at hk
      simp [TokenKind.spelling?] at hk
    · exact (hwords _ hmem s hk).symm
  | pair hmem =>
    rw [String.ofList_toList]
    exact (hpairs _ hmem s hk).symm
  | single hmem => exact (hsingles _ hmem s hk).symm

end Lexical

namespace Position

/-- Source order of positions. -/
def Before (p q : Position) : Prop := p.line < q.line ∨ p.line = q.line ∧ p.column < q.column

theorem Before.trans {p q r : Position} (h : p.Before q) (h' : q.Before r) : p.Before r := by
  unfold Before at *
  omega

theorem Before.ne {p q : Position} (h : p.Before q) : p ≠ q := by
  rintro rfl
  unfold Before at h
  omega

theorem before_step (p : Position) (c : Char) : p.Before (p.step c) := by
  unfold Before step
  split <;> simp

/-- Reading characters moves forward. -/
theorem before_after (p : Position) {cs : List Char} (h : cs ≠ []) : p.Before (p.after cs) := by
  induction cs generalizing p with
  | nil => exact absurd rfl h
  | cons c cs ih =>
    rw [after_cons]
    cases cs with
    | nil => exact before_step p c
    | cons d ds => exact (before_step p c).trans (ih (p.step c) (by simp))

end Position

/-- A token that carries a lexeme. -/
def Token.Lexed (t : Token) : Prop := Lexical.Lexeme t.kind t.text.toList

theorem Token.Lexed.lexeme {t : Token} {k : TokenKind} (h : t.Lexed) (hk : t.kind = k) :
    Lexical.Lexeme k t.text.toList := by
  rwa [Lexed, hk] at h

/-- A token whose kind has a fixed spelling carries that spelling. -/
theorem Token.Lexed.text_eq {t : Token} {s : String} (h : t.Lexed)
    (hk : t.kind.spelling? = some s) : t.text = s := by
  rw [← Lexical.Lexeme.spelling h hk, String.ofList_toList]

namespace Lexical

/-- What scanning from a position makes: lexemes and one end marker, in source order, none of them
before that position. -/
structure Scanned (pos : Position) (tokens : List Token) : Prop where
  lexed : ∃ ts stop, tokens = ts ++ [stop] ∧ stop.kind = .eof ∧ ∀ t ∈ ts, t.Lexed
  ordered : tokens.Pairwise fun t u => t.pos.Before u.pos
  reached : ∀ t ∈ tokens, pos = t.pos ∨ pos.Before t.pos

theorem Scanned.stop (pos : Position) (text : String) : Scanned pos [⟨.eof, text, pos⟩] where
  lexed := ⟨[], _, rfl, rfl, by simp⟩
  ordered := by simp
  reached := by simp

theorem Scanned.before {pos pos' : Position} {tokens : List Token} (h : Scanned pos' tokens)
    (hlt : pos.Before pos') : ∀ t ∈ tokens, pos.Before t.pos := by
  intro t ht
  rcases h.reached t ht with heq | hbefore
  · exact heq ▸ hlt
  · exact hlt.trans hbefore

theorem Scanned.cons {pos pos' : Position} {t : Token} {tokens : List Token}
    (h : Scanned pos' tokens) (hlt : pos.Before pos') (hpos : t.pos = pos) (ht : t.Lexed) :
    Scanned pos (t :: tokens) := by
  obtain ⟨ts, stop, rfl, hstop, hlexed⟩ := h.lexed
  refine ⟨⟨t :: ts, stop, rfl, hstop, ?_⟩, ?_, ?_⟩
  · intro u hu
    rcases List.mem_cons.mp hu with rfl | hmem
    · exact ht
    · exact hlexed u hmem
  · refine List.pairwise_cons.mpr ⟨?_, h.ordered⟩
    rw [hpos]
    exact h.before hlt
  · intro u hu
    rcases List.mem_cons.mp hu with rfl | hmem
    · exact .inl hpos.symm
    · exact .inr (h.before hlt u hmem)

theorem scanned_scanFrom {fuel : Nat} {pos : Position} {cs : List Char} {tokens : List Token}
    (h : scanFrom fuel pos cs = .ok tokens) : Scanned pos tokens := by
  -- the rounds of the scanner, each from the place that the one before has reached
  induction fuel generalizing pos cs tokens with
  | zero =>
    cases cs <;> obtain rfl := Except.ok.inj h <;> exact .stop pos ""
  | succ fuel ih =>
    cases cs with
    | nil =>
      obtain rfl := Except.ok.inj h
      exact .stop pos ""
    | cons c cs =>
      rw [scanFrom] at h
      split at h
      · simp at h
      · next piece hnext =>
        have hproper := proper_of_next hnext
        -- a piece takes something, so what follows it stands further on
        have hlt : pos.Before (pos.after ((c :: cs).take piece.length)) := by
          apply pos.before_after
          intro hnil
          have := hproper.length_pos
          rw [List.take_eq_nil_iff] at hnil
          simp at hnil
          omega
        dsimp only at h
        split at h
        · next kind text n tokens' hrest =>
          obtain rfl := Except.ok.inj h
          apply (ih hrest).cons hlt rfl
          rw [Token.Lexed, String.toList_ofList]
          cases hproper with
          | lexeme hlexeme _ => exact hlexeme
        -- a skipped piece leaves the tokens behind it as they are
        · next n =>
          have hrest := ih h
          exact ⟨hrest.lexed, hrest.ordered, fun t ht => .inr (hrest.before hlt t ht)⟩
        · simp at h

end Lexical

/-- Scanned tokens are lexemes and one end marker, in source order. -/
theorem Token.scanned_scan {path source : String} {tokens : List Token}
    (h : Token.scan path source = .ok tokens) : Lexical.Scanned .start tokens := by
  rw [Token.scan] at h
  split at h
  · next heq =>
    obtain rfl := Except.ok.inj h
    exact Lexical.scanned_scanFrom heq
  · simp at h

end MiniApp
