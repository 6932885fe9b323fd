import MiniApp.Proofs.Grammar.Relocation
import MiniApp.Proofs.Lexeme.Separation

/-!
# Scanning one text below another

Where a text that is scanned to its end is followed by a line feed and another text, nothing of the
first text reaches into the second: a line feed ends words, numbers and comments, and strings are
closed. The tokens are those of the first text and then those of the second, which stand as many
lines lower as the first text takes up, and in the same columns. What stops the scanning of the
second text alone stops it there too.

## Main definitions

* `Position.below`: a place so many lines lower

## Main results

* `Lexical.Splits.append_line_feed`: splits are put together at a line feed
* `Token.scan_append_line_feed`, `Token.scan_append_line_feed_error`: so are scanned texts
-/

namespace MiniApp

namespace Position

/-- The place in the same column that is `n` lines lower. -/
def below (n : Nat) (p : Position) : Position := ⟨p.line + n, p.column⟩

/-- The lines that a text takes up when a line feed follows it. -/
theorem past_append_line_feed (before cs : List Char) :
    past (before ++ '\n' :: cs) = (past cs).below (1 + before.count '\n') := by
  have hcolumn : ((before ++ '\n' :: cs).reverse.takeWhile (· != '\n')) =
      cs.reverse.takeWhile (· != '\n') := by
    rw [List.reverse_append, List.reverse_cons, List.append_assoc, List.singleton_append]
    exact Lexical.takeWhile_append_stop (by decide) _ _
  simp only [past, below, hcolumn, List.count_append, List.count_cons_self, Position.mk.injEq,
    and_true]
  omega

end Position

namespace Lexical

variable {cs ds rest : List Char} {ps qs : List Part}

/-- A split that uses up its text is followed by the split of what stands behind a line feed. -/
theorem Splits.append_line_feed (h : Splits cs ps []) (hds : Splits ds qs rest) :
    Splits (cs ++ '\n' :: ds) (ps ++ .trivia ['\n'] :: qs) rest := by
  generalize hnil : ([] : List Char) = left at h
  induction h with
  | nil =>
    subst hnil
    exact hds.blank rfl
  | @cons x cs left parts hx _ ih =>
    rw [List.append_assoc]
    refine .cons ?_ (ih hnil)
    rw [← List.append_assoc]
    exact hx.append_blank rfl fun _ _ => rfl

theorem texts_append (ps qs : List Part) : texts (ps ++ qs) = texts ps ++ texts qs :=
  List.flatMap_append

theorem placed_append (before : List Char) (ps qs : List Part) :
    placed before (ps ++ qs) = placed before ps ++ placed (before ++ texts ps) qs := by
  induction ps generalizing before with
  | nil => simp [placed, texts]
  | cons x ps ih =>
    cases x with
    | trivia text => simp [placed, ih, texts, Part.text]
    | lexeme kind value => simp [placed, ih, texts]

/-- Below a text, tokens stand as many lines lower. -/
theorem placed_append_line_feed (before cs : List Char) (ps : List Part) :
    placed (before ++ '\n' :: cs) ps =
      (placed cs ps).map (Token.relocate (.below (1 + before.count '\n'))) := by
  induction ps generalizing cs with
  | nil => rfl
  | cons x ps ih =>
    cases x with
    | trivia text =>
      rw [placed, placed, List.append_assoc, List.cons_append]
      exact ih (cs ++ text)
    | lexeme kind value =>
      rw [placed, placed, List.append_assoc, List.cons_append, ih, List.map_cons, Token.relocate,
        Position.past_append_line_feed]

/-- The tokens of two splits, the second behind a line feed. -/
theorem placed_join (h : Splits cs ps []) (qs : List Part) :
    placed [] (ps ++ .trivia ['\n'] :: qs) = placed [] ps ++
      (placed [] qs).map (Token.relocate (.below (1 + cs.count '\n'))) := by
  have htexts := h.texts_append
  rw [List.append_nil] at htexts
  rw [placed_append, placed, List.nil_append, htexts, placed_append_line_feed]

end Lexical

open Lexical

variable {path s₁ s₂ : String}

/-- The tokens of the first text without its end marker, and those of the second text lower down. -/
theorem Token.scan_append_line_feed {tokens tokens' : List Token}
    (h : Token.scan path s₁ = .ok tokens) (h' : Token.scan path s₂ = .ok tokens') :
    Token.scan path (s₁ ++ "\n" ++ s₂) = .ok (tokens.dropLast ++
      tokens'.map (Token.relocate (.below (1 + s₁.toList.count '\n')))) := by
  obtain ⟨ps, hps, rfl⟩ := Token.exists_splits_of_scan h
  obtain ⟨qs, hqs, rfl⟩ := Token.exists_splits_of_scan h'
  have htext : (s₁ ++ "\n" ++ s₂).toList = s₁.toList ++ '\n' :: s₂.toList := by simp
  rw [Token.scan_of_splits (htext ▸ hps.append_line_feed hqs), placed_join hps, htext,
    Position.past_append_line_feed]
  simp [Token.relocate]

/-- The failure of the second text, lower down. -/
theorem Token.scan_append_line_feed_error {tokens : List Token} {d : Diagnostic}
    (h : Token.scan path s₁ = .ok tokens) (h' : Token.scan path s₂ = .error d) :
    Token.scan path (s₁ ++ "\n" ++ s₂) =
      .error { d with line := d.line.map (· + (1 + s₁.toList.count '\n')) } := by
  obtain ⟨ps, hps, -⟩ := Token.exists_splits_of_scan h
  obtain ⟨qs, rest, f, hqs, hstop, rfl⟩ := Token.exists_stops_of_scan h'
  have htext : (s₁ ++ "\n" ++ s₂).toList = s₁.toList ++ '\n' :: s₂.toList := by simp
  have hplace : Position.past (texts (ps ++ .trivia ['\n'] :: qs)) =
      (Position.past (texts qs)).below (1 + s₁.toList.count '\n') := by
    have htexts := hps.texts_append
    rw [List.append_nil] at htexts
    rw [texts_append, htexts, ← Position.past_append_line_feed]
    rfl
  rw [Token.scan_of_stops (htext ▸ hps.append_line_feed hqs) hstop, hplace]
  cases f <;> rfl

end MiniApp
