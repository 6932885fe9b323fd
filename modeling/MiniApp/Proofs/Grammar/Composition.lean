import MiniApp.Proofs.Grammar.Decision
import MiniApp.Proofs.Lexeme.Joining

/-!
# Parsing one text below another

Statements end where they end: none of them waits for more at the end of a text that is parsed, so a
text that is put below it is parsed as it would be alone, and only stands lower. In the grammar this
is no more than that statements follow each other; that the parser never takes a token of the second
text into a statement of the first is that it decides the grammar, which derives one program at
most.

## Main results

* `Program.parseWithin_append_line_feed`: the statements of the first text and those of the second
-/

namespace MiniApp

open Grammar

theorem Grammar.DerivesStmts.append {ts us : List Token} {ss rs : List Stmt}
    (h : DerivesStmts ts ss) (h' : DerivesStmts us rs) : DerivesStmts (ts ++ us) (ss ++ rs) := by
  -- the list of statements is the last of four families, so this is by recursion on it
  match h with
  | .nil => exact h'
  | .cons hs hss =>
    rw [List.append_assoc, List.cons_append]
    exact .cons hs (hss.append h')

/-- The tokens of two programs, the end marker of the first left out and the second moved. -/
theorem Grammar.DerivesProgram.append {tokens tokens' : List Token} {p p' : Program}
    (f : Position → Position) (h : DerivesProgram tokens p) (h' : DerivesProgram tokens' p') :
    ∃ q, DerivesProgram (tokens.dropLast ++ tokens'.map (Token.relocate f)) q ∧
      q.body = p.body ++ p'.body.map (Stmt.relocate f) := by
  cases h with
  | @mk ts _ _ ss hss _ _ =>
    cases h' with
    | @mk us _ stop rs hrs hstop _ =>
      have hall := hss.append (hrs.relocate (f := f))
      rw [List.dropLast_concat, List.map_append, ← List.append_assoc, ← Stmt.relocateAll_eq_map]
      obtain ⟨first, hfirst⟩ : ∃ t,
          (ts ++ us.map (Token.relocate f) ++ [stop.relocate f]).head? = some t := by
        cases ts ++ us.map (Token.relocate f) <;> exact ⟨_, rfl⟩
      exact ⟨_, .mk hall hstop hfirst, rfl⟩

namespace Program

/-- A text whose tokens derive a program is parsed as that program, nesting aside. -/
theorem parseWithin_of_derives {path source : String} {tokens : List Token} {p : Program}
    (hscan : Token.scan path source = .ok tokens) (h : DerivesProgram tokens p) :
    (∃ room, ∀ a, room ≤ a → parseWithin a path source = .ok p) ∧
      ∀ a, parseWithin a path source = .ok p ∨
        ∃ d, parseWithin a path source = .error (.nestedTooDeeply d) := by
  have hscanned := Token.scanned_scan hscan
  have hresult : ∀ a, parseWithin a path source = parseTokensWithin a path tokens := by
    intro a
    rw [parseWithin, hscan]
    rfl
  simp only [hresult]
  refine ⟨⟨3 * tokens.length + 4, fun a ha => ?_⟩, fun a => parseTokensWithin_of_derives hscanned h⟩
  rcases parseTokensWithin_of_derives hscanned h with hok | ⟨d, hdeep⟩
  · exact hok
  · exact absurd hdeep (not_nestedTooDeeply hscanned ha d)

/-- A text below one that is parsed is parsed as it is alone, nesting aside: the statements are
those of the first text and then those of the second, whose places are as many lines lower as the
first text takes up, in the same columns. Where the second text cannot be scanned, both together
cannot, for the same reason, at the place that is as many lines lower. -/
theorem parseWithin_append_line_feed (allowance : Nat) (path s₁ s₂ : String) (p : Program)
    (h : parseWithin allowance path s₁ = .ok p) :
    (∀ allowance' p', parseWithin allowance' path s₂ = .ok p' → ∃ q,
      (∃ room, ∀ a, room ≤ a → parseWithin a path (s₁ ++ "\n" ++ s₂) = .ok q) ∧
      (∀ a, parseWithin a path (s₁ ++ "\n" ++ s₂) = .ok q ∨
        ∃ d, parseWithin a path (s₁ ++ "\n" ++ s₂) = .error (.nestedTooDeeply d)) ∧
      q.body = p.body ++ p'.body.map (Stmt.relocate (.below (1 + s₁.toList.count '\n')))) ∧
    ∀ d, Token.scan path s₂ = .error d → Token.scan path (s₁ ++ "\n" ++ s₂) =
      .error { d with line := d.line.map (· + (1 + s₁.toList.count '\n')) } := by
  obtain ⟨tokens, hscan, hparse⟩ := exists_tokens_of_parseWithin h
  have hderives := derives_of_parseTokensWithin (Token.scanned_scan hscan) hparse
  refine ⟨fun allowance' p' h' => ?_, fun d hd => Token.scan_append_line_feed_error hscan hd⟩
  obtain ⟨tokens', hscan', hparse'⟩ := exists_tokens_of_parseWithin h'
  have hderives' := derives_of_parseTokensWithin (Token.scanned_scan hscan') hparse'
  obtain ⟨q, hq, hbody⟩ := hderives.append (.below (1 + s₁.toList.count '\n')) hderives'
  obtain ⟨hroom, hall⟩ := parseWithin_of_derives (Token.scan_append_line_feed hscan hscan') hq
  exact ⟨q, hroom, hall, hbody⟩

/-- An `if` without `else` and a comment, with parentheses below them, and with an open string. -/
theorem parseWithin_append_line_feed_if :
    (∃ q, (∃ room, ∀ a, room ≤ a → parseWithin a "" "if (a) { } //\n\n(b);" = .ok q) ∧
      (∀ a, parseWithin a "" "if (a) { } //\n\n(b);" = .ok q ∨
        ∃ d, parseWithin a "" "if (a) { } //\n\n(b);" = .error (.nestedTooDeeply d)) ∧
      q.body = [.ifElse ⟨1, 1⟩ (.ident ⟨1, 5⟩ "a") (.mk ⟨1, 8⟩ []) .none,
        .expr ⟨3, 1⟩ (.ident ⟨3, 2⟩ "b")]) ∧
    Token.scan "" "if (a) { } //\nx \"y" = .error
      { trouble := .unterminatedString, message := "Unterminated string literal",
        path := some "", line := some 2, column := some 3 } := by
  have hfirst : parseWithin 60 "" "if (a) { } //" =
      .ok ⟨⟨1, 1⟩, [.ifElse ⟨1, 1⟩ (.ident ⟨1, 5⟩ "a") (.mk ⟨1, 8⟩ []) .none]⟩ := by cbv
  have hsecond : parseWithin 60 "" "\n(b);" =
      .ok ⟨⟨2, 1⟩, [.expr ⟨2, 1⟩ (.ident ⟨2, 2⟩ "b")]⟩ := by cbv
  have hopen : Token.scan "" "x \"y" = .error
      { trouble := .unterminatedString, message := "Unterminated string literal",
        path := some "", line := some 1, column := some 3 } := by rfl
  obtain ⟨hparse, -⟩ := parseWithin_append_line_feed 60 "" "if (a) { } //" "\n(b);" _ hfirst
  obtain ⟨-, hscan⟩ := parseWithin_append_line_feed 60 "" "if (a) { } //" "x \"y" _ hfirst
  exact ⟨hparse 60 _ hsecond, hscan _ hopen⟩

end Program

end MiniApp
