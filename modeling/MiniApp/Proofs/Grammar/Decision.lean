import Mathlib
import MiniApp.Proofs.Grammar.Completeness
import MiniApp.Proofs.Numeral

/-!
# Parsing decides the grammar

What the parsers accept and what the grammar derives, put together for the tokens of a text: a
program is parsed exactly if it is derived, nothing else is derived from the same tokens, and what
derives nothing is refused as a syntactic mistake. Two limits stand apart: the allowance of nesting,
which some amount always satisfies, and the number of digits of an integer.

## Main results

* `Program.parseTokensWithin_of_derives`, `Program.derives_of_parseTokensWithin`: the two directions
* `Program.not_nestedTooDeeply`: an allowance that suffices for any tokens
* `Program.parseTokensWithin_decides`: parsing decides the grammar
-/

namespace MiniApp

open Grammar

variable {allowance : Nat} {file : String} {pos : Position} {tokens : List Token}

/-- The cursor over scanned tokens. -/
theorem Cursor.ofTokens_scanned (h : Lexical.Scanned pos tokens) :
    ∃ c : Cursor, Cursor.ofTokens? tokens = some c ∧ c.Sound ∧ tokens = c.rest ++ [c.stop] := by
  obtain ⟨ts, stop, rfl, hstop, hlexed⟩ := h.lexed
  -- the end marker is the first of its kind, so the cursor stops there
  have hkind : ∀ t ∈ ts, t.kind ≠ .eof := fun t ht => (hlexed t ht).kind_ne_eof
  refine ⟨⟨none, ts, stop⟩, ?_, ⟨hstop, hlexed⟩, rfl⟩
  have hfind : (ts ++ [stop]).find? (·.kind = .eof) = some stop := by
    rw [List.find?_append, List.find?_eq_none.mpr (by simpa using hkind)]
    simp [hstop]
  have htake : (ts ++ [stop]).takeWhile (·.kind ≠ .eof) = ts := by
    rw [List.takeWhile_append_of_pos (by simpa using hkind)]
    simp [hstop]
  rw [Cursor.ofTokens?, hfind, htake]
  simp [hstop]

namespace Program

/-- Scanned tokens that derive a program are parsed as that program, nesting aside. -/
theorem parseTokensWithin_of_derives {p : Program} (hscanned : Lexical.Scanned pos tokens)
    (h : DerivesProgram tokens p) : parseTokensWithin allowance file tokens = .ok p ∨
      ∃ d, parseTokensWithin allowance file tokens = .error (.nestedTooDeeply d) := by
  obtain ⟨c, hc, hsound, rfl⟩ := Cursor.ofTokens_scanned hscanned
  have hyields := Parser.yields_program hsound.stop hsound.lexed h allowance c rfl rfl
  split at hyields
  · next b c' heq =>
    obtain ⟨rfl, -⟩ := hyields
    exact .inl ((parseTokensWithin_eq_ok_iff hc).mpr ⟨c', heq⟩)
  · next e c' heq =>
    obtain ⟨d, rfl⟩ := hyields
    exact .inr ⟨_, (parseTokensWithin_eq_error_iff hc).mpr ⟨_, c', heq, rfl⟩⟩

/-- Scanned tokens that are parsed as a program derive that program. -/
theorem derives_of_parseTokensWithin {p : Program} (hscanned : Lexical.Scanned pos tokens)
    (h : parseTokensWithin allowance file tokens = .ok p) : DerivesProgram tokens p := by
  obtain ⟨c, hc, hsound, rfl⟩ := Cursor.ofTokens_scanned hscanned
  obtain ⟨c', heq⟩ := (parseTokensWithin_eq_ok_iff hc).mp h
  have hafter := Parser.after_program allowance hsound hsound c (.refl c)
  rw [heq] at hafter
  obtain ⟨ts, -, hts, hderives⟩ := hafter
  rwa [← hts]

/-- A text that is parsed has been scanned before. -/
theorem exists_tokens_of_parseWithin {path source : String} {p : Program}
    (h : parseWithin allowance path source = .ok p) :
    ∃ tokens, Token.scan path source = .ok tokens ∧
      parseTokensWithin allowance path tokens = .ok p := by
  cases hscan : Token.scan path source with
  | error d => simp [parseWithin, hscan, Except.mapError, Bind.bind, Except.bind] at h
  | ok tokens =>
    rw [parseWithin, hscan] at h
    exact ⟨tokens, rfl, h⟩

/-- How the parser may fail on scanned tokens. A diagnostic names the file and points to a token. -/
theorem refusal_of_parseTokensWithin {e : ParseFailure} (hscanned : Lexical.Scanned pos tokens)
    (h : parseTokensWithin allowance file tokens = .error e) :
    (∃ d, e = .rejected d ∧ d.IsSyntactic ∧
        d.path = some file ∧ d.PointsInto (· ∈ tokens.map Token.pos)) ∨
      (∃ d, e = .nestedTooDeeply d ∧ allowance < 3 * tokens.length + 4 ∧
        d.path = some file ∧ d.PointsInto (· ∈ tokens.map Token.pos)) ∨
      ∃ f, e = .fault f ∧ ∃ t ∈ tokens, t.Lexed ∧ t.Unreadable f := by
  obtain ⟨c, hc, hsound, rfl⟩ := Cursor.ofTokens_scanned hscanned
  obtain ⟨e', c', heq, rfl⟩ := (parseTokensWithin_eq_error_iff hc).mp h
  have hafter := Parser.after_program allowance hsound hsound c (.refl c)
  rw [heq] at hafter
  cases e' with
  | rejected d => exact .inl ⟨_, rfl, hafter.1, rfl, hafter.2.inFile file⟩
  | nestedTooDeeply d =>
    obtain ⟨hdeep, hpoints⟩ := hafter
    refine .inr (.inl ⟨_, rfl, ?_, rfl, hpoints.inFile file⟩)
    rw [List.length_append]
    omega
  | fault f =>
    obtain ⟨t, ht, hbad⟩ := hafter
    exact .inr (.inr ⟨f, rfl, t, List.mem_append_left _ ht, hsound.lexed t ht, hbad⟩)

/-- Three units of nesting for every token, and four more, suffice. -/
theorem not_nestedTooDeeply (hscanned : Lexical.Scanned pos tokens)
    (hroom : 3 * tokens.length + 4 ≤ allowance) (d : Diagnostic) :
    parseTokensWithin allowance file tokens ≠ .error (.nestedTooDeeply d) := by
  intro h
  rcases refusal_of_parseTokensWithin hscanned h with
    ⟨d, hd, -⟩ | ⟨d, -, hlt, -⟩ | ⟨f, hf, -⟩
  · cases hd
  · omega
  · cases hf

/-- Scanned tokens derive at most one program. -/
theorem derives_unique {p q : Program} (hscanned : Lexical.Scanned pos tokens)
    (hp : DerivesProgram tokens p) (hq : DerivesProgram tokens q) : p = q := by
  -- whatever is derived is what the parser finds with enough allowance
  have hparse : ∀ {p}, DerivesProgram tokens p →
      parseTokensWithin (3 * tokens.length + 4) "" tokens = .ok p := by
    intro p hp
    rcases parseTokensWithin_of_derives hscanned hp with hok | ⟨d, hdeep⟩
    · exact hok
    · exact absurd hdeep (not_nestedTooDeeply hscanned le_rfl d)
  exact Except.ok.inj ((hparse hp).symm.trans (hparse hq))

/-- A number token that cannot be read is an integer of too many digits. -/
theorem fault_of_unreadable {t : Token} {f : Fault} (ht : t.Lexed) (h : t.Unreadable f) :
    '.' ∉ t.text.toList ∧ Text.digitLimit < t.text.length ∧
      f = .digitLimit (some t.text.length) := by
  obtain ⟨hkind, hread⟩ := h
  rw [Token.Lexed, hkind] at ht
  exact ht.numeral.fault_of_read (by rwa [String.ofList_toList])

/-- A number token that is no integer of too many digits can be read. -/
theorem readable_of_lexed {t : Token} {f : Fault} (ht : t.Lexed)
    (hdigits : '.' ∉ t.text.toList → t.text.length ≤ Text.digitLimit) : ¬ t.Unreadable f := by
  intro h
  obtain ⟨hpoint, hlength, -⟩ := fault_of_unreadable ht h
  exact absurd (hdigits hpoint) (by omega)

/-- Parsing decides the grammar. For the tokens of a text, integers of too many digits aside, some
allowance of nesting suffices; when it does, a program is the result exactly if it is derived, and
tokens that derive none are rejected as a syntactic mistake. At most one program is derived. -/
theorem parseTokensWithin_decides (path file source : String) (tokens : List Token)
    (hscan : Token.scan path source = .ok tokens)
    (hdigits : ∀ t ∈ tokens, t.kind = .number → '.' ∉ t.text.toList →
      t.text.length ≤ Text.digitLimit) :
    (∀ allowance, 3 * tokens.length + 4 ≤ allowance → ∀ d,
      parseTokensWithin allowance file tokens ≠ .error (.nestedTooDeeply d)) ∧
    (∀ allowance, (∀ d, parseTokensWithin allowance file tokens ≠ .error (.nestedTooDeeply d)) →
      (∀ p, parseTokensWithin allowance file tokens = .ok p ↔ DerivesProgram tokens p) ∧
      ((¬ ∃ p, DerivesProgram tokens p) →
        ∃ d, parseTokensWithin allowance file tokens = .error (.rejected d) ∧ d.IsSyntactic)) ∧
    (∀ p q, DerivesProgram tokens p → DerivesProgram tokens q → p = q) := by
  have hscanned := Token.scanned_scan hscan
  refine ⟨fun allowance hroom d => not_nestedTooDeeply hscanned hroom d, ?_,
    fun p q => derives_unique hscanned⟩
  intro allowance hnest
  refine ⟨fun p => ⟨derives_of_parseTokensWithin hscanned, fun hp => ?_⟩, fun hnone => ?_⟩
  · rcases parseTokensWithin_of_derives hscanned hp with hok | ⟨d, hdeep⟩
    · exact hok
    · exact absurd hdeep (hnest d)
  -- nothing is derived: the parser fails, and neither for depth nor on a numeral
  · cases hresult : parseTokensWithin allowance file tokens with
    | ok p => exact absurd ⟨p, derives_of_parseTokensWithin hscanned hresult⟩ hnone
    | error e =>
      rcases refusal_of_parseTokensWithin hscanned hresult with
        ⟨d, rfl, hd, -⟩ | ⟨d, rfl, -⟩ | ⟨f, -, t, ht, hlexed, hbad⟩
      · exact ⟨d, rfl, hd⟩
      · exact absurd hresult (hnest d)
      · exact absurd hbad (readable_of_lexed hlexed (hdigits t ht hbad.1))

/-- The decision at the tokens of a small text. -/
theorem parseTokensWithin_decides_call :
    ∃ tokens, Token.scan "" "f(1);" = .ok tokens ∧ DerivesProgram tokens
      ⟨⟨1, 1⟩, [.expr ⟨1, 1⟩
        (.call ⟨1, 1⟩ (.ident ⟨1, 1⟩ "f") [.number ⟨1, 3⟩ (.int 1) "1"])]⟩ := by
  refine ⟨[⟨.identifier, "f", ⟨1, 1⟩⟩, ⟨.lparen, "(", ⟨1, 2⟩⟩, ⟨.number, "1", ⟨1, 3⟩⟩,
    ⟨.rparen, ")", ⟨1, 4⟩⟩, ⟨.semicolon, ";", ⟨1, 5⟩⟩, ⟨.eof, "", ⟨1, 6⟩⟩], by rfl, ?_⟩
  obtain ⟨hroom, hiff, -⟩ := parseTokensWithin_decides "" "" "f(1);"
    [⟨.identifier, "f", ⟨1, 1⟩⟩, ⟨.lparen, "(", ⟨1, 2⟩⟩, ⟨.number, "1", ⟨1, 3⟩⟩,
      ⟨.rparen, ")", ⟨1, 4⟩⟩, ⟨.semicolon, ";", ⟨1, 5⟩⟩, ⟨.eof, "", ⟨1, 6⟩⟩] (by rfl) (by decide)
  apply ((hiff 22 (hroom 22 (by decide))).1 _).mp
  cbv

end Program

end MiniApp
