import MiniApp.Proofs.Eval.Places
import MiniApp.Proofs.Grammar.Admission
import MiniApp.Proofs.Grammar.Decision
import MiniApp.Proofs.Lexeme.Split

/-!
# Diagnostics point into the text

A text is scanned, parsed and run, and each of the three may end in a diagnostic. The scanner
reports where it stops. The parser and the run report places of tokens, of the end marker at the
utmost: a parsed program has no other places, and a run takes its places from the program.

## Main definitions

* `Token.StandsIn`: a lexeme of a text, or its end marker, at the place where it begins
* `Program.Reports`: the diagnostics of a text

## Main results

* `Program.reports_places`: every diagnostic of a text points into it
-/

namespace MiniApp

open Lexical

/-- A token of a text: a lexeme, with the place of its first character, or the end marker, with the
place behind the last one. -/
inductive Token.StandsIn (source : List Char) : Token → Prop
  | lexeme {before rest value : List Char} {kind : TokenKind} :
      source = before ++ ((Part.lexeme kind value).text ++ rest) →
      Longest ((Part.lexeme kind value).text ++ rest) (.lexeme kind value) →
      StandsIn source ⟨kind, .ofList value, .past before⟩
  | stop : StandsIn source ⟨.eof, "", .past source⟩

/-- `Reports cx nesting allowance path source d`: a text ends in the diagnostic `d`. It is refused
by the scanner or the parser, or its program fails in a fresh session. -/
inductive Program.Reports (cx : Context) (nesting allowance : Nat) (path source : String)
    (d : Diagnostic) : Prop
  | rejected : parseWithin nesting path source = .error (.rejected d) →
      Reports cx nesting allowance path source d
  | nestedTooDeeply : parseWithin nesting path source = .error (.nestedTooDeeply d) →
      Reports cx nesting allowance path source d
  | failed {p : Program} : parseWithin nesting path source = .ok p →
      (Session.run cx allowance path p {}).1 = some (.rejected d) →
      Reports cx nesting allowance path source d

/-! ## Scanning -/

namespace Lexical

variable {cs rest : List Char} {parts : List Part} {t : Token}

/-- The tokens of a split stand in the text that is split. -/
theorem Splits.standsIn (h : Splits cs parts rest) (before : List Char)
    (ht : t ∈ placed before parts) : t.StandsIn (before ++ cs) := by
  induction h generalizing before with
  | nil => cases ht
  | @cons x cs rest parts hx _ ih =>
    have hbehind : t ∈ placed (before ++ x.text) parts → t.StandsIn (before ++ (x.text ++ cs)) := by
      rw [← List.append_assoc]
      exact ih (before ++ x.text)
    cases x with
    | trivia text => exact hbehind ht
    | lexeme kind value =>
      rcases List.mem_cons.mp ht with rfl | ht
      · exact .lexeme rfl hx
      · exact hbehind ht

/-- A failure to scan is at the place where the scanner stops. -/
theorem Failure.pointsInto_diagnostic {P : Position → Prop} {pos : Position} (f : Failure)
    (hpos : P pos) : (f.diagnostic pos).PointsInto P := by
  cases f <;> exact .plain hpos rfl

end Lexical

variable {path source : String} {tokens : List Token} {d : Diagnostic}

theorem Token.standsIn_of_scan (h : Token.scan path source = .ok tokens) :
    ∀ t ∈ tokens, t.StandsIn source.toList := by
  obtain ⟨parts, hsplit, rfl⟩ := ((Token.scan_exact path source).1 tokens).mp h
  intro t ht
  rcases List.mem_append.mp ht with ht | ht
  · exact hsplit.standsIn [] ht
  · obtain rfl := List.mem_singleton.mp ht
    exact .stop

/-! ## Parsing and running -/

namespace Program

variable {cx : Context} {nesting allowance : Nat} {p : Program}

/-- A text that cannot be scanned ends in the diagnostic of the scanner. -/
theorem Reports.eq_of_scan {e : Diagnostic} (h : Reports cx nesting allowance path source d)
    (hscan : Token.scan path source = .error e) : d = e := by
  have hparse : parseWithin nesting path source = .error (.rejected e) := by
    rw [parseWithin, hscan]
    rfl
  cases h with
  | rejected h => simpa using h.symm.trans hparse
  | nestedTooDeeply h => simpa using h.symm.trans hparse
  | failed h _ => simpa using h.symm.trans hparse

/-- The places that a fresh run of a derived program reports are places of its tokens. -/
theorem pointsInto_of_run (hderives : Grammar.DerivesProgram tokens p)
    (h : (Session.run cx allowance path p {}).1 = some (.rejected d)) :
    d.PointsInto (· ∈ tokens.map Token.pos) ∧ (path ≠ "" → d.path = some path) := by
  have hadmits : (Leeway.within (· ∈ tokens.map Token.pos)).Admits tokens :=
    ⟨fun _ => rfl, fun t ht => ⟨rfl, List.mem_map_of_mem ht⟩⟩
  have hplaces : ∀ e s, Run.start cx allowance p {} = .error e s →
      e.PointsInto (· ∈ tokens.map Token.pos) :=
    fun _ _ => Run.start_pointsInto cx allowance (hderives.alike hadmits)
  rw [Session.run] at h
  dsimp only at h
  generalize Run.start cx allowance p _ = r at h hplaces
  cases r with
  | ok _ s => cases h
  | error e s =>
    have hfailure := Option.some.inj h
    cases e with
    | rejected e =>
      obtain rfl := RunFailure.rejected.inj hfailure
      have hbare := hplaces _ _ rfl e rfl
      refine ⟨hbare.places.inFileIfUnnamed path, fun hpath => ?_⟩
      simp [Diagnostic.inFileIfUnnamed, hbare.path, hpath, Diagnostic.inFile]
    | _ => cases hfailure

/-- A diagnostic of the parser names the file and points to tokens. -/
theorem pointsInto_of_refusal {e : ParseFailure} (hscan : Token.scan path source = .ok tokens)
    (h : parseTokensWithin nesting path tokens = .error e)
    (he : e = .rejected d ∨ e = .nestedTooDeeply d) :
    d.PointsInto (· ∈ tokens.map Token.pos) ∧ (path ≠ "" → d.path = some path) := by
  rcases refusal_of_parseTokensWithin (Token.scanned_scan hscan) h with
    ⟨d', rfl, -, hpath, hpoints⟩ | ⟨d', rfl, -, hpath, hpoints⟩ | ⟨f, rfl, -⟩
  · obtain rfl : d' = d := by simpa using he
    exact ⟨hpoints, fun _ => hpath⟩
  · obtain rfl : d' = d := by simpa using he
    exact ⟨hpoints, fun _ => hpath⟩
  · simp at he

/-- A text that can be scanned ends in a diagnostic that names the file and points to tokens. -/
theorem Reports.pointsInto (h : Reports cx nesting allowance path source d)
    (hscan : Token.scan path source = .ok tokens) :
    d.PointsInto (· ∈ tokens.map Token.pos) ∧ (path ≠ "" → d.path = some path) := by
  have hparse : parseWithin nesting path source = parseTokensWithin nesting path tokens := by
    rw [parseWithin, hscan]
    rfl
  cases h with
  | rejected h => exact pointsInto_of_refusal hscan (hparse ▸ h) (.inl rfl)
  | nestedTooDeeply h => exact pointsInto_of_refusal hscan (hparse ▸ h) (.inr rfl)
  | failed h hrun =>
    exact pointsInto_of_run (derives_of_parseTokensWithin (Token.scanned_scan hscan) (hparse ▸ h))
      hrun

/-- Every diagnostic of a text points into it. Where the text is split into tokens, all of which
stand in it, the diagnostic has a line and a column, those of a token, and a declaration that it
recalls stands at a token too. Otherwise the diagnostic is at the comment, the string or the
character that cannot be read. In both cases it names the file, if the file has a name. -/
theorem reports_places (cx : Context) (nesting allowance : Nat) (path source : String)
    (d : Diagnostic) (h : Reports cx nesting allowance path source d) :
    (∀ tokens, Token.scan path source = .ok tokens →
      (∀ t ∈ tokens, t.StandsIn source.toList) ∧ d.PointsInto (· ∈ tokens.map Token.pos)) ∧
    (∀ e, Token.scan path source = .error e →
      ∃ before rest f, source.toList = before ++ rest ∧ Stops rest f ∧
        d = (f.diagnostic (.past before)).inFile path ∧ d.PointsInto (· = .past before)) ∧
    (path ≠ "" → d.path = some path) := by
  cases hscan : Token.scan path source with
  | ok tokens =>
    obtain ⟨hpoints, hpath⟩ := h.pointsInto hscan
    refine ⟨fun tokens' heq => ?_, by simp, hpath⟩
    obtain rfl := Except.ok.inj heq
    exact ⟨Token.standsIn_of_scan hscan, hpoints⟩
  | error e =>
    -- nothing has been parsed, so the report is the one of the scanner
    obtain ⟨-, hstops, -, htexts⟩ := Token.scan_exact path source
    obtain ⟨parts, rest, f, hsplit, hstop, he⟩ := (hstops e).mp hscan
    obtain rfl := h.eq_of_scan hscan
    refine ⟨by simp, fun _ _ => ?_, fun _ => ?_⟩
    · refine ⟨texts parts, rest, f, (htexts _ _ hsplit).symm, hstop, he, ?_⟩
      rw [he]
      have hpoints : (f.diagnostic (.past (texts parts))).PointsInto (· = .past (texts parts)) :=
        f.pointsInto_diagnostic rfl
      exact hpoints.inFile path
    · rw [he]
      rfl

/-- A function assigns to a constant. The diagnostic is at the assignment and recalls the place of
the constant. -/
theorem reports_places_constant :
    let cx : Context := { settings := {}, patience := 5 }
    let source := "const a = 1;\nfunc f() { a = 2; }\nf();"
    ∃ tokens d, Token.scan "m" source = .ok tokens ∧ Reports cx 60 20 "m" source d ∧
      d.trouble = .constReassignment (some "a") (some 1) (some 1) ∧
      (d.line, d.column) = (some 2, some 12) ∧
      (∀ t ∈ tokens, t.StandsIn source.toList) ∧ d.PointsInto (· ∈ tokens.map Token.pos) ∧
      d.path = some "m" := by
  intro cx source
  let d : Diagnostic :=
    { trouble := .constReassignment (some "a") (some 1) (some 1)
      message := "Cannot reassign const 'a'"
      path := some "m"
      line := some 2
      column := some 12 }
  let p : Program := ⟨⟨1, 1⟩, [.declare ⟨1, 1⟩ .const "a" (some (.number ⟨1, 11⟩ (.int 1) "1")),
    .func ⟨2, 1⟩ "f" [] (.mk ⟨2, 10⟩
      [.expr ⟨2, 12⟩ (.assign ⟨2, 12⟩ "a" (.number ⟨2, 16⟩ (.int 2) "2"))]),
    .expr ⟨3, 1⟩ (.call ⟨3, 1⟩ (.ident ⟨3, 1⟩ "f") [])]⟩
  obtain ⟨tokens, hscan⟩ : ∃ tokens,
      Token.scan "m" "const a = 1;\nfunc f() { a = 2; }\nf();" = .ok tokens := ⟨_, by cbv⟩
  have hparse : parseWithin 60 "m" "const a = 1;\nfunc f() { a = 2; }\nf();" = .ok p := by cbv
  have hrun : (Session.run cx 20 "m" p {}).1 = some (.rejected d) := by cbv
  have hreports : Reports cx 60 20 "m" source d := .failed hparse hrun
  obtain ⟨htokens, -, hpath⟩ := reports_places cx 60 20 "m" source d hreports
  obtain ⟨hstands, hpoints⟩ := htokens tokens hscan
  exact ⟨tokens, d, hscan, hreports, rfl, rfl, hstands, hpoints, hpath (by decide)⟩

end Program

end MiniApp
