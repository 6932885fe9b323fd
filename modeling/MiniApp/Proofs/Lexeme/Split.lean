import MiniApp.Proofs.Lexeme.Longest

/-!
# Scanning is the longest split

A text is split by taking the longest part at its head again and again. A split that cannot go on is
the only one, and `Token.scan` finds it: where nothing is left, its tokens are the lexemes of the
split and the end marker; where something is left, it names the reason why the text stops there. The
place of a token, and that of a failure, is counted out from the characters before it.

## Main definitions

* `Lexical.Splits`: the longest parts taken from a text, and what is left of it
* `Position.past`: the place that some characters lead up to, by its line and column
* `Lexical.placed`: the tokens of the lexemes among some parts

## Main results

* `Lexical.Splits.unique`: there is one split that cannot go on
* `Token.scan_exact`: scanning is that split
-/

namespace MiniApp

namespace Position

/-- The place that the characters from the start of a text lead up to: its line is one more than the
line feeds among them, its column one more than the characters behind the last of these. -/
def past (before : List Char) : Position where
  line := 1 + before.count '\n'
  column := 1 + (before.reverse.takeWhile (· != '\n')).length

theorem step_past (before : List Char) (c : Char) :
    (past before).step c = past (before ++ [c]) := by
  rw [step, past, past]
  by_cases hc : c = '\n'
  · subst hc
    simp [Nat.add_assoc]
  · simp [hc, Nat.add_comm]

theorem after_past (before cs : List Char) : (past before).after cs = past (before ++ cs) := by
  induction cs generalizing before with
  | nil => simp
  | cons c cs ih => rw [after_cons, step_past, ih, List.append_assoc, List.singleton_append]

end Position

namespace Lexical

/-- `Splits cs parts rest`: the longest part at the head of `cs`, the longest one behind it and so on
are `parts`, and behind them `rest` is left. -/
inductive Splits : List Char → List Part → List Char → Prop
  | nil {cs : List Char} : Splits cs [] cs
  | cons {x : Part} {cs rest : List Char} {parts : List Part} :
      Longest (x.text ++ cs) x → Splits cs parts rest → Splits (x.text ++ cs) (x :: parts) rest

/-- The characters of some parts. -/
def texts (parts : List Part) : List Char := parts.flatMap Part.text

/-- The tokens of the lexemes among some parts that stand behind the characters `before`. -/
def placed (before : List Char) : List Part → List Token
  | [] => []
  | .trivia text :: parts => placed (before ++ text) parts
  | .lexeme kind value :: parts =>
    ⟨kind, String.ofList value, .past before⟩ ::
      placed (before ++ (Part.lexeme kind value).text) parts

variable {cs ds rest rest' : List Char} {parts parts' : List Part}

/-- A split loses no character and repeats none. -/
theorem Splits.texts_append (h : Splits cs parts rest) : texts parts ++ rest = cs := by
  induction h with
  | nil => rfl
  | @cons x cs rest parts _ _ ih => rw [texts, List.flatMap_cons, List.append_assoc, ← texts, ih]

/-- There is one split that cannot go on. -/
theorem Splits.unique (h : Splits cs parts rest) (h' : Splits cs parts' rest')
    (hrest : ∀ x, ¬ Heads rest x) (hrest' : ∀ x, ¬ Heads rest' x) :
    parts = parts' ∧ rest = rest' := by
  induction h generalizing parts' with
  | nil =>
    cases h' with
    | nil => exact ⟨rfl, rfl⟩
    | cons hx _ => exact absurd hx.heads (hrest _)
  | @cons x cs rest parts hx _ ih =>
    generalize htext : x.text ++ cs = text at h'
    cases h' with
    | nil => exact absurd hx.heads (htext ▸ hrest' x)
    | @cons y cs' _ parts' hy htail =>
      obtain rfl : x = y := Longest.unique (htext ▸ hx) hy
      obtain rfl := List.append_cancel_left htext
      obtain ⟨rfl, rfl⟩ := ih htail hrest
      exact ⟨rfl, rfl⟩

/-- Blanks, each a part of its own. -/
def blanks (ds : List Char) : List Part := ds.map fun d => .trivia [d]

theorem texts_blanks_append : texts (blanks ds ++ parts) = ds ++ texts parts := by
  induction ds with
  | nil => rfl
  | cons d ds ih =>
    rw [texts] at ih ⊢
    simpa [blanks, Part.text] using ih

theorem placed_blanks_append (before : List Char) :
    placed before (blanks ds ++ parts) = placed (before ++ ds) parts := by
  induction ds generalizing before with
  | nil => simp [blanks]
  | cons d ds ih => simpa [blanks, placed] using ih (before ++ [d])

theorem Splits.blanks_append (h : Splits cs parts rest) (hds : ∀ d ∈ ds, isSpace d = true) :
    Splits (ds ++ cs) (blanks ds ++ parts) rest := by
  induction ds with
  | nil => exact h
  | cons d ds ih =>
    refine .cons (x := .trivia [d]) ?_ (ih fun e he => hds e (List.mem_cons_of_mem d he))
    exact (longest_blank (hds d List.mem_cons_self)).mpr rfl

/-- What scanning the text behind `before` finds: a split that cannot go on, with its tokens if
nothing is left and the reason why it stops otherwise. -/
inductive Found (before cs : List Char) : Except (Position × Failure) (List Token) → Prop
  | tokens {parts : List Part} : Splits cs parts [] →
      Found before cs (.ok (placed before parts ++ [⟨.eof, "", .past (before ++ cs)⟩]))
  | stop {parts : List Part} {rest : List Char} {f : Failure} : Splits cs parts rest →
      Stops rest f → Found before cs (.error (.past (before ++ texts parts), f))

variable {before : List Char} {result : Except (Position × Failure) (List Token)}

theorem Found.blanks (h : Found (before ++ ds) cs result) (hds : ∀ d ∈ ds, isSpace d = true) :
    Found before (ds ++ cs) result := by
  cases h with
  | tokens hsplit =>
    have htokens : Found before _ _ := .tokens (hsplit.blanks_append hds)
    rwa [placed_blanks_append, ← List.append_assoc] at htokens
  | stop hsplit hstop =>
    have hfound : Found before _ _ := .stop (hsplit.blanks_append hds) hstop
    rwa [texts_blanks_append, ← List.append_assoc] at hfound

theorem Found.comment {text : List Char} (h : Found (before ++ text) cs result)
    (hx : Longest (text ++ cs) (.trivia text)) : Found before (text ++ cs) result := by
  cases h with
  | tokens hsplit =>
    have htokens : Found before _ _ := .tokens (.cons (x := .trivia text) hx hsplit)
    rwa [placed, Part.text, ← List.append_assoc] at htokens
  | stop hsplit hstop =>
    have hfound : Found before _ _ := .stop (.cons (x := .trivia text) hx hsplit) hstop
    rwa [texts, List.flatMap_cons, Part.text, ← List.append_assoc] at hfound

theorem Found.lexeme {k : TokenKind} {value : List Char}
    (h : Found (before ++ (Part.lexeme k value).text) cs result)
    (hx : Longest ((Part.lexeme k value).text ++ cs) (.lexeme k value)) :
    Found before ((Part.lexeme k value).text ++ cs)
      (result.map (⟨k, String.ofList value, .past before⟩ :: ·)) := by
  cases h with
  | tokens hsplit =>
    have htokens : Found before _ _ := .tokens (.cons hx hsplit)
    rwa [placed, ← List.append_assoc] at htokens
  | stop hsplit hstop =>
    have hfound : Found before _ _ := .stop (.cons hx hsplit) hstop
    rwa [texts, List.flatMap_cons, ← List.append_assoc] at hfound

/-- A text is found to be one thing. -/
theorem Found.unique {result' : Except (Position × Failure) (List Token)}
    (h : Found before cs result) (h' : Found before cs result') : result = result' := by
  have hnil : ∀ x, ¬ Heads [] x := fun x hx => hx.ne_nil rfl
  cases h with
  | tokens hsplit =>
    cases h' with
    | tokens hsplit' =>
      obtain ⟨rfl, -⟩ := hsplit.unique hsplit' hnil hnil
      rfl
    | stop hsplit' hstop =>
      obtain ⟨-, rfl⟩ := hsplit.unique hsplit' hnil hstop.not_heads
      cases hstop
  | stop hsplit hstop =>
    cases h' with
    | tokens hsplit' =>
      obtain ⟨-, rfl⟩ := hsplit.unique hsplit' hstop.not_heads hnil
      cases hstop
    | stop hsplit' hstop' =>
      obtain ⟨rfl, rfl⟩ := hsplit.unique hsplit' hstop.not_heads hstop'.not_heads
      rw [hstop.unique hstop']

theorem found_scanFrom {fuel : Nat} (before : List Char) (hfuel : cs.length ≤ fuel) :
    Found before cs (scanFrom fuel (.past before) cs) := by
  -- on the rounds of the scanner; a round takes a part, or a run of blanks
  induction fuel generalizing before cs with
  | zero =>
    obtain rfl := List.length_eq_zero_iff.mp (Nat.le_zero.mp hfuel)
    simpa [scanFrom, placed] using (.tokens .nil : Found before _ _)
  | succ fuel ih =>
    cases cs with
    | nil => simpa [scanFrom, placed] using (.tokens .nil : Found before _ _)
    | cons c cs =>
      rw [scanFrom]
      have hread := reads_next c cs
      generalize next c cs = read at hread
      cases hread with
      | stop hstop => simpa [texts] using (.stop .nil hstop : Found before _ _)
      | blanks hspace =>
        obtain ⟨ws, ds, hws, hlength, hds⟩ : ∃ ws ds, (∀ w ∈ ws, isSpace w = true) ∧
            (cs.takeWhile isSpace).length.succ = ws.length ∧ ws ++ ds = c :: cs :=
          ⟨c :: cs.takeWhile isSpace, cs.dropWhile isSpace,
            List.forall_mem_cons.mpr ⟨hspace, fun _ => List.mem_takeWhile_imp⟩, rfl, by simp⟩
        rw [← hds] at hfuel ⊢
        simp only [Piece.length, hlength, List.take_left, List.drop_left, Position.after_past]
        refine Found.blanks (ih (before ++ ws) ?_) hws
        rw [List.length_append, ← hlength] at hfuel
        omega
      | @comment text h =>
        have hx := (h _).mpr rfl
        obtain ⟨ds, hds⟩ := hx.heads.isPrefix
        rw [Part.text] at hds
        have htext : 0 < text.length := List.length_pos_iff.mpr hx.heads.text_ne_nil
        rw [← hds] at hx hfuel ⊢
        simp only [Piece.length, List.take_left, List.drop_left, Position.after_past]
        refine Found.comment (ih (before ++ text) ?_) hx
        rw [List.length_append] at hfuel
        omega
      | @lexeme k value h =>
        have hx := (h _).mpr rfl
        obtain ⟨ds, hds⟩ := hx.heads.isPrefix
        have htext := List.length_pos_iff.mpr hx.heads.text_ne_nil
        rw [← hds] at hx hfuel ⊢
        simp only [Piece.length, List.take_left, List.drop_left, Position.after_past]
        have hrest : ds.length ≤ fuel := by
          rw [List.length_append] at hfuel
          omega
        have hfound := Found.lexeme (ih (before ++ (Part.lexeme k value).text) hrest) hx
        cases hscan : scanFrom fuel (.past (before ++ (Part.lexeme k value).text)) ds with
        | ok tokens => simpa [hscan, Except.map] using hfound
        | error e => simpa [hscan, Except.map] using hfound

/-- Scanning a whole text finds what there is to find. -/
theorem scanFrom_eq_iff : scanFrom cs.length .start cs = result ↔ Found [] cs result := by
  have hfound : Found [] cs (scanFrom cs.length .start cs) := found_scanFrom [] le_rfl
  constructor
  · rintro rfl
    exact hfound
  · exact hfound.unique

/-- Some split goes on as long as it can: the one that scanning finds. -/
theorem exists_splits (cs : List Char) :
    ∃ parts rest, Splits cs parts rest ∧ ∀ x, ¬ Heads rest x := by
  have hfound : Found [] cs (scanFrom cs.length .start cs) := scanFrom_eq_iff.mp rfl
  generalize scanFrom cs.length .start cs = result at hfound
  cases hfound with
  | tokens hsplit => exact ⟨_, _, hsplit, fun x hx => hx.ne_nil rfl⟩
  | stop hsplit hstop => exact ⟨_, _, hsplit, hstop.not_heads⟩

end Lexical

open Lexical

/-- What scanning finds, with its failures named in the file. -/
theorem Token.exists_found (path source : String) : ∃ result, Found [] source.toList result ∧
    Token.scan path source = result.mapError fun e => (e.2.diagnostic e.1).inFile path := by
  refine ⟨_, scanFrom_eq_iff.mp rfl, ?_⟩
  rw [Token.scan]
  cases scanFrom source.toList.length .start source.toList <;> rfl

section

variable {path source : String} {parts : List Part} {rest : List Char}

theorem Token.scan_of_splits (h : Splits source.toList parts []) :
    Token.scan path source = .ok (placed [] parts ++ [⟨.eof, "", .past source.toList⟩]) := by
  obtain ⟨result, hfound, hscan⟩ := Token.exists_found path source
  rw [hscan, hfound.unique (.tokens h)]
  rfl

theorem Token.scan_of_stops {f : Failure} (h : Splits source.toList parts rest)
    (hstop : Stops rest f) :
    Token.scan path source = .error ((f.diagnostic (.past (texts parts))).inFile path) := by
  obtain ⟨result, hfound, hscan⟩ := Token.exists_found path source
  rw [hscan, hfound.unique (.stop h hstop)]
  rfl

theorem Token.exists_splits_of_scan {tokens : List Token}
    (h : Token.scan path source = .ok tokens) : ∃ parts, Splits source.toList parts [] ∧
      tokens = placed [] parts ++ [⟨.eof, "", .past source.toList⟩] := by
  obtain ⟨result, hfound, hscan⟩ := Token.exists_found path source
  rw [hscan] at h
  cases hfound with
  | tokens hsplit => exact ⟨_, hsplit, (Except.ok.inj h).symm⟩
  | stop _ _ => cases h

theorem Token.exists_stops_of_scan {d : Diagnostic} (h : Token.scan path source = .error d) :
    ∃ parts rest f, Splits source.toList parts rest ∧ Stops rest f ∧
      d = (f.diagnostic (.past (texts parts))).inFile path := by
  obtain ⟨result, hfound, hscan⟩ := Token.exists_found path source
  rw [hscan] at h
  cases hfound with
  | tokens _ => cases h
  | stop hsplit hstop => exact ⟨_, _, _, hsplit, hstop, (Except.error.inj h).symm⟩

end

/-- Scanning succeeds where the longest parts use up the text, and then makes a token of each lexeme
among them and the end marker. Otherwise it fails where they stop, for the reason why they stop. Some
split goes on as long as it can, there is only one, and its parts are the characters of the text. -/
theorem Token.scan_exact (path source : String) :
    (∀ tokens, Token.scan path source = .ok tokens ↔
      ∃ parts, Splits source.toList parts [] ∧
        tokens = placed [] parts ++ [⟨.eof, "", .past source.toList⟩]) ∧
    (∀ d, Token.scan path source = .error d ↔
      ∃ parts rest f, Splits source.toList parts rest ∧ Stops rest f ∧
        d = (f.diagnostic (.past (texts parts))).inFile path) ∧
    (∃! split : List Part × List Char,
      Splits source.toList split.1 split.2 ∧ ∀ x, ¬ Heads split.2 x) ∧
    ∀ parts rest, Splits source.toList parts rest → texts parts ++ rest = source.toList := by
  refine ⟨fun tokens => ⟨Token.exists_splits_of_scan, ?_⟩,
    fun d => ⟨Token.exists_stops_of_scan, ?_⟩, ?_, fun _ _ h => h.texts_append⟩
  · rintro ⟨parts, hsplit, rfl⟩
    exact Token.scan_of_splits hsplit
  · rintro ⟨parts, rest, f, hsplit, hstop, rfl⟩
    exact Token.scan_of_stops hsplit hstop
  · obtain ⟨parts, rest, hsplit, hrest⟩ := exists_splits source.toList
    refine ⟨(parts, rest), ⟨hsplit, hrest⟩, fun split h => ?_⟩
    obtain ⟨hparts, heq⟩ := h.1.unique hsplit h.2 hrest
    exact Prod.ext hparts heq

end MiniApp
