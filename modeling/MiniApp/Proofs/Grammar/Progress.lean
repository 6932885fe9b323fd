import MiniApp.Proofs.Grammar.Accord

/-!
# Parsers move on and come to an end

Any list of tokens with an end marker behind it is parsed to an end, be its tokens lexemes of a text
or not, and be there end markers further on or not. No loop runs into its bound, nesting does not
use up an allowance that is large enough, and no parser passes the first end marker.

## Main definitions

* `Parser.Boundless`, `Parser.Endless`: loops whose bound does not show
* `Cursor.StandsAt`: a cursor over a list of tokens, at a place up to its first end marker
* `Parser.Statements`: statements that a parser reads one after the other

## Main results

* `Parser.endless`: the loops of all parsers
* `Program.parse_progress`: parsing any list of tokens
-/

namespace MiniApp

variable {α : Type} {tokens : List Token} {allowance n : ℕ} {c c' : Cursor}

namespace Parser

/-! ## Loops -/

/-- A loop whose bound does not show: with any number of rounds that exceeds the tokens to come it
does the same. -/
def Boundless (loop : ℕ → Parser α) : Prop :=
  ∀ c : Cursor, c.stop.kind = .eof → ∀ n, c.rest.length < n →
    loop n c = loop (c.rest.length + 1) c

theorem Boundless.of_accord {loop : ℕ → Parser α}
    (h : ∀ c n m, Sufficient c n m → Accord True 0 c (loop n) (loop m)) : Boundless loop :=
  fun c hstop n hn => (h c n _ (.inr ⟨hn, Nat.lt_succ_self _⟩) hstop).1

/-- The loops of the parsers within an allowance of nesting. -/
structure Endless (allowance : ℕ) : Prop where
  program : Boundless (untilDone (looksAt [.eof]) (statement allowance))
  braces : Boundless (untilDone (looksAt [.rbrace, .eof]) (statement allowance))
  body (keyword : Token) : Boundless (untilDone atBodyEnd (bodyItem keyword (statement allowance)))
  alternatives : Boundless (alternate (expression allowance) (Parser.braces (statement allowance)))
  parameters (function : String) (seen : List String) :
    Boundless fun n => parameterNames function n seen
  arguments : Boundless (commaSeparated (expression allowance))
  calls (callee : Expr) : Boundless fun n => callSuffixes (expression allowance) n callee
  joins (ℓ : Grammar.Level) (tighter : List Grammar.Level) (left : Expr) :
    Boundless fun n => Parser.joins (joinerAt ℓ) (tower (unary allowance) tighter) n left

/-- With one and the same allowance no number of tokens matters. -/
theorem accordBelow_expression (allowance l : ℕ) :
    AccordBelow True 1 l (expression allowance) (expression allowance) :=
  fun _ _ => accord_expression (.inl ⟨rfl, trivial⟩)

theorem accordBelow_unary (allowance l : ℕ) :
    AccordBelow True 1 l (unary allowance) (unary allowance) :=
  fun c _ => (accord_expression_unary_primary allowance allowance c).2.1 (.inl ⟨rfl, trivial⟩)

theorem accordBelow_statement (allowance l : ℕ) :
    AccordBelow True 1 l (statement allowance) (statement allowance) :=
  fun _ _ => accord_statement (.inl ⟨rfl, trivial⟩)

theorem endless (allowance : ℕ) : Endless allowance where
  program := .of_accord fun c _ _ h =>
    accord_untilDone (accordBelow_statement allowance _) (fun _ => rfl)
      (Nat.lt_succ_self c.rest.length) h
  braces := .of_accord fun c _ _ h =>
    accord_untilDone (accordBelow_statement allowance _) (fun _ => rfl)
      (Nat.lt_succ_self c.rest.length) h
  body keyword := .of_accord fun c _ _ h =>
    accord_untilDone (accord_bodyItem (accordBelow_statement allowance _) keyword) (fun _ => rfl)
      (Nat.lt_succ_self c.rest.length) h
  alternatives := .of_accord fun c _ _ h =>
    accord_alternate (accordBelow_expression allowance _)
      (accord_braces (accordBelow_statement allowance _)) (Nat.lt_succ_self c.rest.length) h
  parameters function seen := .of_accord fun _ _ _ h => accord_parameterNames function seen h
  arguments := .of_accord fun c _ _ h =>
    accord_commaSeparated (accordBelow_expression allowance _) (Nat.lt_succ_self c.rest.length) h
  calls callee := .of_accord fun c _ _ h =>
    accord_callSuffixes (accordBelow_expression allowance _) callee
      (Nat.lt_succ_self c.rest.length) h
  joins _ tighter left := .of_accord fun c _ _ h =>
    accord_joins (accord_tower (accordBelow_unary allowance _) tighter) left
      (Nat.lt_succ_self c.rest.length) h

end Parser

/-! ## Places in a list of tokens -/

/-- The place of the first end marker. -/
def firstEnd (tokens : List Token) : ℕ := tokens.findIdx (·.kind = .eof)

namespace Cursor

/-- A cursor stands before the token at a place in a list. To come are the tokens from there to the
first end marker; the end marker itself is not passed. -/
structure StandsAt (tokens : List Token) (n : ℕ) (c : Cursor) : Prop where
  le : n ≤ firstEnd tokens
  ahead : c.rest ++ [c.stop] = (tokens.take (firstEnd tokens + 1)).drop n

section Marked

variable (hmem : ∃ t ∈ tokens, t.kind = .eof)

include hmem

theorem firstEnd_lt : firstEnd tokens < tokens.length :=
  List.findIdx_lt_length_of_exists (by simpa using hmem)

theorem kind_firstEnd : (tokens.get ⟨firstEnd tokens, firstEnd_lt hmem⟩).kind = .eof := by
  have h := List.findIdx_getElem (w := firstEnd_lt hmem)
  exact of_decide_eq_true h

/-- The tokens up to the first end marker. -/
theorem take_firstEnd_succ : ∃ stop : Token, stop.kind = .eof ∧
    tokens.take (firstEnd tokens + 1) = tokens.take (firstEnd tokens) ++ [stop] :=
  ⟨_, kind_firstEnd hmem, (List.take_append_getElem (firstEnd_lt hmem)).symm⟩

namespace StandsAt

theorem stop_kind (h : c.StandsAt tokens n) : c.stop.kind = .eof := by
  obtain ⟨stop, hkind, htake⟩ := take_firstEnd_succ hmem
  have hle : n ≤ (tokens.take (firstEnd tokens)).length := by
    rw [List.length_take, Nat.min_eq_left (firstEnd_lt hmem).le]
    exact h.le
  have heq := h.ahead
  rw [htake, List.drop_append_of_le_length hle] at heq
  obtain ⟨-, hlast⟩ := List.append_inj' heq rfl
  rw [(List.cons.inj hlast).1]
  exact hkind

theorem length_rest (h : c.StandsAt tokens n) : n + c.rest.length = firstEnd tokens := by
  have hlt := firstEnd_lt hmem
  have hle := h.le
  have hlen := congrArg List.length h.ahead
  simp only [List.length_append, List.length_cons, List.length_nil, List.length_drop,
    List.length_take] at hlen
  omega

/-- What has been read moves the place. -/
theorem reads {ts : List Token} (h : c.StandsAt tokens n) (hreads : c.Reads ts c') :
    c'.StandsAt tokens (n + ts.length) := by
  have hlen := h.length_rest hmem
  have hle := hreads.length
  refine ⟨by omega, ?_⟩
  rw [← List.drop_drop, ← h.ahead, hreads.1, hreads.2, List.append_assoc, List.drop_left]

omit hmem in
/-- No token to come before the first end marker is an end marker. -/
theorem kind_ne_eof (h : c.StandsAt tokens n) {t : Token} {rest : List Token}
    (hrest : c.rest = t :: rest) (hlt : n < firstEnd tokens) : t.kind ≠ .eof := by
  have hget : tokens[n]? = some t := by
    have heq := congrArg List.head? h.ahead
    rw [hrest, List.head?_drop, List.getElem?_take_of_lt (by omega)] at heq
    exact heq.symm
  obtain ⟨hn, rfl⟩ := List.getElem?_eq_some_iff.mp hget
  simpa using List.not_of_lt_findIdx hlt

/-- A cursor before an end marker stands at the first one. -/
theorem eq_firstEnd (h : c.StandsAt tokens n) (hkind : c.current.kind = .eof) :
    n = firstEnd tokens := by
  have hlen := h.length_rest hmem
  cases hrest : c.rest with
  | nil => simpa [hrest] using hlen
  | cons t rest =>
    rw [hrest, List.length_cons] at hlen
    rw [current, hrest] at hkind
    exact absurd hkind (h.kind_ne_eof hrest (by omega))

end StandsAt

end Marked

/-- Parsing starts at the first token. -/
theorem ofTokens?_standsAt {stop : Token} (hlast : tokens.getLast? = some stop)
    (hstop : stop.kind = .eof) :
    ∃ c, ofTokens? tokens = some c ∧ c.StandsAt tokens 0 := by
  have hmem : ∃ t ∈ tokens, t.kind = .eof := ⟨stop, List.mem_of_getLast? hlast, hstop⟩
  have hlt := firstEnd_lt hmem
  have hfind : tokens.find? (·.kind = .eof) = some tokens[firstEnd tokens] := by
    rw [List.find?_eq_getElem?_findIdx]
    exact List.getElem?_eq_getElem hlt
  have htake : tokens.takeWhile (·.kind ≠ .eof) = tokens.take (firstEnd tokens) := by
    rw [List.takeWhile_eq_take_findIdx_not]
    simp [firstEnd]
  refine ⟨⟨none, tokens.take (firstEnd tokens), tokens[firstEnd tokens]⟩, ?_, Nat.zero_le _, ?_⟩
  · rw [ofTokens?, hfind, htake, hlast]
    simp [hstop]
  · rw [List.drop_zero]
    exact List.take_append_getElem hlt

end Cursor

namespace Parser

/-! ## Statements to the end -/

/-- What has become of a cursor at a place when a parser stops: it stands at a later place if there
is a result, and at no earlier one if there is none. -/
def Advances (tokens : List Token) (n : ℕ) : EStateM.Result ParseFailure Cursor α → Prop
  | .ok _ c => ∃ m, n < m ∧ c.StandsAt tokens m
  | .error _ c => ∃ m, n ≤ m ∧ c.StandsAt tokens m

theorem Advances.of_moves {deep : Prop} {r : EStateM.Result ParseFailure Cursor α}
    (hmem : ∃ t ∈ tokens, t.kind = .eof) (hc : c.StandsAt tokens n) (h : Moves deep 1 c r) :
    Advances tokens n r := by
  cases r with
  | ok a c' =>
    obtain ⟨ts, hreads, hts⟩ := h
    exact ⟨n + ts.length, by omega, hc.reads hmem hreads⟩
  | error f c' =>
    obtain ⟨⟨ts, hreads⟩, -⟩ := h
    exact ⟨n + ts.length, by omega, hc.reads hmem hreads⟩

/-- Items that a parser reads one after the other, from one cursor to another. -/
inductive Items (item : Parser α) : Cursor → List α → Cursor → Prop
  | nil (c : Cursor) : Items item c [] c
  | cons {c c' c'' : Cursor} {a : α} {as : List α} (first : item c = .ok a c')
      (others : Items item c' as c'') : Items item c (a :: as) c''

theorem bind_ok {β : Type} {p : Parser α} {q : α → Parser β} {b : β} {c'' : Cursor}
    (h : (p >>= q) c = .ok b c'') : ∃ a c', p c = .ok a c' ∧ q a c' = .ok b c'' := by
  rw [Parser.bind_apply] at h
  cases heq : p c with
  | ok a c' =>
    rw [heq] at h
    exact ⟨a, c', rfl, h⟩
  | error e c' =>
    rw [heq] at h
    cases h

/-- A loop that has stopped by itself has read its items, and its test holds. -/
theorem items_of_untilDone {item : Parser α} (hitem : ∀ l, AccordBelow True 1 l item item)
    {done : Parser Bool} {b : Cursor → Bool} (hdone : ∀ c, done c = .ok (b c) c)
    {as : List α} (hstop : c.stop.kind = .eof) (hn : c.rest.length < n)
    (h : untilDone done item n c = .ok as c') : Items item c as c' ∧ b c' = true := by
  induction n generalizing c as with
  | zero => exact absurd hn (Nat.not_lt_zero _)
  | succ n ih =>
    rw [untilDone] at h
    obtain ⟨more, c₀, hmore, h⟩ := bind_ok h
    rw [hdone] at hmore
    injection hmore with hmore hc
    subst hmore hc
    split at h
    · next hb =>
      cases h
      exact ⟨.nil _, hb⟩
    · obtain ⟨a, c₁, hfirst, h⟩ := bind_ok h
      obtain ⟨as', c₂, hothers, h⟩ := bind_ok h
      cases h
      -- the first item has read a token
      have hmoves := (hitem _ _ (Nat.lt_succ_self _) hstop).2
      rw [hfirst] at hmoves
      obtain ⟨ts, hreads, hts⟩ := hmoves
      have hlen := hreads.length
      obtain ⟨hitems, hb⟩ := ih (hreads.2 ▸ hstop) (by omega) hothers
      exact ⟨.cons hfirst hitems, hb⟩

theorem accord_program {deep : Prop} {a b : ℕ} (h : Enough deep 5 a b c) :
    Accord deep 0 c (program a) (program b) := by
  have hstmt : AccordBelow deep 1 (c.rest.length + 1) (statement a) (statement b) :=
    fun c' hc' => accord_statement (h.mono (by omega))
  refine .current (.bound ?_)
  refine .bind (accord_untilDone hstmt (fun _ => rfl) (Nat.lt_succ_self _) (.inl rfl))
    fun body _ _ => ?_
  exact .pure _

/-- A program is made of statements up to the end marker. -/
theorem items_of_program {p : Program} (hstop : c.stop.kind = .eof)
    (h : program allowance c = .ok p c') :
    Items (statement allowance) c p.body c' ∧ c'.current.kind = .eof := by
  rw [program] at h
  obtain ⟨first, c₁, hfirst, h⟩ := bind_ok h
  cases hfirst
  obtain ⟨rounds, c₁, hrounds, h⟩ := bind_ok h
  cases hrounds
  obtain ⟨body, c₁, hbody, h⟩ := bind_ok h
  cases h
  obtain ⟨hitems, hend⟩ := items_of_untilDone (accordBelow_statement allowance) (fun _ => rfl)
    hstop (Nat.lt_succ_self _) hbody
  exact ⟨hitems, by simpa using hend⟩

end Parser

theorem ParseFailure.isDeep_inFile {path : String} {f : ParseFailure} :
    (f.inFile path).IsDeep ↔ f.IsDeep := by
  cases f <;> rfl

namespace Program

open MiniApp.Parser

/-- Allowances that are large enough make no difference, and nesting does not use them up. -/
theorem parseTokensWithin_of_le {start : Cursor} (hstart : Cursor.ofTokens? tokens = some start)
    (hstop : start.stop.kind = .eof) (hallowance : 5 + 3 * start.rest.length ≤ allowance)
    (path : String) :
    parseTokensWithin allowance path tokens =
        parseTokensWithin (5 + 3 * start.rest.length) path tokens ∧
      ∀ f, parseTokensWithin allowance path tokens = .error f → ¬ f.IsDeep := by
  have haccord : Accord False 0 start (program allowance)
      (program (5 + 3 * start.rest.length)) := accord_program (.inr ⟨hallowance, le_rfl⟩)
  obtain ⟨heq, hmoves⟩ := haccord hstop
  refine ⟨by rw [parseTokensWithin, parseTokensWithin, hstart]; dsimp only; rw [heq], ?_⟩
  intro f hf hdeep
  obtain ⟨g, c', hg, rfl⟩ := (parseTokensWithin_eq_error_iff hstart).mp hf
  rw [hg] at hmoves
  exact hmoves.2 (ParseFailure.isDeep_inFile.mp hdeep)

/-- Any list of tokens with an end marker behind it is parsed to an end. With a large enough
allowance nesting is no reason to fail; no loop runs into its bound. An expression or a statement
that is read has moved the cursor on, no cursor passes the first end marker, and the statements of a
program are read one after the other from the first token to the first end marker. -/
theorem parse_progress (tokens : List Token) (stop : Token) (hlast : tokens.getLast? = some stop)
    (hstop : stop.kind = .eof) :
    (∀ allowance path, 5 + 3 * firstEnd tokens ≤ allowance →
        parseTokensWithin allowance path tokens =
            parseTokensWithin (5 + 3 * firstEnd tokens) path tokens ∧
          ∀ f, parseTokensWithin allowance path tokens = .error f → ¬ f.IsDeep) ∧
      (∀ allowance, Endless allowance) ∧
      ∃ start, Cursor.ofTokens? tokens = some start ∧ start.StandsAt tokens 0 ∧
        ∀ allowance,
          (∀ n c, c.StandsAt tokens n →
            Advances tokens n (statement allowance c) ∧
              Advances tokens n (expression allowance c)) ∧
          match program allowance start with
          | .ok p c =>
            c.StandsAt tokens (firstEnd tokens) ∧ Items (statement allowance) start p.body c
          | .error _ c => ∃ n, c.StandsAt tokens n := by
  have hmem : ∃ t ∈ tokens, t.kind = .eof := ⟨stop, List.mem_of_getLast? hlast, hstop⟩
  obtain ⟨start, hstart, hstands⟩ := Cursor.ofTokens?_standsAt hlast hstop
  have hkind := hstands.stop_kind hmem
  have hlen : start.rest.length = firstEnd tokens := by simpa using hstands.length_rest hmem
  refine ⟨fun allowance path hle => ?_, endless, start, hstart, hstands,
    fun allowance => ⟨fun n c hc => ⟨?_, ?_⟩, ?_⟩⟩
  · -- the tokens to come at the start are those before the first end marker
    rw [← hlen] at hle ⊢
    exact parseTokensWithin_of_le hstart hkind hle path
  · have h := accordBelow_statement allowance _ c (Nat.lt_succ_self _)
    exact .of_moves hmem hc (h (hc.stop_kind hmem)).2
  · have h := accordBelow_expression allowance _ c (Nat.lt_succ_self _)
    exact .of_moves hmem hc (h (hc.stop_kind hmem)).2
  · have haccord : Accord True 0 start (program allowance) (program allowance) :=
      accord_program (.inl ⟨rfl, trivial⟩)
    have hmoves := (haccord hkind).2
    cases hprogram : program allowance start with
    | error f c =>
      rw [hprogram] at hmoves
      obtain ⟨⟨ts, hreads⟩, -⟩ := hmoves
      exact ⟨_, hstands.reads hmem hreads⟩
    | ok p c =>
      rw [hprogram] at hmoves
      obtain ⟨ts, hreads, -⟩ := hmoves
      -- the loop has stopped by its test, before an end marker, and there is only one within reach
      obtain ⟨hitems, hend⟩ := items_of_program hkind hprogram
      have hc := hstands.reads hmem hreads
      exact ⟨hc.eq_firstEnd hmem hend ▸ hc, hitems⟩

/-- A statement that no text is scanned as, two end markers, and more tokens between them. -/
def interrupted : List Token :=
  [⟨.identifier, "1 x", ⟨1, 1⟩⟩, ⟨.semicolon, "", ⟨1, 2⟩⟩, ⟨.eof, ")", ⟨1, 1⟩⟩,
    ⟨.let, "var", ⟨1, 1⟩⟩, ⟨.eof, "", ⟨2, 1⟩⟩]

theorem parse_progress_interrupted :
    firstEnd interrupted = 2 ∧ ∃ start p c, Cursor.ofTokens? interrupted = some start ∧
      program 5 start = .ok p c ∧ p.body.length = 1 ∧ c.StandsAt interrupted 2 ∧
      Items (statement 5) start p.body c := by
  obtain ⟨-, -, start, hstart, -, h⟩ :=
    parse_progress interrupted ⟨.eof, "", ⟨2, 1⟩⟩ rfl rfl
  obtain ⟨-, hprogram⟩ := h 5
  have hcursor : Cursor.ofTokens? interrupted =
      some ⟨none, interrupted.take 2, ⟨.eof, ")", ⟨1, 1⟩⟩⟩ := rfl
  obtain rfl := Option.some.inj (hcursor.symm.trans hstart)
  exact ⟨rfl, _, _, _, hstart, rfl, rfl, hprogram⟩

end Program

end MiniApp
