import MiniApp.Proofs.Grammar.ContextFree
import MiniApp.Proofs.Grammar.Decision

/-!
# Unexpected tokens are reported where they stand

An unexpected token is reported at the first token that does not fit: what stands before it can
still be completed, as far as the context-free grammar goes. A parser follows a sentential form: the
tokens it reads are derived from the form if it succeeds, and if it meets an unexpected token, those
before that token begin something that is derived from it. Parsers that run one after another follow
their forms one after another, since whatever is still to come can be completed somehow.

## Main definitions

* `Parser.Viable`: the tokens before an unexpected token begin a sentential form
* `Parser.Follows`: a parser follows a sentential form

## Main results

* `Parser.follows_expression`, `Parser.follows_statement`: the recursive parsers
* `Program.mem_language_of_parseTokensWithin`: what is parsed is in the context-free language
* `Program.viable_of_unexpectedToken`: what stands before an unexpected token begins a word of it
-/

namespace MiniApp

namespace Parser

open Grammar

/-- If the failure is an unexpected token, it is one of the tokens to come, and those before it
begin the form. -/
def Viable (c : Cursor) (φ : Form) : ParseFailure → Prop
  | .rejected d => ∀ e, d.trouble = .unexpectedToken e →
    ∃ us t vs, c.rest ++ [c.stop] = us ++ t :: vs ∧
      d.line = some t.pos.line ∧ d.column = some t.pos.column ∧ Begins φ (us.map Token.kind)
  | _ => True

/-- From this cursor on, the parser reads tokens that are derived from the form, or it fails; and if
it fails at an unexpected token, those before it begin the form. -/
def Follows {α : Type} (c : Cursor) (p : Parser α) (φ : Form) : Prop :=
  c.Sound → match p c with
    | .ok _ c' => ∃ ts, c.Reads ts c' ∧ Generates φ (ts.map Token.kind)
    | .error f _ => Viable c φ f

variable {α β : Type} {c c' : Cursor} {φ ψ : Form} {X : Symbol TokenKind Nonterminal}
  {f : ParseFailure} {N : Nonterminal} {k : TokenKind} {kinds : List TokenKind}

namespace Viable

theorem mono (h : Viable c φ f) (himp : ∀ ks, Generates φ ks → Generates ψ ks) : Viable c ψ f := by
  cases f with
  | rejected d =>
    intro e he
    obtain ⟨us, t, vs, htokens, hline, hcolumn, hbegins⟩ := h e he
    exact ⟨us, t, vs, htokens, hline, hcolumn, hbegins.mono himp⟩
  | nestedTooDeeply _ | fault _ => trivial

theorem append_right (h : Viable c φ f) (ψ : Form) : Viable c (φ ++ ψ) f := by
  cases f with
  | rejected d =>
    intro e he
    obtain ⟨us, t, vs, htokens, hline, hcolumn, hbegins⟩ := h e he
    exact ⟨us, t, vs, htokens, hline, hcolumn, hbegins.append_right ψ⟩
  | nestedTooDeeply _ | fault _ => trivial

theorem of_reads {ts : List Token} (h : Viable c' ψ f) (hreads : c.Reads ts c')
    (hts : Generates φ (ts.map Token.kind)) : Viable c (φ ++ ψ) f := by
  cases f with
  | rejected d =>
    intro e he
    obtain ⟨us, t, vs, htokens, hline, hcolumn, hbegins⟩ := h e he
    refine ⟨ts ++ us, t, vs, ?_, hline, hcolumn, ?_⟩
    · rw [hreads.1, ← hreads.2, List.append_assoc, htokens, List.append_assoc]
    · rw [List.map_append]
      exact hts.append_begins hbegins
  | nestedTooDeeply _ | fault _ => trivial

end Viable

namespace Follows

theorem mono {p : Parser α} (h : Follows c p φ) (himp : ∀ ks, Generates φ ks → Generates ψ ks) :
    Follows c p ψ := by
  intro hc
  have hp := h hc
  split at hp
  · obtain ⟨ts, hreads, hts⟩ := hp
    exact ⟨ts, hreads, himp _ hts⟩
  · exact hp.mono himp

theorem rule {p : Parser α} (φ : Form) (hmem : ⟨N, φ⟩ ∈ productions) (h : Follows c p φ) :
    Follows c p [phrase N] :=
  h.mono fun _ hks => hks.rule hmem

/-- A rule for the first phrase of a form. -/
theorem expand {p : Parser α} (χ : Form) (hmem : ⟨N, χ⟩ ∈ productions) (h : Follows c p (χ ++ ψ)) :
    Follows c p (phrase N :: ψ) :=
  h.mono fun _ hks => hks.expand hmem

protected theorem pure {a : α} : Follows c (pure a) [] := fun _ => ⟨[], .refl c, .nil⟩

/-- One parser after another. The second one goes on where the first one stopped. -/
theorem append {p : Parser α} {q : α → Parser β} (hp : Follows c p φ)
    (hq : ∀ a ts c', p c = .ok a c' → c.Reads ts c' → Follows c' (q a) ψ) :
    Follows c (p >>= q) (φ ++ ψ) := by
  intro hc
  have hp := hp hc
  rw [Parser.bind_apply]
  cases heq : p c with
  | ok a c' =>
    rw [heq] at hp
    obtain ⟨ts, hreads, hts⟩ := hp
    have hq := hq a ts c' heq hreads (hreads.sound hc)
    dsimp only
    generalize q a c' = result at hq ⊢
    cases result with
    | ok b c'' =>
      obtain ⟨us, hreads', hus⟩ := hq
      refine ⟨ts ++ us, hreads.trans hreads', ?_⟩
      rw [List.map_append]
      exact hts.append hus
    | error f c'' => exact hq.of_reads hreads hts
  | error f c' =>
    rw [heq] at hp
    exact hp.append_right ψ

/-- A parser for the first symbol of a form, and one for what follows it. -/
theorem bind {p : Parser α} {q : α → Parser β} (hp : Follows c p [X])
    (hq : ∀ a ts c', p c = .ok a c' → c.Reads ts c' → Follows c' (q a) ψ) :
    Follows c (p >>= q) (X :: ψ) :=
  hp.append hq

/-- The same where it does not matter what the first parser has found. -/
theorem next {p : Parser α} {q : α → Parser β} (hp : Follows c p [X])
    (hq : ∀ a c', Follows c' (q a) ψ) : Follows c (p >>= q) (X :: ψ) :=
  hp.bind fun a _ c' _ _ => hq a c'

/-- A parser for the last symbol of a form. -/
theorem last {p : Parser α} {g : α → β} (hp : Follows c p [X]) :
    Follows c (p >>= fun a => Pure.pure (g a)) [X] :=
  hp.next fun _ _ => .pure

/-! ## Looking ahead -/

theorem current {q : Token → Parser β} (h : Follows c (q c.current) φ) :
    Follows c (Parser.current >>= q) φ := h

theorem looksAt {q : Bool → Parser β} (h : Follows c (q (kinds.contains c.current.kind)) φ) :
    Follows c (Parser.looksAt kinds >>= q) φ := h

theorem bound {q : Nat → Parser β} (h : Follows c (q (c.rest.length + 1)) φ) :
    Follows c (Parser.bound >>= q) φ := h

theorem pure_bind {a : α} {q : α → Parser β} (h : Follows c (q a) φ) : Follows c (pure a >>= q) φ :=
  h

/-! ## Failing -/

/-- What is reported at the next token comes before anything else of the form. -/
theorem reject_current {trouble : Trouble} {message : String} :
    Follows c (reject (.located c.current.pos trouble message) : Parser α) φ := by
  intro _ _ _
  obtain ⟨vs, hvs⟩ : ∃ vs, c.rest ++ [c.stop] = c.current :: vs := by
    rw [Cursor.current]
    cases c.rest <;> exact ⟨_, rfl⟩
  exact ⟨[], c.current, vs, hvs, rfl, rfl, .nil φ⟩

/-- Nothing is said of other troubles. -/
theorem reject_other {d : Diagnostic} (h : ∀ e, d.trouble ≠ .unexpectedToken e) :
    Follows c (reject d : Parser α) φ :=
  fun _ e he => absurd he (h e)

theorem reject_bind {d : Diagnostic} {q : α → Parser β} (h : Follows c (reject d : Parser α) φ) :
    Follows c (reject d >>= q) φ := h

theorem tooDeep : Follows c (Parser.tooDeep : Parser α) φ := fun _ => trivial

theorem fault (f : Fault) : Follows c (throw (.fault f) : Parser α) φ := fun _ => trivial

theorem ofFault {x : Except Fault α} {q : α → Parser β} (h : ∀ a, Follows c (q a) φ) :
    Follows c (Parser.ofFault x >>= q) φ := by
  cases x with
  | ok a => exact h a
  | error f => exact fault f

/-! ## Reading a token -/

theorem advance (hne : c.current.kind ≠ .eof) (hX : Generates [X] [c.current.kind]) :
    Follows c Parser.advance [X] := by
  intro hc
  obtain ⟨previous, rest, stop⟩ := c
  cases rest with
  | nil => exact absurd hc.stop hne
  | cons t rest => exact ⟨[t], ⟨rfl, rfl⟩, hX⟩

theorem advance_tok (hkind : c.current.kind = k) (hne : k ≠ .eof) :
    Follows c Parser.advance [tok k] := by
  subst hkind
  exact advance hne (.tok _)

/-- A token of one of some kinds. The symbol is to derive the kind that comes, if it is one of
them. -/
theorem expect_of_mem (hne : .eof ∉ kinds)
    (hX : c.current.kind ∈ kinds → Generates [X] [c.current.kind]) :
    Follows c (Parser.expect kinds) [X] := by
  refine .looksAt ?_
  split
  · next hmem =>
    have hmem : c.current.kind ∈ kinds := by simpa using hmem
    exact advance (fun heq => hne (heq ▸ hmem)) (hX hmem)
  · exact reject_current (α := Token)

theorem expect (hne : k ≠ .eof) : Follows c (Parser.expect [k]) [tok k] := by
  refine expect_of_mem (by simpa using hne.symm) fun hmem => ?_
  rw [List.mem_singleton.mp hmem]
  exact .tok k

/-- A token of one kind, and what follows it. -/
theorem token {q : Token → Parser β} (hne : k ≠ .eof) (hq : ∀ t c', Follows c' (q t) ψ) :
    Follows c (Parser.expect [k] >>= q) (tok k :: ψ) :=
  .next (.expect hne) hq

theorem congr {p q : Parser α} (h : p c = q c) (hq : Follows c q φ) : Follows c p φ := by
  intro hc
  rw [h]
  exact hq hc

/-- A token that may be missing, and is there. -/
theorem consumed {q : Bool → Parser β} (hkind : c.current.kind = k) (hne : k ≠ .eof)
    (hq : ∀ c', c'.rest.length < c.rest.length → Follows c' (q true) ψ) :
    Follows c (Parser.consumeIf k >>= q) (tok k :: ψ) := by
  have hyes : [k].contains c.current.kind = true := by simpa using hkind
  have heq : (Parser.consumeIf k >>= q) c = (Parser.advance >>= fun _ => q true) c := by
    simp only [Parser.consumeIf, Parser.looksAt, Bind.bind, EStateM.bind, if_pos hyes]
    cases Parser.advance c <;> rfl
  intro hc
  refine Follows.congr heq (.bind (advance_tok hkind hne) fun _ _ c' hadvance _ => hq c' ?_) hc
  obtain ⟨previous, rest, stop⟩ := c
  cases rest with
  | nil => exact absurd hc.stop (hkind ▸ hne)
  | cons t rest =>
    cases hadvance
    exact Nat.lt_succ_self _

/-- A token that may be missing, and is. -/
theorem passed {q : Bool → Parser β} (hkind : c.current.kind ≠ k) (hq : Follows c (q false) φ) :
    Follows c (Parser.consumeIf k >>= q) φ := by
  have hno : ¬ [k].contains c.current.kind = true := by simpa using hkind
  refine .congr ?_ hq
  simp only [Parser.consumeIf, Parser.looksAt, Bind.bind, EStateM.bind, if_neg hno]
  rfl

end Follows

/-- What is expected and read is the next token. -/
theorem of_expect {t : Token} (hc : c.Sound) (hne : .eof ∉ kinds)
    (h : expect kinds c = .ok t c') : t = c.current ∧ t.kind ∈ kinds ∧ t.Lexed := by
  by_cases hmem : kinds.contains c.current.kind = true
  · have hmem' : c.current.kind ∈ kinds := by simpa using hmem
    simp only [expect, looksAt, Bind.bind, EStateM.bind, if_pos hmem] at h
    obtain ⟨previous, rest, stop⟩ := c
    cases rest with
    | nil => exact absurd (hc.stop ▸ hmem') hne
    | cons u rest =>
      cases h
      exact ⟨rfl, hmem', hc.lexed t List.mem_cons_self⟩
  · simp only [expect, looksAt, Bind.bind, EStateM.bind, if_neg hmem] at h
    cases h

variable {expression : Parser Expr} {statement : Parser Stmt} {block : Parser Block}

/-! ## Expressions -/

section Operators

variable {operand : Parser Expr} {ℓ m : Level}

theorem follows_joins (hnext : ℓ.next? = some m)
    (hoperand : ∀ c, Follows c operand [phrase (.level m)]) (fuel : Nat) (left : Expr) :
    Follows c (joins (joinerAt ℓ) operand fuel left) [phrase (.tail ℓ)] := by
  induction fuel generalizing left c with
  | zero => exact .rule [] (tail_nil_mem ℓ) .pure
  | succ fuel ih =>
    refine .current ?_
    split
    · exact .rule [] (tail_nil_mem ℓ) .pure
    · next join hjoin =>
      have hjoins := joins_of_joinerAt hjoin
      refine .rule _ (tail_mem hnext hjoins) (.bind (.advance_tok rfl hjoins.ne_eof) ?_)
      refine fun _ _ c _ _ => .next (hoperand c) fun right c => ?_
      exact ih _

theorem follows_leftAssociative (hnext : ℓ.next? = some m)
    (hoperand : ∀ c, Follows c operand [phrase (.level m)]) (c : Cursor) :
    Follows c (leftAssociative (joinerAt ℓ) operand) [phrase (.level ℓ)] :=
  .rule _ (level_mem hnext) (.next (hoperand c) fun _ _ =>
    .bound (follows_joins hnext hoperand _ _))

theorem follows_operators {unary : Parser Expr}
    (h : ∀ c, Follows c unary [phrase (.level .unary)]) :
    ∀ c, Follows c (operators unary) [phrase (.level .disjunction)] :=
  have hproduct := follows_leftAssociative (ℓ := .product) rfl h
  have hsum := follows_leftAssociative (ℓ := .sum) rfl hproduct
  have horder := follows_leftAssociative (ℓ := .order) rfl hsum
  have hequality := follows_leftAssociative (ℓ := .equality) rfl horder
  have hconjunction := follows_leftAssociative (ℓ := .conjunction) rfl hequality
  follows_leftAssociative (ℓ := .disjunction) rfl hconjunction

end Operators

section Parts

variable (hexpr : ∀ c, Follows c expression [phrase .expression])

include hexpr

theorem follows_commaSeparated (fuel : Nat) (hfuel : c.rest.length < fuel) :
    Follows c (commaSeparated expression fuel) [phrase .expressions] := by
  induction fuel generalizing c with
  | zero => omega
  | succ fuel ih =>
    refine .rule [phrase .expression, phrase .moreExpressions] (by decide) ?_
    refine .bind (hexpr c) fun first ts c' _ hreads => ?_
    have hlength := hreads.length
    by_cases hcomma : c'.current.kind = .comma
    · refine .rule [tok .comma, phrase .expressions] (by decide) ?_
      refine .consumed hcomma (by decide) fun c'' hlt => ?_
      exact .last (ih (by omega))
    · exact .rule [] (by decide) (.passed hcomma .pure)

theorem follows_argumentList (c : Cursor) :
    Follows c (argumentList expression) [phrase .arguments] := by
  refine .rule [tok .lparen, phrase .list, tok .rparen] (by decide) ?_
  refine .token (by decide) fun _ c => .looksAt ?_
  split
  · refine .next (.rule [] (by decide) .pure) fun _ c => ?_
    exact .last (.expect (by decide))
  · refine .bound (.next ?_ fun _ c => ?_)
    · exact .rule [phrase .expressions] (by decide)
        (follows_commaSeparated hexpr _ (Nat.lt_succ_self _))
    · exact .last (.expect (by decide))

theorem follows_callSuffixes (fuel : Nat) (callee : Expr) :
    Follows c (callSuffixes expression fuel callee) [phrase (.tail .call)] := by
  induction fuel generalizing callee c with
  | zero => exact .rule [] (by decide) .pure
  | succ fuel ih =>
    refine .looksAt ?_
    split
    · refine .rule [phrase .arguments, phrase (.tail .call)] (by decide) ?_
      exact .next (follows_argumentList hexpr c) fun _ c => ih _
    · exact .rule [] (by decide) .pure

end Parts

theorem follows_primary {allowance : Nat}
    (hexpr : ∀ c, Follows c (Parser.expression allowance) [phrase .expression]) (c : Cursor) :
    Follows c (primary (allowance + 1)) [phrase (.level .primary)] := by
  rw [primary]
  refine .current ?_
  split
  · next hk =>
    refine .rule [tok .number] (by decide) (.next (.advance_tok hk (by decide)) fun _ c => ?_)
    exact .ofFault fun _ => .pure
  · next hk =>
    exact .rule [tok .string] (by decide) (.last (.advance_tok hk (by decide)))
  · next hk =>
    exact .rule [tok .boolean] (by decide) (.last (.advance_tok hk (by decide)))
  · next hk =>
    exact .rule [tok .null] (by decide) (.last (.advance_tok hk (by decide)))
  · next hk =>
    exact .rule [tok .identifier] (by decide) (.last (.advance_tok hk (by decide)))
  · next hk =>
    refine .rule [tok .lparen, phrase .expression, tok .rparen] (by decide) ?_
    refine .next (.advance_tok hk (by decide)) fun _ c => ?_
    refine .next (hexpr c) fun _ c => ?_
    exact .last (.expect (by decide))
  · next hk =>
    refine .rule [tok .call, phrase .arguments] (by decide) ?_
    refine .next (.advance_tok hk (by decide)) fun _ c => ?_
    exact .last (follows_argumentList hexpr c)
  · exact .reject_current

theorem follows_unary {allowance : Nat}
    (hexpr : ∀ c, Follows c (Parser.expression allowance) [phrase .expression])
    (hunary : ∀ c, Follows c (unary allowance) [phrase (.level .unary)])
    (hprimary : ∀ c, Follows c (primary allowance) [phrase (.level .primary)]) (c : Cursor) :
    Follows c (unary (allowance + 1)) [phrase (.level .unary)] := by
  rw [unary]
  refine .looksAt ?_
  split
  · next hop =>
    have hop : c.current.kind = .not ∨ c.current.kind = .minus := by simpa using hop
    have hfollows {k : TokenKind} (hk : c.current.kind = k) (hne : k ≠ .eof) :
        Follows c (Parser.advance >>= fun operator => unary allowance >>= fun operand =>
          pure (Expr.unary operator.pos (.ofSymbol operator.text) operand))
          [tok k, phrase (.level .unary)] :=
      .next (.advance_tok hk hne) fun _ c => .last (hunary c)
    rcases hop with hk | hk
    · exact .rule _ (by decide) (hfollows hk (by decide))
    · exact .rule _ (by decide) (hfollows hk (by decide))
  · -- a call, and nothing behind it at this level
    have hcall : Follows c (primary allowance >>= fun callee => Parser.bound >>= fun fuel =>
        callSuffixes (Parser.expression allowance) fuel callee) [phrase (.level .call)] := by
      refine .rule _ (level_mem rfl) (.next (hprimary c) fun _ c => .bound ?_)
      exact follows_callSuffixes hexpr _ _
    refine .rule _ (level_mem rfl) (hcall.mono fun ks hks => ?_)
    simpa using hks.cons (.rule (tail_nil_mem .unary) .nil)

theorem follows_expression_step {allowance : Nat}
    (hexpr : ∀ c, Follows c (Parser.expression allowance) [phrase .expression])
    (hunary : ∀ c, Follows c (unary allowance) [phrase (.level .unary)]) (c : Cursor) :
    Follows c (Parser.expression (allowance + 1)) [phrase .expression] := by
  rw [Parser.expression]
  -- whether this is an assignment shows only behind what may be its target
  refine .rule _ (level_mem rfl) (.next (follows_operators hunary c) fun target c => ?_)
  refine .looksAt ?_
  split
  · next hassign =>
    have hk : c.current.kind = .assign := by simpa using hassign
    refine .rule [tok .assign, phrase .expression] (by decide) ?_
    refine .next (.advance_tok hk (by decide)) fun _ c => ?_
    refine .next (hexpr c) fun _ c => ?_
    split
    · exact .pure
    · exact .reject_other fun _ h => by cases h
  · exact .rule [] (by decide) .pure

/-- The three parsers of expressions follow their levels. -/
theorem follows_expressions (allowance : Nat) :
    (∀ c, Follows c (Parser.expression allowance) [phrase .expression]) ∧
      (∀ c, Follows c (unary allowance) [phrase (.level .unary)]) ∧
      ∀ c, Follows c (primary allowance) [phrase (.level .primary)] := by
  induction allowance with
  | zero =>
    rw [Parser.expression, unary, primary]
    exact ⟨fun _ => .tooDeep, fun _ => .tooDeep, fun _ => .tooDeep⟩
  | succ allowance ih =>
    obtain ⟨hexpr, hunary, hprimary⟩ := ih
    exact ⟨follows_expression_step hexpr hunary, follows_unary hexpr hunary hprimary,
      follows_primary hexpr⟩

theorem follows_expression (allowance : Nat) (c : Cursor) :
    Follows c (Parser.expression allowance) [phrase .expression] :=
  (follows_expressions allowance).1 c

/-! ## Statements -/

theorem follows_untilDone {done : Parser Bool} {item : Parser Stmt}
    (hdone : ∀ c, ∃ b, done c = .ok b c) (hitem : ∀ c, Follows c item [phrase .statement])
    (fuel : Nat) : Follows c (untilDone done item fuel) [phrase .statements] := by
  induction fuel generalizing c with
  | zero => exact .rule [] (by decide) .pure
  | succ fuel ih =>
    obtain ⟨b, hb⟩ := hdone c
    cases b with
    | true =>
      refine .congr (q := pure []) ?_ (.rule [] (by decide) .pure)
      simp only [untilDone, Bind.bind, EStateM.bind, hb, if_pos]
    | false =>
      refine .congr (q := item >>= fun first => untilDone done item fuel >>= fun others =>
        pure (first :: others)) ?_ ?_
      · simp only [untilDone, Bind.bind, EStateM.bind, hb, if_neg Bool.false_ne_true]
      · refine .rule [phrase .statement, phrase .statements] (by decide) ?_
        exact .next (hitem c) fun _ _ => .last ih

theorem follows_parameterNames (function : String) (fuel : Nat) (seen : List String)
    (hfuel : c.rest.length < fuel) :
    Follows c (parameterNames function fuel seen) [phrase .names] := by
  induction fuel generalizing seen c with
  | zero => omega
  | succ fuel ih =>
    refine .rule [tok .identifier, phrase .moreNames] (by decide) ?_
    refine .bind (.expect (by decide)) fun _ ts c' _ hreads => ?_
    have hlength := hreads.length
    split
    · exact .reject_other nofun
    · by_cases hcomma : c'.current.kind = .comma
      · refine .rule [tok .comma, phrase .names] (by decide) ?_
        exact .consumed hcomma (by decide) fun c'' hlt => ih _ (by omega)
      · exact .rule [] (by decide) (.passed hcomma .pure)

section Statements

variable (hstmt : ∀ c, Follows c statement [phrase .statement])

include hstmt

theorem follows_braces (c : Cursor) : Follows c (braces statement) [phrase .block] := by
  refine .rule [tok .lbrace, phrase .statements, tok .rbrace] (by decide) ?_
  refine .token (by decide) fun _ c => .bound ?_
  refine .next (follows_untilDone (fun c => ⟨_, rfl⟩) hstmt _) fun _ c => ?_
  exact .last (.expect (by decide))

theorem follows_bodyItem (keyword : Token) (c : Cursor) :
    Follows c (bodyItem keyword statement) [phrase .statement] := by
  refine .current ?_
  split
  · exact .reject_current
  · exact .reject_other nofun
  · exact hstmt c

theorem follows_bodyDeclaration (c : Cursor) :
    Follows c (bodyDeclaration statement) [phrase .body] := by
  refine .rule _ (by decide : ⟨.body, [tok .body, tok .at, tok .lparen, tok .style, tok .colon,
    phrase .style, tok .rparen, phrase .statements, tok .slash, tok .body, phrase .ending]⟩ ∈
      productions) ?_
  refine .token (by decide) fun keyword c => ?_
  refine .token (by decide) fun _ c => ?_
  refine .token (by decide) fun _ c => ?_
  refine .token (by decide) fun _ c => ?_
  refine .token (by decide) fun _ c => ?_
  refine .next (.expect_of_mem (by decide) fun hmem => ?_) fun _ c => ?_
  · have hk : c.current.kind = .string ∨ c.current.kind = .identifier := by simpa using hmem
    rcases hk with hk | hk <;> rw [hk] <;> exact .rule (by decide) (.tok _)
  refine .token (by decide) fun _ c => .bound ?_
  refine .bind (follows_untilDone (fun c => ⟨_, rfl⟩) (follows_bodyItem hstmt keyword) _) ?_
  refine fun _ _ c _ _ => .token (by decide) fun _ c => ?_
  refine .token (by decide) fun _ c => ?_
  by_cases hsemicolon : c.current.kind = .semicolon
  · refine .rule [tok .semicolon] (by decide) ?_
    exact .consumed hsemicolon (by decide) fun _ _ => .pure
  · exact .rule [] (by decide) (.passed hsemicolon .pure)

end Statements

section Simple

variable (hexpr : ∀ c, Follows c expression [phrase .expression])

include hexpr

theorem follows_propertyDeclaration (hkind : c.current.kind = k) (hne : k ≠ .eof)
    (hmem : ⟨.property, [tok k, phrase .arguments, tok .semicolon]⟩ ∈ productions) :
    Follows c (propertyDeclaration expression) [phrase .property] := by
  refine .rule _ hmem (.next (.advance_tok hkind hne) fun _ c => ?_)
  split
  · exact .fault _
  · refine .next (follows_argumentList hexpr c) fun _ c => ?_
    split
    · exact .last (.expect (by decide))
    · exact .reject_other nofun

theorem follows_variableDeclaration (c : Cursor) :
    Follows c (variableDeclaration expression) [phrase .declaration] := by
  intro hc
  by_cases hconst : c.current.kind = .const
  · -- the keyword says that there is a value
    refine Follows.rule
      [tok .const, tok .identifier, tok .assign, phrase .expression, tok .semicolon]
      (by decide) (.bind (.expect_of_mem (by decide) fun _ => hconst ▸ .tok _) ?_) hc
    intro k _ c hk _
    obtain ⟨rfl, hmem, hlexed⟩ := of_expect hc (by decide) hk
    obtain ⟨kind, hkind, hbinds⟩ := ofKeyword_of_lexed hmem hlexed
    rw [hconst] at hbinds
    rw [hkind]
    dsimp only
    refine .token (by decide) fun name c => ?_
    by_cases hassign : c.current.kind = .assign
    · refine .consumed hassign (by decide) fun c _ => ?_
      rw [if_pos rfl]
      refine .next (hexpr c) fun _ c => .pure_bind ?_
      exact .last (.expect (by decide))
    · refine .passed hassign ?_
      cases hbinds
      exact .current (.reject_bind .reject_current)
  -- any other keyword that fits leaves it open whether there is a value
  · have hlet : c.current.kind ∈ [TokenKind.let, .const] →
        Generates [tok .let] [c.current.kind] := by
      intro hmem
      have hk : c.current.kind = .let := by simpa [hconst] using hmem
      exact hk ▸ .tok _
    refine Follows.rule [tok .let, tok .identifier, phrase .initializer, tok .semicolon] (by decide)
      (.next (.expect_of_mem (by decide) hlet) fun _ c => ?_) hc
    split
    · exact .fault _
    refine .token (by decide) fun name c => ?_
    by_cases hassign : c.current.kind = .assign
    · refine .expand [tok .assign, phrase .expression] (by decide) ?_
      refine .consumed hassign (by decide) fun c _ => ?_
      rw [if_pos rfl]
      refine .next (hexpr c) fun _ c => .pure_bind ?_
      exact .last (.expect (by decide))
    · refine .passed hassign ?_
      rw [if_neg Bool.false_ne_true]
      split
      · exact .current (.reject_bind .reject_current)
      · refine .expand [] (by decide) (.pure_bind ?_)
        exact .last (.expect (by decide))

theorem follows_parenthesized (c : Cursor) :
    Follows c (parenthesized expression) [phrase .test] := by
  refine .rule [tok .lparen, phrase .expression, tok .rparen] (by decide) ?_
  refine .token (by decide) fun _ c => .next (hexpr c) fun _ c => ?_
  exact .last (.expect (by decide))

theorem follows_expressionStatement (c : Cursor) :
    Follows c (expressionStatement expression) [phrase .expression, tok .semicolon] := by
  refine .current (.next (hexpr c) fun _ c => ?_)
  exact .last (.expect (by decide))

theorem follows_optionalBefore (kind : TokenKind) (c : Cursor) :
    Follows c (optionalBefore kind expression) [phrase .option] := by
  refine .looksAt ?_
  split
  · exact .rule [] (by decide) .pure
  · exact .rule [phrase .expression] (by decide) (.last (hexpr c))

theorem follows_forInit (c : Cursor) : Follows c (forInit expression) [phrase .init] := by
  refine .looksAt ?_
  split
  · exact .rule [phrase .declaration] (by decide) (.last (follows_variableDeclaration hexpr c))
  · by_cases hsemicolon : c.current.kind = .semicolon
    · exact .rule [tok .semicolon] (by decide) (.consumed hsemicolon (by decide) fun _ _ => .pure)
    · refine .rule [phrase .expression, tok .semicolon] (by decide) (.passed hsemicolon ?_)
      exact .append (follows_expressionStatement hexpr c) fun _ _ _ _ _ => .pure

theorem follows_returnStatement (c : Cursor) :
    Follows c (returnStatement expression) [phrase .statement] := by
  refine .rule [tok .return, phrase .option, tok .semicolon] (by decide) ?_
  refine .token (by decide) fun _ c => ?_
  refine .next (follows_optionalBefore hexpr _ c) fun _ c => ?_
  exact .last (.expect (by decide))

end Simple

section Compound

variable (hexpr : ∀ c, Follows c expression [phrase .expression])
  (hblock : ∀ c, Follows c block [phrase .block])

include hblock

theorem follows_functionDeclaration (c : Cursor) :
    Follows c (functionDeclaration block) [phrase .function] := by
  refine .rule [tok .func, tok .identifier, tok .lparen, phrase .parameters, tok .rparen,
    phrase .block] (by decide) ?_
  refine .token (by decide) fun _ c => ?_
  refine .token (by decide) fun _ c => ?_
  refine .token (by decide) fun _ c => .looksAt ?_
  split
  · refine .next (.rule [] (by decide) .pure) fun _ c => ?_
    refine .token (by decide) fun _ c => ?_
    exact .last (hblock c)
  · refine .bound (.next ?_ fun _ c => ?_)
    · exact .rule [phrase .names] (by decide)
        (follows_parameterNames _ _ _ (Nat.lt_succ_self _))
    · refine .token (by decide) fun _ c => ?_
      exact .last (hblock c)

include hexpr

theorem follows_alternate (fuel : Nat) :
    Follows c (alternate expression block fuel) [phrase .alternate] := by
  induction fuel generalizing c with
  | zero => exact .rule [] (by decide) .pure
  | succ fuel ih =>
    by_cases helse : c.current.kind = .else
    · refine .rule [tok .else, phrase .otherwise] (by decide) ?_
      refine .consumed helse (by decide) fun c _ => ?_
      rw [if_pos rfl]
      refine .looksAt ?_
      split
      · refine .rule [phrase .conditional] (by decide) ?_
        refine .rule [tok .if, phrase .test, phrase .block, phrase .alternate] (by decide) ?_
        refine .token (by decide) fun _ c => ?_
        refine .next (follows_parenthesized hexpr c) fun _ c => ?_
        refine .next (hblock c) fun _ c => ?_
        exact .last ih
      · exact .rule [phrase .block] (by decide) (.last (hblock c))
    · exact .rule [] (by decide) (.passed helse .pure)

theorem follows_ifStatement (c : Cursor) :
    Follows c (ifStatement expression block) [phrase .conditional] := by
  refine .rule [tok .if, phrase .test, phrase .block, phrase .alternate] (by decide) ?_
  refine .token (by decide) fun _ c => ?_
  refine .next (follows_parenthesized hexpr c) fun _ c => ?_
  refine .next (hblock c) fun _ c => .bound ?_
  exact .last (follows_alternate hexpr hblock _)

theorem follows_whileStatement (c : Cursor) :
    Follows c (whileStatement expression block) [phrase .statement] := by
  refine .rule [tok .while, phrase .test, phrase .block] (by decide) ?_
  refine .token (by decide) fun _ c => ?_
  refine .next (follows_parenthesized hexpr c) fun _ c => ?_
  exact .last (hblock c)

theorem follows_forStatement (c : Cursor) :
    Follows c (forStatement expression block) [phrase .statement] := by
  refine .rule [tok .for, tok .lparen, phrase .init, phrase .option, tok .semicolon, phrase .option,
    tok .rparen, phrase .block] (by decide) ?_
  refine .token (by decide) fun _ c => ?_
  refine .token (by decide) fun _ c => ?_
  refine .next (follows_forInit hexpr c) fun _ c => ?_
  refine .next (follows_optionalBefore hexpr _ c) fun _ c => ?_
  refine .token (by decide) fun _ c => ?_
  refine .next (follows_optionalBefore hexpr _ c) fun _ c => ?_
  refine .token (by decide) fun _ c => ?_
  exact .last (hblock c)

end Compound

/-- The parser of statements follows them. -/
theorem follows_statement (allowance : Nat) (c : Cursor) :
    Follows c (Parser.statement allowance) [phrase .statement] := by
  induction allowance generalizing c with
  | zero =>
    rw [Parser.statement]
    exact .tooDeep
  | succ allowance ih =>
    have hexpr := follows_expression allowance
    have hblock := follows_braces ih
    rw [Parser.statement]
    refine .current ?_
    split
    -- one rule of the grammar for each branch of the parser, in the parser's order
    iterate 5
      · next hk =>
        exact .rule [phrase .property] (by decide)
          (follows_propertyDeclaration hexpr hk (by decide) (by decide))
    · exact .rule [phrase .body] (by decide) (follows_bodyDeclaration ih c)
    · exact .rule [phrase .function] (by decide) (follows_functionDeclaration hblock c)
    iterate 2
      · exact .rule [phrase .declaration] (by decide) (.last (follows_variableDeclaration hexpr c))
    · exact .rule [phrase .conditional] (by decide) (follows_ifStatement hexpr hblock c)
    · exact follows_whileStatement hexpr hblock c
    · exact follows_forStatement hexpr hblock c
    · exact follows_returnStatement hexpr c
    · refine .rule [tok .break, tok .semicolon] (by decide) ?_
      refine .token (by decide) fun _ c => ?_
      exact .last (.expect (by decide))
    · refine .rule [tok .continue, tok .semicolon] (by decide) ?_
      refine .token (by decide) fun _ c => ?_
      exact .last (.expect (by decide))
    · exact .rule [phrase .block] (by decide) (.last (hblock c))
    · exact .rule [phrase .expression, tok .semicolon] (by decide)
        (.append (follows_expressionStatement hexpr c) fun _ _ _ _ _ => .pure)

/-- The parser of programs follows lists of statements. -/
theorem follows_program (allowance : Nat) (c : Cursor) :
    Follows c (Parser.program allowance) [phrase .statements] := by
  refine .current (.bound (.last ?_))
  exact follows_untilDone (fun c => ⟨_, rfl⟩) (follows_statement allowance) _

end Parser

open Grammar

/-- Scanned tokens stand at different places. -/
theorem Lexical.Scanned.index_unique {pos : Position} {tokens : List Token}
    (h : Lexical.Scanned pos tokens) {j k : Nat} {t u : Token} (ht : tokens[j]? = some t)
    (hu : tokens[k]? = some u) (hpos : t.pos = u.pos) : j = k := by
  obtain ⟨hj, rfl⟩ := List.getElem?_eq_some_iff.mp ht
  obtain ⟨hk, rfl⟩ := List.getElem?_eq_some_iff.mp hu
  have hordered := List.pairwise_iff_getElem.mp h.ordered
  rcases Nat.lt_trichotomy j k with hlt | heq | hlt
  · exact absurd hpos (hordered j k hj hk hlt).ne
  · exact heq
  · exact absurd hpos.symm (hordered k j hk hj hlt).ne

namespace Program

variable {allowance : Nat} {file : String} {pos : Position} {tokens : List Token}

/-- What is parsed is in the context-free language. -/
theorem mem_language_of_parseTokensWithin {p : Program} (hscanned : Lexical.Scanned pos tokens)
    (h : parseTokensWithin allowance file tokens = .ok p) :
    tokens.dropLast.map Token.kind ∈ contextFree.language := by
  obtain ⟨c, hc, hsound, rfl⟩ := Cursor.ofTokens_scanned hscanned
  obtain ⟨c', heq⟩ := (parseTokensWithin_eq_ok_iff hc).mp h
  have hafter := Parser.after_program allowance hsound hsound c (.refl c)
  have hfollows := Parser.follows_program allowance c hsound
  rw [heq] at hafter hfollows
  obtain ⟨ts, hreads, hall, -⟩ := hafter
  obtain ⟨us, hreads', hgenerates⟩ := hfollows
  -- both ways of following the parser end at the same cursor, so they have read the same tokens
  have hsame : [] ++ ts = us := List.append_cancel_right (hreads.1.symm.trans hreads'.1)
  rw [List.dropLast_concat, ← hall, hsame]
  exact mem_language_iff_generates.mpr hgenerates

/-- An unexpected token is reported where it stands: it is one of the tokens, and the tokens before
it begin a word of the context-free language. -/
theorem viable_of_unexpectedToken (allowance : Nat) (path file source : String)
    (tokens : List Token) (d : Diagnostic) (e : Expectation)
    (hscan : Token.scan path source = .ok tokens)
    (hparse : parseTokensWithin allowance file tokens = .error (.rejected d))
    (hunexpected : d.trouble = .unexpectedToken e) :
    (∃ (k : Nat) (t : Token),
      tokens[k]? = some t ∧ d.line = some t.pos.line ∧ d.column = some t.pos.column) ∧
    ∀ (k : Nat) (t : Token),
      tokens[k]? = some t → d.line = some t.pos.line → d.column = some t.pos.column →
        ∃ ks, (tokens.take k).map Token.kind ++ ks ∈ contextFree.language := by
  have hscanned := Token.scanned_scan hscan
  obtain ⟨c, hc, hsound, hrest⟩ := Cursor.ofTokens_scanned hscanned
  obtain ⟨f, c', heq, hf⟩ := (parseTokensWithin_eq_error_iff hc).mp hparse
  have hfollows := Parser.follows_program allowance c hsound
  rw [heq] at hfollows
  cases f with
  | nestedTooDeeply _ | fault _ => simp [ParseFailure.inFile] at hf
  | rejected d' =>
    obtain rfl : d'.inFile file = d := by simpa [ParseFailure.inFile] using hf
    obtain ⟨us, t, vs, htokens, hline, hcolumn, ks, hks⟩ := hfollows e hunexpected
    rw [← hrest] at htokens
    have ht : tokens[us.length]? = some t := by simp [htokens]
    refine ⟨⟨us.length, t, ht, hline, hcolumn⟩, fun k u hu hline' hcolumn' => ⟨ks, ?_⟩⟩
    -- the place tells the token, so the split of the tokens is the one at its index
    have hpos : t.pos = u.pos :=
      congrArg₂ Position.mk (Option.some.inj (hline.symm.trans hline'))
        (Option.some.inj (hcolumn.symm.trans hcolumn'))
    obtain rfl := hscanned.index_unique ht hu hpos
    rw [htokens, List.take_left]
    exact mem_language_iff_generates.mpr hks

/-- A call without its second argument, in a block that is not closed. -/
theorem viable_of_unexpectedToken_call :
    ∃ tokens d e, Token.scan "" "\x7bf(1,;" = .ok tokens ∧
      parseTokensWithin 50 "" tokens = .error (.rejected d) ∧ d.trouble = .unexpectedToken e ∧
      d.line = some 1 ∧ d.column = some 6 ∧
      ∃ ks, [.lbrace, .identifier, .lparen, .number, .comma] ++ ks ∈ contextFree.language := by
  have hscan : Token.scan "" "\x7bf(1,;" = .ok [⟨.lbrace, "\x7b", ⟨1, 1⟩⟩,
      ⟨.identifier, "f", ⟨1, 2⟩⟩, ⟨.lparen, "(", ⟨1, 3⟩⟩, ⟨.number, "1", ⟨1, 4⟩⟩,
      ⟨.comma, ",", ⟨1, 5⟩⟩, ⟨.semicolon, ";", ⟨1, 6⟩⟩, ⟨.eof, "", ⟨1, 7⟩⟩] := by rfl
  have hparse : parseTokensWithin 50 "" [⟨.lbrace, "\x7b", ⟨1, 1⟩⟩,
      ⟨.identifier, "f", ⟨1, 2⟩⟩, ⟨.lparen, "(", ⟨1, 3⟩⟩, ⟨.number, "1", ⟨1, 4⟩⟩,
      ⟨.comma, ",", ⟨1, 5⟩⟩, ⟨.semicolon, ";", ⟨1, 6⟩⟩, ⟨.eof, "", ⟨1, 7⟩⟩] =
      .error (.rejected ((Parser.expressionWanted ⟨.semicolon, ";", ⟨1, 6⟩⟩).inFile "")) := by cbv
  refine ⟨_, _, _, hscan, hparse, rfl, rfl, rfl, ?_⟩
  exact (viable_of_unexpectedToken 50 "" "" _ _ _ _ hscan hparse rfl).2 5 _ rfl rfl rfl

end Program

end MiniApp
