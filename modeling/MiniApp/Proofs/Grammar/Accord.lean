import MiniApp.Proofs.Grammar.Soundness

/-!
# Parsers under other bounds

Parsers are bounded in two ways, by the rounds of their loops and by their allowance of nesting, and
neither bound shows. A loop reads a token in every round, so more rounds than there are tokens to
come change nothing. Nesting reads a token at least every three levels, so with enough of an
allowance it makes no difference how much it is, and it is never used up. Both are followed at once,
by comparing a parser with itself under other bounds, and with it how far the parser moves the
cursor. No assumption is made about the tokens: they need not be lexemes of a text.

## Main definitions

* `Parser.Moves`: a parser has read tokens, and failed by nesting only for a reason
* `Parser.Accord`: two parsers do the same and move
* `Parser.Sufficient`, `Parser.Enough`: bounds between which it makes no difference

## Main results

* `Parser.accord_expression`, `Parser.accord_statement`: the recursive parsers
-/

namespace MiniApp

/-- Failures by nesting. -/
def ParseFailure.IsDeep : ParseFailure → Prop
  | .nestedTooDeeply _ => True
  | _ => False

namespace Parser

open Cursor (Reads)

variable {α β : Type} {deep : Prop} {k l m n : ℕ} {c c' : Cursor}

/-! ## Accord -/

/-- What has become of a cursor when a parser stops: tokens have been read, and if there is a
result, at least so many of them. A failure by nesting has a reason. -/
def Moves (deep : Prop) (least : ℕ) (c : Cursor) :
    EStateM.Result ParseFailure Cursor α → Prop
  | .ok _ c' => ∃ ts, c.Reads ts c' ∧ least ≤ ts.length
  | .error f c' => (∃ ts, c.Reads ts c') ∧ (f.IsDeep → deep)

namespace Moves

variable {r : EStateM.Result ParseFailure Cursor α}

theorem mono (h : Moves deep m c r) (hk : k ≤ m) : Moves deep k c r := by
  cases r with
  | ok a c' =>
    obtain ⟨ts, hreads, hts⟩ := h
    exact ⟨ts, hreads, hk.trans hts⟩
  | error f c' => exact h

/-- What has been read before is read along with it. -/
theorem after {ts : List Token} (h : Moves deep n c' r) (hreads : c.Reads ts c')
    (hts : m ≤ ts.length) : Moves deep (m + n) c r := by
  cases r with
  | ok b c'' =>
    obtain ⟨us, hreads', hus⟩ := h
    refine ⟨ts ++ us, hreads.trans hreads', ?_⟩
    rw [List.length_append]
    omega
  | error f c'' =>
    obtain ⟨⟨us, hreads'⟩, hdeep⟩ := h
    exact ⟨⟨ts ++ us, hreads.trans hreads'⟩, hdeep⟩

end Moves

/-- Two parsers do the same from a cursor on, and move it. -/
def Accord (deep : Prop) (least : ℕ) (c : Cursor) (p q : Parser α) : Prop :=
  c.stop.kind = .eof → p c = q c ∧ Moves deep least c (p c)

/-- Two parsers do the same and move, wherever fewer than so many tokens are to come. -/
def AccordBelow (deep : Prop) (least l : ℕ) (p q : Parser α) : Prop :=
  ∀ c : Cursor, c.rest.length < l → Accord deep least c p q

namespace Accord

protected theorem pure (a : α) : Accord deep 0 c (pure a) (pure a) :=
  fun _ => ⟨rfl, [], .refl c, le_rfl⟩

/-- What either of two parsers reads counts. -/
theorem append {p p' : Parser α} {q q' : α → Parser β} (hp : Accord deep m c p p')
    (hq : ∀ a c', c'.rest.length + m ≤ c.rest.length → Accord deep n c' (q a) (q' a)) :
    Accord deep (m + n) c (p >>= q) (p' >>= q') := by
  intro hstop
  obtain ⟨heq, hmoves⟩ := hp hstop
  rw [Parser.bind_apply, Parser.bind_apply, ← heq]
  cases h : p c with
  | error f c' =>
    rw [h] at hmoves
    exact ⟨rfl, hmoves⟩
  | ok a c' =>
    rw [h] at hmoves
    obtain ⟨ts, hreads, hts⟩ := hmoves
    have hlen := hreads.length
    -- the second parser goes on where the first one stopped
    obtain ⟨heq', hmoves'⟩ := hq a c' (by omega) (hreads.2 ▸ hstop)
    exact ⟨heq', hmoves'.after hreads hts⟩

theorem mono {p q : Parser α} (h : Accord deep m c p q) (hk : k ≤ m) : Accord deep k c p q :=
  fun hstop => ⟨(h hstop).1, (h hstop).2.mono hk⟩

/-- One parser after another: what the first one has read the second one need not read. -/
theorem bind {p p' : Parser α} {q q' : α → Parser β} (hp : Accord deep m c p p')
    (hq : ∀ a c', c'.rest.length + m ≤ c.rest.length → Accord deep (k - m) c' (q a) (q' a)) :
    Accord deep k c (p >>= q) (p' >>= q') :=
  (hp.append hq).mono (by omega)

/-! Looking at what comes next reads nothing; the rest of the parser may depend on it. -/

theorem current {q q' : Token → Parser β} (h : Accord deep n c (q c.current) (q' c.current)) :
    Accord deep n c (Parser.current >>= q) (Parser.current >>= q') := h

theorem looksAt {kinds : List TokenKind} {q q' : Bool → Parser β}
    (h : Accord deep n c (q (kinds.contains c.current.kind))
      (q' (kinds.contains c.current.kind))) :
    Accord deep n c (Parser.looksAt kinds >>= q) (Parser.looksAt kinds >>= q') := h

/-- A test that leaves the cursor where it is. -/
theorem test {done : Parser Bool} {b : Cursor → Bool} {q q' : Bool → Parser β}
    (hdone : ∀ c, done c = .ok (b c) c) (h : Accord deep n c (q (b c)) (q' (b c))) :
    Accord deep n c (done >>= q) (done >>= q') := by
  intro hstop
  rw [Parser.bind_apply, Parser.bind_apply, hdone]
  exact h hstop

theorem bound {q q' : ℕ → Parser β}
    (h : Accord deep n c (q (c.rest.length + 1)) (q' (c.rest.length + 1))) :
    Accord deep n c (Parser.bound >>= q) (Parser.bound >>= q') := h

/-- A token that is not the end marker is read. -/
theorem advance_of_ne (hne : c.current.kind ≠ .eof) :
    Accord deep 1 c Parser.advance Parser.advance := by
  intro hstop
  refine ⟨rfl, ?_⟩
  obtain ⟨previous, rest, stop⟩ := c
  cases rest with
  | nil => exact absurd hstop hne
  | cons t rest => exact ⟨[t], ⟨rfl, rfl⟩, le_rfl⟩

/-- The end marker is not passed. -/
theorem advance : Accord deep 0 c Parser.advance Parser.advance := by
  intro hstop
  by_cases hne : c.current.kind = .eof
  · refine ⟨rfl, ?_⟩
    obtain ⟨previous, rest, stop⟩ := c
    cases rest with
    | nil => exact ⟨[], .refl _, le_rfl⟩
    | cons t rest => exact ⟨[t], ⟨rfl, rfl⟩, Nat.zero_le 1⟩
  · exact (advance_of_ne hne).mono (Nat.zero_le 1) hstop

theorem reject (d : Diagnostic) :
    Accord deep n c (Parser.reject (α := α) d) (Parser.reject d) :=
  fun _ => ⟨rfl, ⟨[], .refl c⟩, False.elim⟩

theorem fault (f : Fault) :
    Accord deep n c (throw (.fault f) : Parser α) (throw (.fault f)) :=
  fun _ => ⟨rfl, ⟨[], .refl c⟩, False.elim⟩

theorem tooDeep (h : deep) : Accord deep n c (Parser.tooDeep (α := α)) Parser.tooDeep :=
  fun _ => ⟨rfl, ⟨[], .refl c⟩, fun _ => h⟩

theorem ofFault (r : Except Fault α) : Accord deep 0 c (Parser.ofFault r) (Parser.ofFault r) := by
  cases r with
  | ok a => exact .pure a
  | error f => exact .fault f

/-- What is expected is read, unless it is the end marker. -/
theorem expect {kinds : List TokenKind} (hne : kinds.contains .eof = false) :
    Accord deep 1 c (Parser.expect kinds) (Parser.expect kinds) := by
  refine .looksAt ?_
  split
  · next hkind =>
    refine .advance_of_ne fun heof => ?_
    rw [heof, hne] at hkind
    cases hkind
  · exact fun _ => ⟨rfl, ⟨[], .refl c⟩, False.elim⟩

theorem consumeIf (kind : TokenKind) :
    Accord deep 0 c (Parser.consumeIf kind) (Parser.consumeIf kind) := by
  refine .looksAt ?_
  split
  · exact .bind .advance fun _ _ _ => .pure true
  · exact .pure false

/-- A token that may be missing is read if it comes next. -/
theorem consume {kind : TokenKind} {q q' : Bool → Parser β} (hne : kind ≠ .eof)
    (hyes : ∀ c', c'.rest.length + 1 ≤ c.rest.length →
      Accord deep (n - 1) c' (q true) (q' true))
    (hno : Accord deep n c (q false) (q' false)) :
    Accord deep n c (Parser.consumeIf kind >>= q) (Parser.consumeIf kind >>= q') := by
  rw [Parser.consumeIf, bind_assoc, bind_assoc]
  refine .looksAt ?_
  split
  · next hkind =>
    have heq : c.current.kind = kind := by simpa using hkind
    rw [bind_assoc, bind_assoc]
    refine .bind (.advance_of_ne (heq ▸ hne)) fun _ c' hc' => ?_
    rw [pure_bind, pure_bind]
    exact hyes c' hc'
  · rw [pure_bind, pure_bind]
    exact hno

end Accord

theorem AccordBelow.mono {p q : Parser α} (h : AccordBelow deep m l p q) (hl : k ≤ l) :
    AccordBelow deep m k p q :=
  fun c hc => h c (hc.trans_le hl)

/-! ## Loops -/

/-- Two numbers of rounds between which it makes no difference: they are the same, or both are more
than there are tokens to come. -/
def Sufficient (c : Cursor) (n m : ℕ) : Prop :=
  n = m ∨ c.rest.length < n ∧ c.rest.length < m

namespace Sufficient

theorem eq_zero (h : Sufficient c 0 m) : m = 0 := by
  rcases h with h | h <;> omega

theorem exists_succ (h : Sufficient c (n + 1) m) : ∃ k, m = k + 1 :=
  Nat.exists_eq_add_one_of_ne_zero (by rcases h with h | h <;> omega)

/-- One round less suffices once a token has been read. -/
theorem pred (h : Sufficient c (n + 1) (m + 1)) (hlen : c'.rest.length + 1 ≤ c.rest.length) :
    Sufficient c' n m := by
  rcases h with h | h
  · exact .inl (by omega)
  · exact .inr (by omega)

end Sufficient

section Loops

variable {item item' : Parser α} (hitem : AccordBelow deep 1 l item item')

include hitem

theorem accord_untilDone {done : Parser Bool} {b : Cursor → Bool}
    (hdone : ∀ c, done c = .ok (b c) c) (hc : c.rest.length < l) (hrounds : Sufficient c n m) :
    Accord deep 0 c (untilDone done item n) (untilDone done item' m) := by
  induction n generalizing m c with
  | zero =>
    obtain rfl := hrounds.eq_zero
    exact .pure []
  | succ n ih =>
    obtain ⟨m, rfl⟩ := hrounds.exists_succ
    refine .test hdone ?_
    split
    · exact .pure []
    · refine .bind (hitem c hc) fun _ c₁ h₁ => ?_
      -- the item has read a token, which pays for the round
      refine .bind (ih (by omega) (hrounds.pred h₁)) fun _ _ _ => ?_
      exact .pure _

theorem accord_commaSeparated (hc : c.rest.length < l) (hrounds : Sufficient c n m) :
    Accord deep 0 c (commaSeparated item n) (commaSeparated item' m) := by
  induction n generalizing m c with
  | zero =>
    obtain rfl := hrounds.eq_zero
    exact .pure []
  | succ n ih =>
    obtain ⟨m, rfl⟩ := hrounds.exists_succ
    refine .bind (hitem c hc) fun _ c₁ h₁ => ?_
    refine .bind (.consumeIf .comma) fun more c₂ h₂ => ?_
    split
    · refine .bind (ih (by omega) (hrounds.pred (by omega))) fun _ _ _ => ?_
      exact .pure _
    · exact .pure _

end Loops

theorem accord_parameterNames (function : String) (seen : List String)
    (hrounds : Sufficient c n m) :
    Accord deep 0 c (parameterNames function n seen) (parameterNames function m seen) := by
  induction n generalizing m c seen with
  | zero =>
    obtain rfl := hrounds.eq_zero
    exact .pure seen
  | succ n ih =>
    obtain ⟨m, rfl⟩ := hrounds.exists_succ
    refine .bind (.expect rfl) fun parameter c₁ h₁ => ?_
    split
    · exact .reject _
    · refine .bind (.consumeIf .comma) fun more c₂ h₂ => ?_
      split
      · exact ih _ (hrounds.pred (by omega))
      · exact .pure _

/-! ## Expressions -/

/-- No operator is the end marker. -/
theorem joinerAt_eof (ℓ : Grammar.Level) : joinerAt ℓ .eof = none := by
  cases ℓ <;> rfl

section Operators

variable {ℓ : Grammar.Level} {operand operand' : Parser Expr}

theorem accord_joins (hoperand : AccordBelow deep 1 l operand operand') (left : Expr)
    (hc : c.rest.length < l) (hrounds : Sufficient c n m) :
    Accord deep 0 c (joins (joinerAt ℓ) operand n left) (joins (joinerAt ℓ) operand' m left) := by
  induction n generalizing m c left with
  | zero =>
    obtain rfl := hrounds.eq_zero
    exact .pure left
  | succ n ih =>
    obtain ⟨m, rfl⟩ := hrounds.exists_succ
    refine .current ?_
    split
    · exact .pure left
    · next join hjoin =>
      -- an operator is a token that can be read, even if no operand follows
      have hne : c.current.kind ≠ .eof := fun heof => by
        rw [heof, joinerAt_eof] at hjoin
        cases hjoin
      refine .bind (.advance_of_ne hne) fun _ c₁ h₁ => ?_
      refine .bind (hoperand c₁ (by omega)) fun _ c₂ h₂ => ?_
      exact ih _ (by omega) (hrounds.pred (by omega))

theorem accord_leftAssociative (hoperand : AccordBelow deep 1 l operand operand') :
    AccordBelow deep 1 l (leftAssociative (joinerAt ℓ) operand)
      (leftAssociative (joinerAt ℓ) operand') := by
  intro c hc
  refine .bind (hoperand c hc) fun left c₁ h₁ => ?_
  refine .bound ?_
  exact accord_joins hoperand left (by omega) (.inl rfl)

/-- Levels of operators over the unary level, the loosest first. -/
def tower (unary : Parser Expr) (levels : List Grammar.Level) : Parser Expr :=
  levels.foldr (fun ℓ operand => leftAssociative (joinerAt ℓ) operand) unary

theorem operators_eq_tower (unary : Parser Expr) :
    operators unary =
      tower unary [.disjunction, .conjunction, .equality, .order, .sum, .product] := rfl

theorem accord_tower {unary unary' : Parser Expr} (h : AccordBelow deep 1 l unary unary')
    (levels : List Grammar.Level) :
    AccordBelow deep 1 l (tower unary levels) (tower unary' levels) := by
  induction levels with
  | nil => exact h
  | cons ℓ tighter ih => exact accord_leftAssociative ih

theorem accord_operators {unary unary' : Parser Expr} (h : AccordBelow deep 1 l unary unary') :
    AccordBelow deep 1 l (operators unary) (operators unary') := by
  rw [operators_eq_tower, operators_eq_tower]
  exact accord_tower h _

end Operators

section Arguments

variable {expression expression' : Parser Expr}
variable (hexpr : AccordBelow deep 1 l expression expression')

include hexpr

theorem accord_argumentList :
    AccordBelow deep 1 (l + 1) (argumentList expression) (argumentList expression') := by
  intro c hc
  -- a token that is always read makes room for one more to come: hence `l + 1` here and below
  refine .bind (.expect rfl) fun _ c₁ h₁ => ?_
  refine .looksAt ?_
  split
  · refine .bind (.pure []) fun arguments c₂ h₂ => ?_
    exact .bind (.expect rfl) fun _ _ _ => .pure _
  · refine .bound ?_
    refine .bind (accord_commaSeparated hexpr (by omega) (.inl rfl)) fun arguments c₂ h₂ => ?_
    exact .bind (.expect rfl) fun _ _ _ => .pure _

theorem accord_callSuffixes (callee : Expr) (hc : c.rest.length < l + 1)
    (hrounds : Sufficient c n m) :
    Accord deep 0 c (callSuffixes expression n callee) (callSuffixes expression' m callee) := by
  induction n generalizing m c callee with
  | zero =>
    obtain rfl := hrounds.eq_zero
    exact .pure callee
  | succ n ih =>
    obtain ⟨m, rfl⟩ := hrounds.exists_succ
    refine .looksAt ?_
    split
    -- the opening parenthesis has been read at least
    · refine .bind (accord_argumentList hexpr c hc) fun arguments c₁ h₁ => ?_
      exact ih _ (by omega) (hrounds.pred (by omega))
    · exact .pure callee

end Arguments

/-- Two allowances of nesting between which it makes no difference: they are the same, or both are
as large as the tokens to come can ask for, three units a token and some more. -/
def Enough (deep : Prop) (more a b : ℕ) (c : Cursor) : Prop :=
  a = b ∧ deep ∨ more + 3 * c.rest.length ≤ a ∧ more + 3 * c.rest.length ≤ b

namespace Enough

variable {more a b : ℕ}

theorem eq_zero (h : Enough deep (more + 1) 0 b c) : b = 0 ∧ deep := by
  rcases h with ⟨h, hdeep⟩ | h
  · exact ⟨h.symm, hdeep⟩
  · omega

theorem exists_succ (h : Enough deep (more + 1) (a + 1) b c) : ∃ d, b = d + 1 :=
  Nat.exists_eq_add_one_of_ne_zero (by rcases h with ⟨h, -⟩ | h <;> omega)

theorem mono {less : ℕ} (h : Enough deep more a b c)
    (hlen : less + 3 * c'.rest.length ≤ more + 3 * c.rest.length) : Enough deep less a b c' := by
  rcases h with h | h
  · exact .inl h
  · exact .inr (by omega)

/-- A unit is spent; what is left suffices if enough has been read for it. -/
theorem spend {less : ℕ} (h : Enough deep more (a + 1) (b + 1) c)
    (hlen : less + 1 + 3 * c'.rest.length ≤ more + 3 * c.rest.length) :
    Enough deep less a b c' := by
  rcases h with ⟨h, hdeep⟩ | h
  · exact .inl ⟨by omega, hdeep⟩
  · exact .inr (by omega)

end Enough

section Recursion

variable {a b : ℕ}

theorem accord_expression_succ (h : Enough deep 4 (a + 1) (b + 1) c)
    (hexpr : ∀ c, Enough deep 4 a b c → Accord deep 1 c (expression a) (expression b))
    (hunary : ∀ c, Enough deep 3 a b c → Accord deep 1 c (unary a) (unary b)) :
    Accord deep 1 c (expression (a + 1)) (expression (b + 1)) := by
  rw [expression, expression]
  -- the operands may begin where the expression does, so nothing has been read for the unit spent
  have hunary' : AccordBelow deep 1 (c.rest.length + 1) (unary a) (unary b) :=
    fun c' hc' => hunary c' (h.spend (by omega))
  refine .bind (accord_operators hunary' c (by omega)) fun target c₁ h₁ => ?_
  refine .looksAt ?_
  split
  · refine .bind .advance fun operator c₂ h₂ => ?_
    refine .bind (hexpr c₂ (h.spend (by omega))) fun value c₃ h₃ => ?_
    split
    · exact .pure _
    · exact .reject _
  · exact .pure target

theorem accord_unary_succ (h : Enough deep 3 (a + 1) (b + 1) c)
    (hexpr : ∀ c, Enough deep 4 a b c → Accord deep 1 c (expression a) (expression b))
    (hunary : ∀ c, Enough deep 3 a b c → Accord deep 1 c (unary a) (unary b))
    (hprimary : ∀ c, Enough deep 2 a b c → Accord deep 1 c (primary a) (primary b)) :
    Accord deep 1 c (unary (a + 1)) (unary (b + 1)) := by
  rw [unary, unary]
  refine .looksAt ?_
  split
  · next hkind =>
    have hne : c.current.kind ≠ .eof := fun heof => by simp [heof] at hkind
    refine .bind (.advance_of_ne hne) fun operator c₁ h₁ => ?_
    refine .bind (hunary c₁ (h.spend (by omega))) fun operand c₂ h₂ => ?_
    exact .pure _
  · refine .bind (hprimary c (h.spend (by omega))) fun callee c₁ h₁ => ?_
    have hexpr' : AccordBelow deep 1 c.rest.length (expression a) (expression b) :=
      fun c' hc' => hexpr c' (h.spend (by omega))
    exact .bound (accord_callSuffixes hexpr' callee (by omega) (.inl rfl))

theorem accord_primary_succ (h : Enough deep 2 (a + 1) (b + 1) c)
    (hexpr : ∀ c, Enough deep 4 a b c → Accord deep 1 c (expression a) (expression b)) :
    Accord deep 1 c (primary (a + 1)) (primary (b + 1)) := by
  rw [primary, primary]
  have hexpr' : AccordBelow deep 1 c.rest.length (expression a) (expression b) :=
    fun c' hc' => hexpr c' (h.spend (by omega))
  refine .current ?_
  split
  · next hkind =>
    refine .bind (.advance_of_ne (by simp [hkind])) fun _ c₁ h₁ => ?_
    exact .bind (.ofFault _) fun _ _ _ => .pure _
  · next hkind => exact .bind (.advance_of_ne (by simp [hkind])) fun _ _ _ => .pure _
  · next hkind => exact .bind (.advance_of_ne (by simp [hkind])) fun _ _ _ => .pure _
  · next hkind => exact .bind (.advance_of_ne (by simp [hkind])) fun _ _ _ => .pure _
  · next hkind => exact .bind (.advance_of_ne (by simp [hkind])) fun _ _ _ => .pure _
  -- parentheses and content calls go on to expressions, but behind a token
  · next hkind =>
    refine .bind (.advance_of_ne (by simp [hkind])) fun _ c₁ h₁ => ?_
    refine .bind (hexpr' c₁ (by omega)) fun inner c₂ h₂ => ?_
    exact .bind (.expect rfl) fun _ _ _ => .pure _
  · next hkind =>
    refine .bind (.advance_of_ne (by simp [hkind])) fun _ c₁ h₁ => ?_
    exact .bind (accord_argumentList hexpr' c₁ (by omega)) fun _ _ _ => .pure _
  · exact .reject _

/-- The three parsers call one another, each with one unit of allowance less. What they need differs
by one, since not every call has read a token before. -/
theorem accord_expression_unary_primary (a : ℕ) : ∀ b c,
    (Enough deep 4 a b c → Accord deep 1 c (expression a) (expression b)) ∧
      (Enough deep 3 a b c → Accord deep 1 c (unary a) (unary b)) ∧
      (Enough deep 2 a b c → Accord deep 1 c (primary a) (primary b)) := by
  induction a with
  | zero =>
    intro b c
    refine ⟨fun h => ?_, fun h => ?_, fun h => ?_⟩ <;> obtain ⟨rfl, hdeep⟩ := h.eq_zero
    · rw [expression]
      exact .tooDeep hdeep
    · rw [unary]
      exact .tooDeep hdeep
    · rw [primary]
      exact .tooDeep hdeep
  | succ a ih =>
    intro b c
    have hexpr : ∀ b c, Enough deep 4 a b c → _ := fun b c => (ih b c).1
    have hunary : ∀ b c, Enough deep 3 a b c → _ := fun b c => (ih b c).2.1
    have hprimary : ∀ b c, Enough deep 2 a b c → _ := fun b c => (ih b c).2.2
    refine ⟨fun h => ?_, fun h => ?_, fun h => ?_⟩ <;> obtain ⟨b, rfl⟩ := h.exists_succ
    · exact accord_expression_succ h (hexpr b) (hunary b)
    · exact accord_unary_succ h (hexpr b) (hunary b) (hprimary b)
    · exact accord_primary_succ h (hexpr b)

theorem accord_expression (h : Enough deep 4 a b c) :
    Accord deep 1 c (expression a) (expression b) :=
  (accord_expression_unary_primary a b c).1 h

end Recursion

/-! ## Statements -/

section Parts

variable {expression expression' : Parser Expr}
variable (hexpr : AccordBelow deep 1 l expression expression')

include hexpr

theorem accord_parenthesized :
    AccordBelow deep 1 (l + 1) (parenthesized expression) (parenthesized expression') := by
  intro c hc
  refine .bind (.expect rfl) fun _ c₁ h₁ => ?_
  refine .bind (hexpr c₁ (by omega)) fun test c₂ h₂ => ?_
  exact .bind (.expect rfl) fun _ _ _ => .pure test

theorem accord_optionalBefore (kind : TokenKind) :
    AccordBelow deep 0 l (optionalBefore kind expression) (optionalBefore kind expression') := by
  intro c hc
  refine .looksAt ?_
  split
  · exact .pure none
  · exact .bind (hexpr c hc) fun value _ _ => .pure (some value)

theorem accord_expressionStatement :
    AccordBelow deep 1 l (expressionStatement expression) (expressionStatement expression') := by
  intro c hc
  refine .current ?_
  refine .bind (hexpr c hc) fun value c₁ h₁ => ?_
  exact .bind (.expect rfl) fun _ _ _ => .pure _

theorem accord_variableDeclaration :
    AccordBelow deep 1 (l + 1) (variableDeclaration expression)
      (variableDeclaration expression') := by
  intro c hc
  refine .bind (.expect rfl) fun keyword c₁ h₁ => ?_
  split
  · exact .fault _
  · refine .bind (.expect rfl) fun name c₂ h₂ => ?_
    refine .bind (.consumeIf .assign) fun given c₃ h₃ => ?_
    split
    · refine .bind (hexpr c₃ (by omega)) fun value c₄ h₄ => ?_
      refine .bind (.pure _) fun init c₅ h₅ => ?_
      exact .bind (.expect rfl) fun _ _ _ => .pure _
    · split
      · refine .current ?_
        exact .bind (.reject _ (n := 0)) fun _ _ _ => .bind (.expect rfl) fun _ _ _ => .pure _
      · exact .bind (.pure _) fun _ _ _ => .bind (.expect rfl) fun _ _ _ => .pure _

theorem accord_forInit :
    AccordBelow deep 1 l (forInit expression) (forInit expression') := by
  intro c hc
  refine .looksAt ?_
  split
  · refine .bind (accord_variableDeclaration hexpr c (by omega)) fun d _ _ => ?_
    exact .pure _
  · refine .consume (by decide) (fun _ _ => .pure _) ?_
    exact .bind (accord_expressionStatement hexpr c hc) fun _ _ _ => .pure _

theorem accord_propertyDeclaration :
    AccordBelow deep 1 (l + 1) (propertyDeclaration expression)
      (propertyDeclaration expression') := by
  intro c hc
  refine .bind .advance fun keyword c₁ h₁ => ?_
  split
  · exact .fault _
  · refine .bind (accord_argumentList hexpr c₁ (by omega)) fun arguments c₂ h₂ => ?_
    split
    · exact .bind (.expect rfl) fun _ _ _ => .pure _
    · exact .reject _

theorem accord_returnStatement :
    AccordBelow deep 1 (l + 1) (returnStatement expression) (returnStatement expression') := by
  intro c hc
  refine .bind (.expect rfl) fun keyword c₁ h₁ => ?_
  refine .bind (accord_optionalBefore hexpr _ c₁ (by omega)) fun value c₂ h₂ => ?_
  exact .bind (.expect rfl) fun _ _ _ => .pure _

section Blocks

variable {block block' : Parser Block} (hblock : AccordBelow deep 1 (l + 1) block block')

include hblock

theorem accord_alternate (hc : c.rest.length < l + 1) (hrounds : Sufficient c n m) :
    Accord deep 0 c (alternate expression block n) (alternate expression' block' m) := by
  induction n generalizing m c with
  | zero =>
    obtain rfl := hrounds.eq_zero
    exact .pure Else.none
  | succ n ih =>
    obtain ⟨m, rfl⟩ := hrounds.exists_succ
    refine .bind (.consumeIf .else) fun more c₁ h₁ => ?_
    split
    · refine .looksAt ?_
      split
      · refine .bind (.expect rfl) fun keyword c₂ h₂ => ?_
        refine .bind (accord_parenthesized hexpr c₂ (by omega)) fun test c₃ h₃ => ?_
        refine .bind (hblock c₃ (by omega)) fun consequent c₄ h₄ => ?_
        refine .bind (ih (by omega) (hrounds.pred (by omega))) fun rest c₅ h₅ => ?_
        exact .pure _
      · exact .bind (hblock c₁ (by omega)) fun last _ _ => .pure _
    · exact .pure Else.none

theorem accord_ifStatement :
    AccordBelow deep 1 (l + 1) (ifStatement expression block)
      (ifStatement expression' block') := by
  intro c hc
  refine .bind (.expect rfl) fun keyword c₁ h₁ => ?_
  refine .bind (accord_parenthesized hexpr c₁ (by omega)) fun test c₂ h₂ => ?_
  refine .bind (hblock c₂ (by omega)) fun consequent c₃ h₃ => ?_
  refine .bound ?_
  exact .bind (accord_alternate hexpr hblock (by omega) (.inl rfl)) fun rest _ _ => .pure _

theorem accord_whileStatement :
    AccordBelow deep 1 (l + 1) (whileStatement expression block)
      (whileStatement expression' block') := by
  intro c hc
  refine .bind (.expect rfl) fun keyword c₁ h₁ => ?_
  refine .bind (accord_parenthesized hexpr c₁ (by omega)) fun test c₂ h₂ => ?_
  exact .bind (hblock c₂ (by omega)) fun body _ _ => .pure _

theorem accord_forStatement :
    AccordBelow deep 1 (l + 1) (forStatement expression block)
      (forStatement expression' block') := by
  intro c hc
  refine .bind (.expect rfl) fun keyword c₁ h₁ => ?_
  refine .bind (.expect rfl) fun _ c₂ h₂ => ?_
  refine .bind (accord_forInit hexpr c₂ (by omega)) fun init c₃ h₃ => ?_
  refine .bind (accord_optionalBefore hexpr _ c₃ (by omega)) fun test c₄ h₄ => ?_
  refine .bind (.expect rfl) fun _ c₅ h₅ => ?_
  refine .bind (accord_optionalBefore hexpr _ c₅ (by omega)) fun update c₆ h₆ => ?_
  refine .bind (.expect rfl) fun _ c₇ h₇ => ?_
  exact .bind (hblock c₇ (by omega)) fun body _ _ => .pure _

end Blocks

end Parts

theorem accord_functionDeclaration {block block' : Parser Block}
    (hblock : AccordBelow deep 1 (l + 1) block block') :
    AccordBelow deep 1 (l + 1) (functionDeclaration block) (functionDeclaration block') := by
  intro c hc
  refine .bind (.expect rfl) fun keyword c₁ h₁ => ?_
  refine .bind (.expect rfl) fun name c₂ h₂ => ?_
  refine .bind (.expect rfl) fun _ c₃ h₃ => ?_
  refine .looksAt ?_
  split
  · refine .bind (.pure _) fun parameters c₄ h₄ => ?_
    refine .bind (.expect rfl) fun _ c₅ h₅ => ?_
    exact .bind (hblock c₅ (by omega)) fun body _ _ => .pure _
  · refine .bound ?_
    refine .bind (accord_parameterNames _ _ (.inl rfl)) fun parameters c₄ h₄ => ?_
    refine .bind (.expect rfl) fun _ c₅ h₅ => ?_
    exact .bind (hblock c₅ (by omega)) fun body _ _ => .pure _

section Statements

variable {statement statement' : Parser Stmt}
variable (hstmt : AccordBelow deep 1 l statement statement')

include hstmt

theorem accord_braces :
    AccordBelow deep 1 (l + 1) (braces statement) (braces statement') := by
  intro c hc
  refine .bind (.expect rfl) fun brace c₁ h₁ => ?_
  refine .bound ?_
  refine .bind (accord_untilDone hstmt (fun _ => rfl) (by omega) (.inl rfl)) fun body c₂ h₂ => ?_
  exact .bind (.expect rfl) fun _ _ _ => .pure _

theorem accord_bodyItem (keyword : Token) :
    AccordBelow deep 1 l (bodyItem keyword statement) (bodyItem keyword statement') := by
  intro c hc
  refine .current ?_
  split
  · exact .reject _
  · exact .reject _
  · exact hstmt c hc

theorem accord_bodyDeclaration :
    AccordBelow deep 1 (l + 1) (bodyDeclaration statement) (bodyDeclaration statement') := by
  intro c hc
  refine .bind (.expect rfl) fun keyword c₁ h₁ => ?_
  refine .bind (.expect rfl) fun _ c₂ h₂ => ?_
  refine .bind (.expect rfl) fun _ c₃ h₃ => ?_
  refine .bind (.expect rfl) fun _ c₄ h₄ => ?_
  refine .bind (.expect rfl) fun _ c₅ h₅ => ?_
  refine .bind (.expect rfl) fun style c₆ h₆ => ?_
  refine .bind (.expect rfl) fun _ c₇ h₇ => ?_
  refine .bound ?_
  refine .bind (accord_untilDone (accord_bodyItem hstmt keyword) (fun _ => rfl) (by omega)
    (.inl rfl)) fun content c₈ h₈ => ?_
  refine .bind (.expect rfl) fun _ c₉ h₉ => ?_
  refine .bind (.expect rfl) fun _ c₁₀ h₁₀ => ?_
  exact .bind (.consumeIf _) fun _ _ _ => .pure _

end Statements

/-- A statement, of parts that accord. Only a statement that is an expression begins with a part. -/
theorem accord_statement_succ {a b : ℕ}
    (hexpr : AccordBelow deep 1 (c.rest.length + 1) (expression a) (expression b))
    (hstmt : AccordBelow deep 1 c.rest.length (statement a) (statement b)) :
    Accord deep 1 c (statement (a + 1)) (statement (b + 1)) := by
  rw [statement, statement]
  have hexpr' := hexpr.mono (Nat.le_succ _)
  have hblock := accord_braces hstmt
  have hc := Nat.lt_succ_self c.rest.length
  refine .current ?_
  split
  · exact accord_propertyDeclaration hexpr' c hc
  · exact accord_propertyDeclaration hexpr' c hc
  · exact accord_propertyDeclaration hexpr' c hc
  · exact accord_propertyDeclaration hexpr' c hc
  · exact accord_propertyDeclaration hexpr' c hc
  · exact accord_bodyDeclaration hstmt c hc
  · exact accord_functionDeclaration hblock c hc
  · exact .bind (accord_variableDeclaration hexpr' c hc) fun d _ _ => .pure _
  · exact .bind (accord_variableDeclaration hexpr' c hc) fun d _ _ => .pure _
  · exact accord_ifStatement hexpr' hblock c hc
  · exact accord_whileStatement hexpr' hblock c hc
  · exact accord_forStatement hexpr' hblock c hc
  · exact accord_returnStatement hexpr' c hc
  · exact .bind (.expect rfl) fun keyword _ _ => .bind (.expect rfl) fun _ _ _ => .pure _
  · exact .bind (.expect rfl) fun keyword _ _ => .bind (.expect rfl) fun _ _ _ => .pure _
  · exact .bind (hblock c hc) fun b _ _ => .pure _
  · exact .bind (accord_expressionStatement hexpr c hc) fun _ _ _ => .pure _

theorem accord_statement {a b : ℕ} (h : Enough deep 5 a b c) :
    Accord deep 1 c (statement a) (statement b) := by
  induction a generalizing b c with
  | zero =>
    obtain ⟨rfl, hdeep⟩ := h.eq_zero
    rw [statement]
    exact .tooDeep hdeep
  | succ a ih =>
    obtain ⟨b, rfl⟩ := h.exists_succ
    exact accord_statement_succ (fun c' hc' => accord_expression (h.spend (by omega)))
      fun c' hc' => ih (h.spend (by omega))

end Parser

end MiniApp
