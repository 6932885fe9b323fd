import MiniApp.Proofs.Grammar.Soundness

/-!
# Derived trees are parsed

Whatever the grammar derives from some tokens, the parsers find there, as long as the token behind
the phrase does not continue it. Nothing is guessed on the way: the token that comes next always
tells which rule was used. The induction is on the allowance, not on derivations; only the levels of
operators, whose rules are recursive on the left, are first brought into the order in which the
parser meets their operands.

## Main definitions

* `Parser.Yields`: a parser gives a certain result, unless its allowance is too small
* `Grammar.continues`: the kinds of token that continue a phrase of a level
* `Grammar.Operations`, `Grammar.Calls`: a phrase of a level from its first operand on

## Main results

* `Parser.accepts_expression`, `Parser.accepts_statement`: the recursive parsers
* `Parser.yields_program`: whole programs
-/

namespace MiniApp

namespace Parser

variable {α β : Type} {stop : Token} {input mid rest : List Token}

/-- The token that comes next when the tokens `input` are still to be read. -/
def upcoming (stop : Token) (input : List Token) : Token := input.head?.getD stop

@[simp]
theorem upcoming_cons (t : Token) (ts : List Token) : upcoming stop (t :: ts) = t := rfl

@[simp]
theorem upcoming_nil : upcoming stop [] = stop := rfl

/-- `Yields stop p input a rest`: with the tokens `input` to be read, the parser `p` gives `a` and
leaves the tokens `rest`, or its allowance does not suffice. -/
def Yields (stop : Token) (p : Parser α) (input : List Token) (a : α) (rest : List Token) : Prop :=
  ∀ c : Cursor, c.rest = input → c.stop = stop →
    match p c with
    | .ok b c' => b = a ∧ c'.rest = rest ∧ c'.stop = stop
    | .error e _ => ∃ d, e = .nestedTooDeeply d

/-- `Accepts stop p G follow`: the parser `p` finds every phrase that the grammar `G` derives, if
`follow` allows the token behind it. -/
def Accepts (stop : Token) (p : Parser α) (G : List Token → α → Prop)
    (follow : TokenKind → Prop) : Prop :=
  ∀ ts a rest, G ts a → (∀ t ∈ ts, t.Lexed) → follow (upcoming stop rest).kind →
    Yields stop p (ts ++ rest) a rest

namespace Yields

protected theorem pure (a : α) : Yields stop (pure a) input a input := fun _ h h' => ⟨rfl, h, h'⟩

theorem bind {p : Parser α} {q : α → Parser β} {a : α} {b : β} (h : Yields stop p input a mid)
    (h' : Yields stop (q a) mid b rest) : Yields stop (p >>= q) input b rest := by
  intro c hrest hstop
  have hp := h c hrest hstop
  rw [Parser.bind_apply]
  generalize p c = result at hp ⊢
  cases result with
  | ok a' c' =>
    obtain ⟨rfl, hrest', hstop'⟩ := hp
    exact h' c' hrest' hstop'
  | error e c' => exact hp

theorem current : Yields stop Parser.current input (upcoming stop input) input := by
  rintro c rfl rfl
  exact ⟨rfl, rfl, rfl⟩

theorem looksAt (kinds : List TokenKind) :
    Yields stop (Parser.looksAt kinds) input (kinds.contains (upcoming stop input).kind) input := by
  rintro c rfl rfl
  exact ⟨rfl, rfl, rfl⟩

theorem bound : Yields stop Parser.bound input (input.length + 1) input := by
  rintro c rfl rfl
  exact ⟨rfl, rfl, rfl⟩

theorem advance (t : Token) : Yields stop Parser.advance (t :: input) t input := by
  intro c hrest hstop
  rw [Parser.advance, hrest]
  exact ⟨rfl, rfl, hstop⟩

theorem expect {kinds : List TokenKind} {t : Token} (h : t.kind ∈ kinds) :
    Yields stop (Parser.expect kinds) (t :: input) t input := by
  refine .bind (.looksAt kinds) ?_
  rw [if_pos (by simpa using h)]
  exact .advance t

theorem token {kind : TokenKind} {t : Token} (h : t.kind = kind) :
    Yields stop (Parser.expect [kind]) (t :: input) t input :=
  .expect (List.mem_singleton.mpr h)

theorem consumeIf {kind : TokenKind} {t : Token} (h : t.kind = kind) :
    Yields stop (Parser.consumeIf kind) (t :: input) true input := by
  refine .bind (.looksAt [kind]) ?_
  rw [if_pos (by simp [h])]
  exact .bind (.advance t) (.pure true)

theorem consumeIf_not {kind : TokenKind} (h : (upcoming stop input).kind ≠ kind) :
    Yields stop (Parser.consumeIf kind) input false input := by
  refine .bind (.looksAt [kind]) ?_
  rw [if_neg (by simpa using h)]
  exact .pure false

theorem tooDeep (a : α) : Yields stop Parser.tooDeep input a rest := fun _ _ _ => ⟨_, rfl⟩

theorem ofFault {x : Except Fault α} {a : α} (h : x = .ok a) :
    Yields stop (Parser.ofFault x) input a input := by
  rw [h]
  exact .pure a

end Yields

end Parser

namespace Grammar

/-! ## Expressions -/

/-- Where a level stands, from the loosest to the tightest. -/
def Level.rank : Level → Nat
  | .assignment => 0
  | .disjunction => 1
  | .conjunction => 2
  | .equality => 3
  | .order => 4
  | .sum => 5
  | .product => 6
  | .unary => 7
  | .call => 8
  | .primary => 9

/-- The level that has a rule in which a token of this kind stands behind its first part. -/
def extends? : TokenKind → Option Level
  | .assign => some .assignment
  | .or => some .disjunction
  | .and => some .conjunction
  | .eq | .ne => some .equality
  | .lt | .gt | .le | .ge => some .order
  | .plus | .minus => some .sum
  | .star | .slash | .percent => some .product
  | .lparen => some .call
  | _ => none

/-- The kinds of token that continue a phrase of a level: those of this level or of a tighter one. -/
def continues (ℓ : Level) (kind : TokenKind) : Bool := (extends? kind).any (ℓ.rank ≤ ·.rank)

theorem extends_of_joins {ℓ : Level} {kind : TokenKind} {join : Position → Expr → Expr → Expr}
    (h : Joins ℓ kind join) : extends? kind = some ℓ := by
  cases h <;> rfl

theorem Level.rank_next {ℓ m : Level} (h : ℓ.next? = some m) : m.rank = ℓ.rank + 1 := by
  cases ℓ <;> cases h <;> rfl

theorem continues_of_next {ℓ m : Level} {kind : TokenKind} (hnext : ℓ.next? = some m)
    (h : continues m kind = true) : continues ℓ kind = true := by
  rw [continues, Option.any_eq_true] at h ⊢
  obtain ⟨n, hn, hrank⟩ := h
  refine ⟨n, hn, ?_⟩
  have := Level.rank_next hnext
  simp only [decide_eq_true_eq] at hrank ⊢
  omega

theorem not_continues_of_next {ℓ m : Level} {kind : TokenKind} (hnext : ℓ.next? = some m)
    (h : continues ℓ kind = false) : continues m kind = false :=
  Bool.eq_false_iff.mpr fun hm => Bool.eq_false_iff.mp h (continues_of_next hnext hm)

/-- An operator of a level does not continue the operands of that level. -/
theorem not_continues_of_joins {ℓ m : Level} {kind : TokenKind}
    {join : Position → Expr → Expr → Expr} (hnext : ℓ.next? = some m) (h : Joins ℓ kind join) :
    continues m kind = false := by
  have := Level.rank_next hnext
  simp [continues, extends_of_joins h, this]

theorem Leads.mem {kind : TokenKind} {op : UnaryOp} (h : Leads kind op) :
    kind ∈ [TokenKind.not, .minus] := by
  cases h <;> simp

theorem Leads.unique {kind : TokenKind} {op op' : UnaryOp} (h : Leads kind op)
    (h' : Leads kind op') : op = op' := by
  cases h <;> cases h' <;> rfl

theorem Binds.mem {kind : TokenKind} {d : DeclarationKind} (h : Binds kind d) :
    kind ∈ [TokenKind.let, .const] := by
  cases h <;> simp

theorem Binds.unique {kind : TokenKind} {d d' : DeclarationKind} (h : Binds kind d)
    (h' : Binds kind d') : d = d' := by
  cases h <;> cases h' <;> rfl

theorem Declares.isProperty {kind : TokenKind} {p : Property} (h : Declares kind p) :
    kind.isProperty = true := by
  cases h <;> rfl

theorem Declares.unique {kind : TokenKind} {p p' : Property} (h : Declares kind p)
    (h' : Declares kind p') : p = p' := by
  cases h <;> cases h' <;> rfl

/-- `Operations ℓ m left ts e`: the tokens `ts` are operators of level `ℓ` with operands of level
`m`, and make `e` of what stands to their left. -/
inductive Operations (ℓ m : Level) : Expr → List Token → Expr → Prop
  | nil {left : Expr} : Operations ℓ m left [] left
  | cons {o : Token} {join : Position → Expr → Expr → Expr} {us vs : List Token}
      {left right e : Expr} :
      Joins ℓ o.kind join → DerivesExpr m us right →
      Operations ℓ m (join left.pos left right) vs e → Operations ℓ m left (o :: us ++ vs) e

theorem Operations.snoc {ℓ m : Level} {o : Token} {join : Position → Expr → Expr → Expr}
    {ts us : List Token} {first left right : Expr} (h : Operations ℓ m first ts left)
    (hjoins : Joins ℓ o.kind join) (hright : DerivesExpr m us right) :
    Operations ℓ m first (ts ++ o :: us) (join left.pos left right) := by
  induction h with
  | nil => simpa using Operations.cons hjoins hright .nil
  | cons hjoins' hright' _ ih => simpa using Operations.cons hjoins' hright' ih

/-- A phrase of a level of operators from its first operand on. -/
theorem DerivesExpr.operations : ∀ {ℓ m : Level} {ts : List Token} {e : Expr},
    DerivesExpr ℓ ts e → ℓ.next? = some m → ℓ.rank ∈ [1, 2, 3, 4, 5, 6] →
      ∃ us vs left, ts = us ++ vs ∧ DerivesExpr m us left ∧ Operations ℓ m left vs e
  | _, _, _, _, .tighter hnext h, hm, _ => by
    obtain rfl := Option.some.inj (hnext.symm.trans hm)
    exact ⟨_, [], _, by simp, h, .nil⟩
  | _, _, _, _, @DerivesExpr.joined _ _ _ _ _ _ _ _ hnext hjoins hleft hright, hm, hℓ => by
    obtain rfl := Option.some.inj (hnext.symm.trans hm)
    obtain ⟨us, vs, first, rfl, hfirst, hops⟩ := hleft.operations hnext hℓ
    exact ⟨us, _, first, by simp, hfirst, hops.snoc hjoins hright⟩
  | _, _, _, _, .assign .., _, hℓ | _, _, _, _, .led .., _, hℓ | _, _, _, _, .call .., _, hℓ
  | _, _, _, _, .number .., _, hℓ | _, _, _, _, .string .., _, hℓ | _, _, _, _, .bool .., _, hℓ
  | _, _, _, _, .null .., _, hℓ | _, _, _, _, .ident .., _, hℓ | _, _, _, _, .parens .., _, hℓ
  | _, _, _, _, .content .., _, hℓ => by simp [Level.rank] at hℓ

/-- `Calls f ts e`: the tokens `ts` are argument lists, and make `e` of the function `f`. -/
inductive Calls : Expr → List Token → Expr → Prop
  | nil {f : Expr} : Calls f [] f
  | cons {us vs : List Token} {f e : Expr} {es : List Expr} :
      DerivesArgs us es → Calls (.call f.pos f es) vs e → Calls f (us ++ vs) e

theorem Calls.snoc {ts us : List Token} {first f : Expr} {es : List Expr} (h : Calls first ts f)
    (hes : DerivesArgs us es) : Calls first (ts ++ us) (.call f.pos f es) := by
  induction h with
  | nil => simpa using Calls.cons hes .nil
  | cons hes' _ ih => simpa using Calls.cons hes' ih

/-- A phrase of the level of calls from its function on. -/
theorem DerivesExpr.calls : ∀ {ts : List Token} {e : Expr}, DerivesExpr .call ts e →
    ∃ us vs f, ts = us ++ vs ∧ DerivesExpr .primary us f ∧ Calls f vs e
  | _, _, .tighter hnext h => by
    obtain rfl := Option.some.inj hnext
    exact ⟨_, [], _, by simp, h, .nil⟩
  | _, _, .call hf hes => by
    obtain ⟨us, vs, first, rfl, hfirst, hcalls⟩ := hf.calls
    exact ⟨us, _, first, by simp, hfirst, hcalls.snoc hes⟩

/-- No operator stands before a phrase of the level of calls. -/
theorem DerivesExpr.call_starts {t : Token} {ts : List Token} {e : Expr}
    (h : DerivesExpr .call (t :: ts) e) : t.kind ≠ .not ∧ t.kind ≠ .minus := by
  -- the first token is that of the function, which is a primary phrase
  obtain ⟨us, vs, f, heq, hf, -⟩ := h.calls
  obtain ⟨t', us', rfl, -⟩ := hf.starts
  obtain ⟨rfl, -⟩ := List.cons.inj heq
  generalize hx : t :: us' = xs at hf
  cases hf with
  | tighter hnext => cases hnext
  | joined hnext => cases hnext
  | number h | string h | bool h | null h | ident h | parens h | content h =>
    obtain ⟨rfl, -⟩ := List.cons.inj hx
    simp [h]

end Grammar

namespace Parser

open Grammar

variable {stop : Token}

theorem joinerAt_of_joins {ℓ : Level} {kind : TokenKind} {join : Position → Expr → Expr → Expr}
    (h : Joins ℓ kind join) : joinerAt ℓ kind = some join := by
  cases h <;> rfl

theorem joinerAt_of_not_continues {ℓ : Level} {kind : TokenKind}
    (h : continues ℓ kind = false) : joinerAt ℓ kind = none := by
  cases hjoin : joinerAt ℓ kind with
  | none => rfl
  | some join =>
    simp [continues, extends_of_joins (joins_of_joinerAt hjoin)] at h

section Operators

variable {operand : Parser Expr} {ℓ m : Level} {rest : List Token}

/-- Behind an operand stands an operator or what follows the whole phrase. -/
theorem not_continues_operations {left e : Expr} {vs : List Token} (hnext : ℓ.next? = some m)
    (h : Operations ℓ m left vs e) (hfollow : continues ℓ (upcoming stop rest).kind = false) :
    continues m (upcoming stop (vs ++ rest)).kind = false := by
  cases h with
  | nil => exact not_continues_of_next hnext hfollow
  | cons hjoins _ _ => exact not_continues_of_joins hnext hjoins

theorem yields_joins (hnext : ℓ.next? = some m)
    (hoperand : Accepts stop operand (DerivesExpr m) (continues m · = false))
    (hfollow : continues ℓ (upcoming stop rest).kind = false) {left e : Expr} {vs : List Token}
    (h : Operations ℓ m left vs e) (hlexed : ∀ t ∈ vs, t.Lexed) (fuel : Nat)
    (hfuel : vs.length < fuel) :
    Yields stop (joins (joinerAt ℓ) operand fuel left) (vs ++ rest) e rest := by
  -- every operation reads its operator, so the rounds given suffice for all of them
  induction h generalizing fuel with
  | nil =>
    obtain ⟨fuel, rfl⟩ := Nat.exists_eq_add_of_lt hfuel
    refine .bind .current ?_
    rw [List.nil_append, joinerAt_of_not_continues hfollow]
    exact .pure _
  | @cons o join us vs left right e hjoins hright hops ih =>
    obtain ⟨fuel, rfl⟩ : ∃ n, fuel = n + 1 := ⟨fuel - 1, by omega⟩
    refine .bind .current ?_
    simp only [List.cons_append, upcoming_cons, joinerAt_of_joins hjoins, List.append_assoc]
    refine .bind (.advance o) (.bind (hoperand us right _ hright ?_ ?_) (ih ?_ fuel ?_))
    · exact fun t ht => hlexed t (by simp [ht])
    · exact not_continues_operations hnext hops hfollow
    · exact fun t ht => hlexed t (by simp [ht])
    · simp at hfuel
      omega

theorem accepts_leftAssociative (hnext : ℓ.next? = some m) (hℓ : ℓ.rank ∈ [1, 2, 3, 4, 5, 6])
    (hoperand : Accepts stop operand (DerivesExpr m) (continues m · = false)) :
    Accepts stop (leftAssociative (joinerAt ℓ) operand) (DerivesExpr ℓ)
      (continues ℓ · = false) := by
  intro ts e rest h hlexed hfollow
  obtain ⟨us, vs, left, rfl, hleft, hops⟩ := h.operations hnext hℓ
  rw [List.append_assoc]
  refine .bind (hoperand us left _ hleft ?_ ?_) (.bind .bound ?_)
  · exact fun t ht => hlexed t (by simp [ht])
  · exact not_continues_operations hnext hops hfollow
  · refine yields_joins hnext hoperand hfollow hops ?_ _ ?_
    · exact fun t ht => hlexed t (by simp [ht])
    · rw [List.length_append]
      omega

theorem accepts_operators {unary : Parser Expr}
    (h : Accepts stop unary (DerivesExpr .unary) (continues .unary · = false)) :
    Accepts stop (operators unary) (DerivesExpr .disjunction)
      (continues .disjunction · = false) :=
  have hproduct := accepts_leftAssociative (ℓ := .product) rfl (by decide) h
  have hsum := accepts_leftAssociative (ℓ := .sum) rfl (by decide) hproduct
  have horder := accepts_leftAssociative (ℓ := .order) rfl (by decide) hsum
  have hequality := accepts_leftAssociative (ℓ := .equality) rfl (by decide) horder
  have hconjunction := accepts_leftAssociative (ℓ := .conjunction) rfl (by decide) hequality
  accepts_leftAssociative (ℓ := .disjunction) rfl (by decide) hconjunction

end Operators

section Arguments

variable {expression : Parser Expr}
  (hexpr : Accepts stop expression (DerivesExpr .assignment) (continues .assignment · = false))

include hexpr

theorem yields_commaSeparated {rest : List Token}
    (hfollow : continues .assignment (upcoming stop rest).kind = false)
    (hcomma : (upcoming stop rest).kind ≠ .comma) (fuel : Nat) {ts : List Token} {es : List Expr}
    (h : DerivesList ts es) (hlexed : ∀ t ∈ ts, t.Lexed) (hfuel : ts.length < fuel) :
    Yields stop (commaSeparated expression fuel) (ts ++ rest) es rest := by
  induction fuel generalizing ts es with
  | zero => omega
  | succ fuel ih =>
    cases h with
    | @one _ e he =>
      refine .bind (hexpr ts e rest he hlexed hfollow) ?_
      exact .bind (.consumeIf_not hcomma) (.pure _)
    | @more o us vs e es he ho hes =>
      -- a comma does not continue the expression before it
      simp only [List.append_assoc, List.cons_append]
      refine .bind (hexpr us e _ he ?_ ?_) (.bind (.consumeIf ho) ?_)
      · exact fun t ht => hlexed t (by simp [ht])
      · simp [ho, continues, extends?]
      · refine .bind (ih hes ?_ ?_) (.pure _)
        · exact fun t ht => hlexed t (by simp [ht])
        · simp at hfuel
          omega

theorem accepts_argumentList :
    Accepts stop (argumentList expression) DerivesArgs fun _ => True := by
  intro ts es rest h hlexed _
  cases h with
  | @none o c ho hc =>
    refine .bind (.token ho) (.bind (.looksAt _) ?_)
    rw [if_pos (by simp [hc])]
    exact .bind (.pure _) (.bind (.token hc) (.pure _))
  | @some o c us es ho hes hc =>
    obtain ⟨t, us', rfl, ht⟩ := hes.starts
    simp only [List.cons_append, List.append_assoc, List.nil_append]
    refine .bind (.token ho) (.bind (.looksAt _) ?_)
    -- what begins an expression does not close the list
    rw [if_neg]
    · have hloop : ∀ n, (t :: us').length < n → Yields stop (commaSeparated expression n)
          (t :: us' ++ c :: rest) es (c :: rest) := by
        intro n hn
        refine yields_commaSeparated hexpr ?_ ?_ n hes ?_ hn
        · simp [hc, continues, extends?]
        · simp [hc]
        · exact fun u hu => hlexed u (List.mem_cons_of_mem _ (List.mem_append_left _ hu))
      refine .bind .bound (.bind (hloop _ ?_) (.bind (.token hc) (.pure _)))
      rw [← List.cons_append, List.length_append]
      omega
    · intro hkind
      have hkind : t.kind = .rparen := by simpa using hkind
      simp [hkind, startsExpr] at ht

theorem yields_callSuffixes {rest : List Token} (hfollow : (upcoming stop rest).kind ≠ .lparen)
    {f e : Expr} {ts : List Token} (h : Calls f ts e) (hlexed : ∀ t ∈ ts, t.Lexed) (fuel : Nat)
    (hfuel : ts.length < fuel) :
    Yields stop (callSuffixes expression fuel f) (ts ++ rest) e rest := by
  -- every list of arguments reads its parenthesis, so the rounds given suffice here too
  induction h generalizing fuel with
  | nil =>
    obtain ⟨fuel, rfl⟩ := Nat.exists_eq_add_of_lt hfuel
    refine .bind (.looksAt _) ?_
    rw [if_neg (by simpa using hfollow)]
    exact .pure _
  | @cons us vs f e es hes hcalls ih =>
    obtain ⟨fuel, rfl⟩ : ∃ n, fuel = n + 1 := ⟨fuel - 1, by omega⟩
    have hlen : 0 < us.length := by
      obtain ⟨t, us', rfl, -⟩ := hes.starts
      simp
    rw [List.append_assoc]
    refine .bind (.looksAt _) ?_
    rw [if_pos]
    · refine .bind (accepts_argumentList hexpr us es _ hes ?_ trivial) (ih ?_ fuel ?_)
      · exact fun t ht => hlexed t (by simp [ht])
      · exact fun t ht => hlexed t (by simp [ht])
      · rw [List.length_append] at hfuel
        omega
    · obtain ⟨t, us', rfl, ht⟩ := hes.starts
      simp [ht]

end Arguments

section Recursion

variable {allowance : Nat}
  (hexpr : Accepts stop (expression allowance) (DerivesExpr .assignment)
      (continues .assignment · = false))

include hexpr

theorem accepts_expression_succ
    (hunary : Accepts stop (unary allowance) (DerivesExpr .unary) (continues .unary · = false)) :
    Accepts stop (expression (allowance + 1)) (DerivesExpr .assignment)
      (continues .assignment · = false) := by
  intro ts e rest h hlexed hfollow
  have hoperators := accepts_operators hunary
  rw [expression]
  cases h with
  | tighter hnext h =>
    obtain rfl := Option.some.inj hnext
    have hoperand := hoperators ts e rest h hlexed (not_continues_of_next hnext hfollow)
    refine .bind hoperand (.bind (.looksAt _) ?_)
    rw [if_neg]
    · exact .pure _
    · intro hkind
      have hkind : (upcoming stop rest).kind = .assign := by simpa using hkind
      simp [hkind, continues, extends?] at hfollow
  | @assign o us vs pos name e htarget ho hvalue =>
    -- the target is read first, as an operand like any other
    simp only [List.append_assoc, List.cons_append]
    refine .bind (hoperators us _ _ htarget ?_ ?_) (.bind (.looksAt _) ?_)
    · exact fun t ht => hlexed t (by simp [ht])
    · simp [ho, continues, extends?, Level.rank]
    · rw [if_pos (by simp [ho])]
      refine .bind (.advance o) (.bind (hexpr vs e rest hvalue ?_ hfollow) (.pure _))
      exact fun t ht => hlexed t (by simp [ht])
  | joined _ hjoins => cases hjoins

theorem accepts_unary_succ
    (hunary : Accepts stop (unary allowance) (DerivesExpr .unary) (continues .unary · = false))
    (hprimary : Accepts stop (primary allowance) (DerivesExpr .primary) fun _ => True) :
    Accepts stop (unary (allowance + 1)) (DerivesExpr .unary) (continues .unary · = false) := by
  intro ts e rest h hlexed hfollow
  rw [unary]
  cases h with
  | tighter hnext h =>
    obtain rfl := Option.some.inj hnext
    -- no sign leads, so the parser goes on to calls
    obtain ⟨t, ts', rfl, -⟩ := h.starts
    have hnot := h.call_starts
    obtain ⟨us, vs, f, heq, hf, hcalls⟩ := h.calls
    rw [heq] at hlexed
    refine .bind (.looksAt _) ?_
    rw [if_neg (by simpa using hnot), heq, List.append_assoc]
    refine .bind (hprimary us f _ hf ?_ trivial) (.bind .bound ?_)
    · exact fun t ht => hlexed t (by simp [ht])
    · refine yields_callSuffixes hexpr ?_ hcalls ?_ _ ?_
      · intro hkind
        simp [hkind, continues, extends?, Level.rank] at hfollow
      · exact fun t ht => hlexed t (by simp [ht])
      · rw [List.length_append]
        omega
  | joined _ hjoins => cases hjoins
  | @led o op us e hleads he =>
    have hmem := hleads.mem
    have hop : UnaryOp.ofSymbol o.text = op :=
      (leads_ofSymbol hmem (hlexed o (by simp))).unique hleads
    refine .bind (.looksAt _) ?_
    rw [if_pos (by simpa using hmem)]
    refine .bind (.advance o) (.bind (hunary us e rest he ?_ hfollow) ?_)
    · exact fun t ht => hlexed t (by simp [ht])
    · rw [hop]
      exact .pure _

theorem accepts_primary_succ :
    Accepts stop (primary (allowance + 1)) (DerivesExpr .primary) fun _ => True := by
  -- each rule has a first token of its own kind, which decides the branch
  intro ts e rest h hlexed _
  rw [primary]
  cases h with
  | tighter hnext => cases hnext
  | joined hnext => cases hnext
  | @number t n hkind hread =>
    refine .bind .current ?_
    simp only [List.cons_append, List.nil_append, upcoming_cons, hkind]
    exact .bind (.advance t) (.bind (.ofFault hread) (.pure _))
  | @string t hkind | @bool t hkind | @null t hkind | @ident t hkind =>
    refine .bind .current ?_
    simp only [List.cons_append, List.nil_append, upcoming_cons, hkind]
    exact .bind (.advance t) (.pure _)
  | @parens o d us e ho he hd =>
    refine .bind .current ?_
    simp only [List.cons_append, List.append_assoc, List.nil_append, upcoming_cons, ho]
    refine .bind (.advance o) (.bind (hexpr us e _ he ?_ ?_) ?_)
    · exact fun t ht => hlexed t (by simp [ht])
    · simp [hd, continues, extends?]
    · exact .bind (.token hd) (.pure _)
  | @content t us es hkind hes =>
    refine .bind .current ?_
    simp only [List.cons_append, upcoming_cons, hkind]
    refine .bind (.advance t) (.bind ?_ (.pure _))
    exact accepts_argumentList hexpr us es rest hes (fun t ht => hlexed t (by simp [ht])) trivial

end Recursion

theorem accepts_expression_unary_primary (allowance : Nat) :
    Accepts stop (expression allowance) (DerivesExpr .assignment)
        (continues .assignment · = false) ∧
      Accepts stop (unary allowance) (DerivesExpr .unary) (continues .unary · = false) ∧
      Accepts stop (primary allowance) (DerivesExpr .primary) fun _ => True := by
  induction allowance with
  | zero =>
    rw [expression, unary, primary]
    exact ⟨fun _ e _ _ _ _ => .tooDeep e, fun _ e _ _ _ _ => .tooDeep e,
      fun _ e _ _ _ _ => .tooDeep e⟩
  | succ allowance ih =>
    obtain ⟨hexpr, hunary, hprimary⟩ := ih
    exact ⟨accepts_expression_succ hexpr hunary, accepts_unary_succ hexpr hunary hprimary,
      accepts_primary_succ hexpr⟩

theorem accepts_expression (allowance : Nat) :
    Accepts stop (expression allowance) (DerivesExpr .assignment)
      (continues .assignment · = false) :=
  (accepts_expression_unary_primary allowance).1

/-! ## Statements -/

/-- The kinds of token that may stand behind any statement: not the start of an alternative and not
the semicolon that may end a body section. -/
def Separates (kind : TokenKind) : Prop := kind ≠ .else ∧ kind ≠ .semicolon

theorem separates_of_starts {kind : TokenKind} (h : startsStmt kind = true) : Separates kind := by
  constructor <;> rintro rfl <;> simp [startsStmt, startsExpr] at h

theorem not_contains_of_starts {kinds : List TokenKind} {kind : TokenKind}
    (hkinds : ∀ k ∈ kinds, startsStmt k = false) (h : startsStmt kind = true) :
    kinds.contains kind = false := by
  apply Bool.eq_false_iff.mpr
  intro hmem
  simp [hkinds kind (List.contains_iff_mem.mp hmem)] at h

/-- Behind a statement stands the next one, or what follows them all. -/
theorem separates_upcoming {rest ts : List Token} {ss : List Stmt} (h : DerivesStmts ts ss)
    (hfollow : Separates (upcoming stop rest).kind) :
    Separates (upcoming stop (ts ++ rest)).kind := by
  cases h with
  | nil => exact hfollow
  | cons hs _ =>
    obtain ⟨t, us, rfl, ht⟩ := hs.starts
    exact separates_of_starts ht

/-- Whether a section would end when some tokens are still to be read. -/
def endsBody (stop : Token) (input : List Token) : Bool :=
  (upcoming stop input).kind = .slash && (upcoming stop input.tail).kind = .body

theorem yields_atBodyEnd {input : List Token} :
    Yields stop atBodyEnd input (endsBody stop input) input := by
  rintro c rfl rfl
  exact ⟨rfl, rfl, rfl⟩

/-- A slash begins no statement, so the end of a section is not met early. -/
theorem endsBody_of_starts {t : Token} {ts : List Token} (ht : startsStmt t.kind = true) :
    endsBody stop (t :: ts) = false := by
  apply Bool.eq_false_iff.mpr
  intro hk
  have hk : t.kind = .slash := of_decide_eq_true (Bool.and_eq_true _ _ ▸ hk).1
  simp [hk, startsStmt, startsExpr] at ht

/-- A parser of statements finds them when nothing is asked of them. -/
theorem Accepts.any {statement : Parser Stmt} (h : Accepts stop statement DerivesStmt Separates) :
    Accepts stop statement (fun ts s => DerivesStmt ts s ∧ True) Separates := by
  simpa using h

theorem yields_untilDone {done : Parser Bool} {D : List Token → Bool} {item : Parser Stmt}
    {P : Stmt → Prop} {rest : List Token}
    (hdone : ∀ input, Yields stop done input (D input) input)
    (hmore : ∀ t us, startsStmt t.kind = true → D (t :: us) = false)
    (hitem : Accepts stop item (fun ts s => DerivesStmt ts s ∧ P s) Separates)
    (hend : D rest = true) (hfollow : Separates (upcoming stop rest).kind) (fuel : Nat)
    {ts : List Token} {ss : List Stmt} (h : DerivesStmts ts ss) (hP : ∀ s ∈ ss, P s)
    (hlexed : ∀ t ∈ ts, t.Lexed) (hfuel : ts.length < fuel) :
    Yields stop (untilDone done item fuel) (ts ++ rest) ss rest := by
  induction fuel generalizing ts ss with
  | zero => omega
  | succ fuel ih =>
    cases h with
    | nil =>
      refine .bind (hdone _) ?_
      rw [List.nil_append, if_pos hend]
      exact .pure _
    | @cons us vs s ss hs hss =>
      obtain ⟨t, us', rfl, ht⟩ := hs.starts
      refine .bind (hdone _) ?_
      rw [List.append_assoc, List.cons_append, if_neg (by simp [hmore t _ ht])]
      have hbehind := separates_upcoming hss hfollow
      refine .bind (hitem (t :: us') s _ ⟨hs, hP s (by simp)⟩ ?_ hbehind) ?_
      · exact fun t ht => hlexed t (List.mem_append_left _ ht)
      refine .bind (ih hss ?_ ?_ ?_) (.pure _)
      · exact fun s hs => hP s (List.mem_cons_of_mem _ hs)
      · exact fun t ht => hlexed t (List.mem_append_right _ ht)
      · simp only [List.length_append, List.length_cons] at hfuel
        omega

theorem ofKeyword_of_binds {t : Token} {d : DeclarationKind} (h : Binds t.kind d) (ht : t.Lexed) :
    DeclarationKind.ofKeyword? t.text = some d := by
  obtain ⟨d', hd', hbinds⟩ := ofKeyword_of_lexed h.mem ht
  rw [hd', hbinds.unique h]

theorem ofKeyword_of_declares {t : Token} {p : Property} (h : Declares t.kind p) (ht : t.Lexed) :
    Property.ofKeyword? t.text = some p := by
  obtain ⟨p', hp', hdeclares⟩ := declares_of_lexed h.isProperty ht
  rw [hp', hdeclares.unique h]

section Parts

variable {expression : Parser Expr}
  (hexpr : Accepts stop expression (DerivesExpr .assignment) (continues .assignment · = false))

include hexpr

theorem accepts_parenthesized :
    Accepts stop (parenthesized expression) DerivesTest fun _ => True := by
  rintro _ e rest ⟨ho, he, hd⟩ hlexed _
  simp only [List.cons_append, List.append_assoc, List.nil_append]
  refine .bind (.token ho) (.bind (hexpr _ e _ he ?_ ?_) ?_)
  · exact fun t ht => hlexed t (by simp [ht])
  · simp [hd, continues, extends?]
  · exact .bind (.token hd) (.pure _)

theorem accepts_optionalBefore {kind : TokenKind} (hstart : startsExpr kind = false)
    (hend : continues .assignment kind = false) :
    Accepts stop (optionalBefore kind expression) DerivesOption (· = kind) := by
  intro ts value rest h hlexed hkind
  cases h with
  | none =>
    refine .bind (.looksAt _) ?_
    rw [List.nil_append, if_pos (by simp [hkind])]
    exact .pure _
  | @some _ e he =>
    obtain ⟨t, us, rfl, ht⟩ := he.starts
    refine .bind (.looksAt _) ?_
    rw [if_neg]
    · exact .bind (hexpr _ e rest he hlexed (hkind ▸ hend)) (.pure _)
    · intro heq
      have heq : t.kind = kind := by simpa using heq
      simp [← heq, ht] at hstart

theorem accepts_expressionStatement :
    Accepts stop (expressionStatement expression) DerivesTerminated fun _ => True := by
  rintro _ ⟨pos, e⟩ rest ⟨t, us, s, rfl, he, hs, rfl⟩ hlexed _
  rw [List.append_assoc]
  refine .bind .current (.bind (hexpr (t :: us) e _ he ?_ ?_) ?_)
  · exact fun u hu => hlexed u (List.mem_append_left _ hu)
  · simp [hs, continues, extends?]
  · exact .bind (.token hs) (.pure _)

theorem accepts_variableDeclaration : Accepts stop (variableDeclaration expression)
    (fun ts d => DerivesDecl ts d.pos d.kind d.name d.init) fun _ => True := by
  rintro ts ⟨pos, kind, name, init⟩ rest h hlexed _
  cases h with
  | @plain k t s hk ht hs =>
    refine .bind (.expect hk.mem) ?_
    rw [ofKeyword_of_binds hk (hlexed k (by simp))]
    refine .bind (.token ht) (.bind (.consumeIf_not (by simp [hs])) ?_)
    exact .bind (.pure _) (.bind (.token hs) (.pure _))
  | @init k t o s kind ts e hk ht ho he hs =>
    simp only [List.cons_append, List.append_assoc, List.nil_append]
    refine .bind (.expect hk.mem) ?_
    rw [ofKeyword_of_binds hk (hlexed k (by simp))]
    refine .bind (.token ht) (.bind (.consumeIf ho) ?_)
    rw [if_pos rfl]
    refine .bind (hexpr ts e _ he ?_ ?_) (.bind (.pure _) ?_)
    · exact fun t ht => hlexed t (by simp [ht])
    · simp [hs, continues, extends?]
    · exact .bind (.token hs) (.pure _)

theorem accepts_forInit : Accepts stop (forInit expression) DerivesInit fun _ => True := by
  intro ts init rest h hlexed _
  cases h with
  | @none s hs =>
    refine .bind (.looksAt _) ?_
    rw [if_neg (by simp [hs])]
    exact .bind (.consumeIf hs) (.pure _)
  | @declare _ pos kind name init hd =>
    obtain ⟨t, us, rfl, ht⟩ := hd.starts
    refine .bind (.looksAt _) ?_
    rw [if_pos (by simpa using ht.mem)]
    have := accepts_variableDeclaration hexpr _ ⟨pos, kind, name, init⟩ rest hd hlexed trivial
    exact .bind this (.pure _)
  | @expr t s us e he hs =>
    have ht := he.startsExpr_head
    -- an expression begins neither like a declaration nor with a semicolon
    refine .bind (.looksAt _) ?_
    rw [if_neg]
    · refine .bind (.consumeIf_not ?_) ?_
      · intro hkind
        have hkind : t.kind = .semicolon := hkind
        simp [hkind, startsExpr] at ht
      · have := accepts_expressionStatement hexpr _ (t.pos, e) rest ⟨t, us, s, rfl, he, hs, rfl⟩
          hlexed trivial
        exact .bind this (.pure _)
    · intro hkind
      have hkind : t.kind = .let ∨ t.kind = .const := by simpa using hkind
      rcases hkind with hkind | hkind <;> simp [hkind, startsExpr] at ht

end Parts

theorem styleReference_of_derives {t : Token} {style : Expr} (h : DerivesStyle t style) :
    styleReference t = style := by
  cases h with
  | string h => simp [styleReference, h]
  | ident h => simp [styleReference, h]

section Blocks

variable {statement : Parser Stmt} (hstmt : Accepts stop statement DerivesStmt Separates)

include hstmt

theorem accepts_braces : Accepts stop (braces statement) DerivesBlock fun _ => True := by
  intro ts b rest h hlexed _
  obtain @⟨o, d, us, ss, ho, hss, hd⟩ := h
  have hbody : ∀ n, us.length < n → Yields stop
      (untilDone (looksAt [.rbrace, .eof]) statement n) (us ++ d :: rest) ss (d :: rest) := by
    intro n hn
    refine yields_untilDone (fun _ => .looksAt _) ?_ hstmt.any ?_ ?_ n hss (by simp) ?_ hn
    · exact fun t us => not_contains_of_starts (by decide)
    · simp [hd]
    · simp [Separates, hd]
    · exact fun t ht => hlexed t (by simp [ht])
  simp only [List.cons_append, List.append_assoc, List.nil_append]
  refine .bind (.token ho) (.bind .bound (.bind (hbody _ ?_) ?_))
  · rw [List.length_append]
    omega
  · exact .bind (.token hd) (.pure _)

theorem accepts_bodyItem (keyword : Token) : Accepts stop (bodyItem keyword statement)
    (fun ts s => DerivesStmt ts s ∧ s.isBody = false) Separates := by
  rintro ts s rest ⟨hs, hbody⟩ hlexed hfollow
  obtain ⟨t, us, rfl, ht⟩ := hs.starts
  have hne : t.kind ≠ .body := fun hk => by simp [hs.isBody_iff.mpr hk] at hbody
  refine .bind .current ?_
  have := hstmt (t :: us) s rest hs hlexed hfollow
  simp only [List.cons_append, upcoming_cons]
  split
  · next hk => simp [hk, startsStmt, startsExpr] at ht
  · next hk => exact absurd hk hne
  · exact this

theorem accepts_bodyDeclaration : Accepts stop (bodyDeclaration statement)
    (fun ts s => DerivesStmt ts s ∧ s.isBody = true) Separates := by
  rintro ts s rest ⟨h, hbody⟩ hlexed hfollow
  cases h with
  | @body k a o y i t c d b style ts us content hk ha ho hy hi ht hc hcontent hflat hd hb hus =>
    have hloop : ∀ n, ts.length < n → Yields stop (untilDone atBodyEnd (bodyItem k statement) n)
        (ts ++ d :: b :: (us ++ rest)) content (d :: b :: (us ++ rest)) := by
      intro n hn
      refine yields_untilDone (fun _ => yields_atBodyEnd) (fun _ _ => endsBody_of_starts)
        (accepts_bodyItem hstmt k) ?_ ?_ n hcontent hflat ?_ hn
      · simp [endsBody, hd, hb]
      · simp [Separates, hd]
      · exact fun t ht => hlexed t (by simp [ht])
    simp only [List.cons_append, List.append_assoc]
    refine .bind (.token hk) (.bind (.token ha) ?_)
    refine .bind (.token ho) (.bind (.token hy) ?_)
    refine .bind (.token hi) (.bind (.expect (t := t) ?_) ?_)
    · cases ht <;> simp [*]
    refine .bind (.token hc) (.bind .bound (.bind (hloop _ ?_) ?_))
    · rw [List.length_append]
      omega
    refine .bind (.token hd) (.bind (.token hb) ?_)
    rw [styleReference_of_derives ht]
    cases hus with
    | none => exact .bind (.consumeIf_not hfollow.2) (.pure _)
    | some hs => exact .bind (.consumeIf hs) (.pure _)
  | _ => cases hbody

end Blocks

theorem yields_parameterNames {function : String} {rest : List Token}
    (hfollow : (upcoming stop rest).kind ≠ .comma) (fuel : Nat) {seen names : List String}
    {ts : List Token} (h : DerivesNames ts names) (hnodup : (seen ++ names).Nodup)
    (hfuel : ts.length < fuel) :
    Yields stop (parameterNames function fuel seen) (ts ++ rest) (seen ++ names) rest := by
  -- a name may not be among those seen, which is why all names together are without duplicates
  induction h generalizing fuel seen with
  | @one t ht =>
    obtain ⟨fuel, rfl⟩ : ∃ n, fuel = n + 1 := ⟨fuel - 1, by omega⟩
    refine .bind (.token ht) ?_
    rw [if_neg]
    · exact .bind (.consumeIf_not hfollow) (.pure _)
    · have := (List.nodup_append.mp hnodup).2.2
      intro hmem
      exact this _ (by simpa using hmem) _ (List.mem_singleton_self _) rfl
  | @more t o ts names ht ho _ ih =>
    obtain ⟨fuel, rfl⟩ : ∃ n, fuel = n + 1 := ⟨fuel - 1, by omega⟩
    refine .bind (.token ht) ?_
    rw [if_neg]
    · refine .bind (.consumeIf ho) ?_
      have hrest : ((seen ++ [t.text]) ++ names).Nodup := by simpa using hnodup
      have := ih fuel hrest (by simp at hfuel; omega)
      simpa using this
    · have := (List.nodup_append.mp hnodup).2.2
      intro hmem
      exact this _ (by simpa using hmem) _ List.mem_cons_self rfl

section Compound

variable {expression : Parser Expr} {block : Parser Block}
  (hexpr : Accepts stop expression (DerivesExpr .assignment) (continues .assignment · = false))
  (hblock : Accepts stop block DerivesBlock fun _ => True)

include hblock

theorem yields_functionDeclaration {k t : Token} {ts us rest : List Token} {names : List String}
    {b : Block} (hk : k.kind = .func) (ht : t.kind = .identifier) (hps : DerivesParams ts names)
    (hb : DerivesBlock us b) (hlexed : ∀ u ∈ us, u.Lexed) :
    Yields stop (functionDeclaration block) (k :: t :: (ts ++ (us ++ rest)))
      (.func k.pos t.text names b) rest := by
  refine .bind (.token hk) (.bind (.token ht) ?_)
  have hbody := hblock us b rest hb hlexed trivial
  cases hps with
  | @none o c ho hc =>
    refine .bind (.token ho) (.bind (.looksAt _) ?_)
    rw [if_pos (by simp [hc])]
    exact .bind (.pure _) (.bind (.token hc) (.bind hbody (.pure _)))
  | @some o c vs names ho hnames hnodup hc =>
    obtain ⟨v, vs', rfl, hv⟩ : ∃ v vs', vs = v :: vs' ∧ v.kind = .identifier := by
      cases hnames with
      | one h => exact ⟨_, _, rfl, h⟩
      | more h => exact ⟨_, _, rfl, h⟩
    simp only [List.cons_append, List.append_assoc, List.nil_append]
    refine .bind (.token ho) (.bind (.looksAt _) ?_)
    rw [if_neg (by simp [hv])]
    have hloop : ∀ n, (v :: vs').length < n → Yields stop (parameterNames t.text n [])
        (v :: vs' ++ c :: (us ++ rest)) names (c :: (us ++ rest)) := fun n hn =>
      yields_parameterNames (by simp [hc]) n hnames hnodup hn
    refine .bind .bound (.bind (hloop _ ?_) (.bind (.token hc) (.bind hbody ?_)))
    · rw [← List.cons_append, List.length_append]
      omega
    · exact .pure _

include hexpr

theorem yields_alternate {rest : List Token} (hfollow : (upcoming stop rest).kind ≠ .else)
    (fuel : Nat) {ts : List Token} {e : Else} (h : DerivesElse ts e) (hlexed : ∀ t ∈ ts, t.Lexed)
    (hfuel : ts.length < fuel) :
    Yields stop (alternate expression block fuel) (ts ++ rest) e rest := by
  -- every alternative of a chain reads its keyword, so the rounds given suffice
  induction fuel generalizing ts e with
  | zero => omega
  | succ fuel ih =>
    cases h with
    | none => exact .bind (.consumeIf_not hfollow) (.pure _)
    | @block k ts b hk hb =>
      obtain ⟨t, us, rfl, ht⟩ := hb.starts
      refine .bind (.consumeIf hk) ?_
      rw [if_pos rfl]
      refine .bind (.looksAt _) ?_
      rw [if_neg (by simp [ht])]
      refine .bind (hblock (t :: us) b rest hb ?_ trivial) (.pure _)
      exact fun t ht => hlexed t (List.mem_cons_of_mem _ ht)
    | @elseIf k i ts us vs test b e hk hi htest hb he =>
      simp only [List.cons_append, List.append_assoc]
      refine .bind (.consumeIf hk) ?_
      rw [if_pos rfl]
      refine .bind (.looksAt _) ?_
      rw [if_pos (by simp [hi])]
      refine .bind (.token hi) ?_
      refine .bind (accepts_parenthesized hexpr ts test _ htest ?_ trivial) ?_
      · exact fun t ht => hlexed t (by simp [ht])
      refine .bind (hblock us b _ hb ?_ trivial) (.bind (ih he ?_ ?_) (.pure _))
      · exact fun t ht => hlexed t (by simp [ht])
      · exact fun t ht => hlexed t (by simp [ht])
      · simp only [List.length_append, List.length_cons] at hfuel
        omega

theorem yields_ifStatement {k : Token} {ts us vs rest : List Token} {test : Expr} {b : Block}
    {e : Else} (hfollow : (upcoming stop rest).kind ≠ .else) (hk : k.kind = .if)
    (htest : DerivesTest ts test) (hb : DerivesBlock us b) (he : DerivesElse vs e)
    (hlexed : ∀ t ∈ ts ++ us ++ vs, t.Lexed) :
    Yields stop (ifStatement expression block) (k :: (ts ++ (us ++ (vs ++ rest))))
      (.ifElse k.pos test b e) rest := by
  refine .bind (.token hk) ?_
  refine .bind (accepts_parenthesized hexpr ts test _ htest ?_ trivial) ?_
  · exact fun t ht => hlexed t (by simp [ht])
  refine .bind (hblock us b _ hb ?_ trivial) (.bind .bound (.bind ?_ (.pure _)))
  · exact fun t ht => hlexed t (by simp [ht])
  refine yields_alternate hexpr hblock hfollow _ he ?_ ?_
  · exact fun t ht => hlexed t (by simp [ht])
  · rw [List.length_append]
    omega

theorem yields_whileStatement {k : Token} {ts us rest : List Token} {test : Expr} {b : Block}
    (hk : k.kind = .while) (htest : DerivesTest ts test) (hb : DerivesBlock us b)
    (hlexed : ∀ t ∈ ts ++ us, t.Lexed) :
    Yields stop (whileStatement expression block) (k :: (ts ++ (us ++ rest)))
      (.while k.pos test b) rest := by
  refine .bind (.token hk) ?_
  refine .bind (accepts_parenthesized hexpr ts test _ htest ?_ trivial) ?_
  · exact fun t ht => hlexed t (by simp [ht])
  refine .bind (hblock us b _ hb ?_ trivial) (.pure _)
  exact fun t ht => hlexed t (by simp [ht])

theorem yields_forStatement {k o s c : Token} {ts us vs ws rest : List Token} {init : ForInit}
    {test update : Option Expr} {b : Block} (hk : k.kind = .for) (ho : o.kind = .lparen)
    (hinit : DerivesInit ts init) (htest : DerivesOption us test) (hs : s.kind = .semicolon)
    (hupdate : DerivesOption vs update) (hc : c.kind = .rparen) (hb : DerivesBlock ws b)
    (hlexed : ∀ t ∈ ts ++ us ++ vs ++ ws, t.Lexed) :
    Yields stop (forStatement expression block)
      (k :: o :: (ts ++ (us ++ s :: (vs ++ c :: (ws ++ rest)))))
      (.for k.pos init test update b) rest := by
  refine .bind (.token hk) (.bind (.token ho) ?_)
  refine .bind (accepts_forInit hexpr ts init _ hinit ?_ trivial) ?_
  · exact fun t ht => hlexed t (by simp [ht])
  refine .bind (accepts_optionalBefore hexpr rfl rfl us test _ htest ?_ hs) ?_
  · exact fun t ht => hlexed t (by simp [ht])
  refine .bind (.token hs) ?_
  refine .bind (accepts_optionalBefore hexpr rfl rfl vs update _ hupdate ?_ hc) ?_
  · exact fun t ht => hlexed t (by simp [ht])
  refine .bind (.token hc) (.bind (hblock ws b rest hb ?_ trivial) (.pure _))
  exact fun t ht => hlexed t (by simp [ht])

end Compound

theorem accepts_returnStatement {expression : Parser Expr} {k s : Token} {ts rest : List Token}
    {value : Option Expr}
    (hexpr : Accepts stop expression (DerivesExpr .assignment) (continues .assignment · = false))
    (hk : k.kind = .return) (hvalue : DerivesOption ts value) (hs : s.kind = .semicolon)
    (hlexed : ∀ t ∈ ts, t.Lexed) :
    Yields stop (returnStatement expression) (k :: (ts ++ s :: rest)) (.return k.pos value)
      rest := by
  refine .bind (.token hk) ?_
  refine .bind (accepts_optionalBefore hexpr rfl rfl ts value _ hvalue hlexed hs) ?_
  exact .bind (.token hs) (.pure _)

theorem yields_propertyDeclaration {expression : Parser Expr} {k s : Token} {p : Property}
    {ts rest : List Token} {es : List Expr}
    (hexpr : Accepts stop expression (DerivesExpr .assignment) (continues .assignment · = false))
    (hk : Declares k.kind p) (hes : DerivesArgs ts es) (hmin : p.minArity ≤ es.length)
    (hmax : es.length ≤ p.maxArity) (hs : s.kind = .semicolon) (hlexed : ∀ t ∈ k :: ts, t.Lexed) :
    Yields stop (propertyDeclaration expression) (k :: (ts ++ s :: rest))
      (.property k.pos p es.head?) rest := by
  refine .bind (.advance k) ?_
  rw [ofKeyword_of_declares hk (hlexed k (by simp))]
  refine .bind (accepts_argumentList hexpr ts es _ hes ?_ trivial) ?_
  · exact fun t ht => hlexed t (by simp [ht])
  rw [if_pos (by simp [Property.accepts, hmin, hmax])]
  exact .bind (.token hs) (.pure _)

/-- Derived statements are found by their first token. -/
theorem accepts_statement (allowance : Nat) :
    Accepts stop (statement allowance) DerivesStmt Separates := by
  induction allowance with
  | zero =>
    rw [statement]
    exact fun _ s _ _ _ _ => .tooDeep s
  | succ allowance ih =>
    have hexpr : Accepts stop (expression allowance) _ _ := accepts_expression allowance
    have hblock := accepts_braces ih
    intro ts s rest h hlexed hfollow
    rw [statement]
    cases h with
    | @property k s p ts es hk hes hmin hmax hs =>
      refine .bind .current ?_
      have : Yields stop (propertyDeclaration (expression allowance)) (k :: (ts ++ s :: rest))
          (.property k.pos p es.head?) rest :=
        yields_propertyDeclaration hexpr hk hes hmin hmax hs
          fun t ht => hlexed t (List.mem_append_left _ ht)
      simp only [List.cons_append, List.append_assoc, List.nil_append, upcoming_cons]
      -- each keyword leads to the same parser
      generalize hkind : k.kind = kind at hk
      cases hk <;> exact this
    | body hk ha ho hy hi ht hc hcontent hflat hd hb hus =>
      refine .bind .current ?_
      simp only [List.cons_append, upcoming_cons, hk]
      exact accepts_bodyDeclaration ih _ _ rest
        ⟨.body hk ha ho hy hi ht hc hcontent hflat hd hb hus, rfl⟩ hlexed hfollow
    | func hk ht hps hb =>
      refine .bind .current ?_
      simp only [List.cons_append, List.append_assoc, upcoming_cons, hk]
      exact yields_functionDeclaration hblock hk ht hps hb fun t ht => hlexed t (by simp [ht])
    | @declare _ pos kind name init hd =>
      obtain ⟨t, us, rfl, ht⟩ := hd.starts
      have := accepts_variableDeclaration hexpr _ ⟨pos, kind, name, init⟩ rest hd hlexed trivial
      refine .bind .current ?_
      simp only [List.cons_append, upcoming_cons]
      generalize hkind : t.kind = k at ht
      cases ht <;> exact .bind this (.pure _)
    | ifElse hk htest hb he =>
      refine .bind .current ?_
      simp only [List.cons_append, List.append_assoc, upcoming_cons, hk]
      apply yields_ifStatement hexpr hblock hfollow.1 hk htest hb he
      exact fun t ht => hlexed t (List.mem_cons_of_mem _ ht)
    | «while» hk htest hb =>
      refine .bind .current ?_
      simp only [List.cons_append, List.append_assoc, upcoming_cons, hk]
      apply yields_whileStatement hexpr hblock hk htest hb
      exact fun t ht => hlexed t (List.mem_cons_of_mem _ ht)
    | «for» hk ho hinit htest hs hupdate hc hb =>
      refine .bind .current ?_
      simp only [List.cons_append, List.append_assoc, upcoming_cons, hk]
      apply yields_forStatement hexpr hblock hk ho hinit htest hs hupdate hc hb
      exact fun t ht => hlexed t (by simp at ht ⊢; tauto)
    | «return» hk hvalue hs =>
      refine .bind .current ?_
      simp only [List.cons_append, List.append_assoc, List.nil_append, upcoming_cons, hk]
      exact accepts_returnStatement hexpr hk hvalue hs fun t ht => hlexed t (by simp [ht])
    | «break» hk hs | «continue» hk hs =>
      refine .bind .current ?_
      simp only [List.cons_append, List.nil_append, upcoming_cons, hk]
      exact .bind (.token hk) (.bind (.token hs) (.pure _))
    | @block _ b hb =>
      obtain ⟨t, us, rfl, ht⟩ := hb.starts
      refine .bind .current ?_
      simp only [List.cons_append, upcoming_cons, ht]
      exact .bind (hblock (t :: us) b rest hb hlexed trivial) (.pure _)
    | @expr t s us e he hs =>
      have ht := he.startsExpr_head
      have := accepts_expressionStatement hexpr _ (t.pos, e) rest ⟨t, us, s, rfl, he, hs, rfl⟩
        hlexed trivial
      refine .bind .current ?_
      simp only [List.cons_append, upcoming_cons]
      generalize hkind : t.kind = kind at ht
      cases kind <;> first | exact absurd ht (by decide) | exact .bind this (.pure _)

/-- A derived program is found, up to the end marker. -/
theorem yields_program {ts : List Token} {p : Program} (hstop : stop.kind = .eof)
    (hlexed : ∀ t ∈ ts, t.Lexed) (h : DerivesProgram (ts ++ [stop]) p) (allowance : Nat) :
    Yields stop (program allowance) ts p [] := by
  -- the derivation splits the tokens at the end marker just as they are given
  generalize hx : ts ++ [stop] = xs at h
  obtain @⟨us, first, stop', ss, hss, hstop', hfirst⟩ := h
  obtain ⟨rfl, heq⟩ := List.append_inj' hx rfl
  obtain rfl := List.singleton_inj.mp heq
  have hstmt : Accepts stop (statement allowance) DerivesStmt Separates :=
    accepts_statement allowance
  have hbody : ∀ n, ts.length < n →
      Yields stop (untilDone (looksAt [.eof]) (statement allowance) n) (ts ++ []) ss [] := by
    intro n hn
    refine yields_untilDone (fun _ => .looksAt _) ?_ hstmt.any ?_ ?_ n hss (by simp) hlexed hn
    · exact fun t us => not_contains_of_starts (by decide)
    · simp [hstop]
    · simp [Separates, hstop]
  have hpos : upcoming stop ts = first := by
    cases ts with
    | nil => simpa [upcoming] using hfirst
    | cons t ts => simpa [upcoming] using hfirst
  rw [List.append_nil] at hbody
  refine .bind .current (.bind .bound (.bind (hbody _ (Nat.lt_succ_self _)) ?_))
  rw [hpos]
  exact .pure _

end Parser

end MiniApp
