import MiniApp.Proofs.Grammar.Start
import MiniApp.Proofs.Grammar.Triple
import Mathlib.Data.List.Nodup

/-!
# Parsed trees are derived

Whatever a parser accepts, the grammar derives from the tokens that were read. The recursive parsers
are followed by induction on their allowance; loops by induction on the rounds they are given.

## Main results

* `Parser.meets_expression`, `Parser.meets_statement`: the recursive parsers
* `Parser.after_program`: a whole program reads all tokens up to the end marker
-/

namespace MiniApp.Parser

open Grammar

variable {room r : Nat} {c : Cursor} {pre : List Token}

/-! ## Expressions -/

/-- The joiner of each level. -/
def joinerAt : Level → Joiner
  | .disjunction => disjunction
  | .conjunction => conjunction
  | .equality => equality
  | .order => order
  | .sum => sum
  | .product => product
  | _ => fun _ => none

theorem joins_of_joinerAt {ℓ : Level} {kind : TokenKind} {join : Position → Expr → Expr → Expr}
    (h : joinerAt ℓ kind = some join) : Joins ℓ kind join := by
  cases ℓ with
  | disjunction | conjunction | equality | order | sum | product =>
    cases kind <;> cases h <;> constructor
  | assignment | unary | call | primary => cases h

section Operators

variable {operand : Parser Expr} {ℓ m : Level}

theorem after_joins (hnext : ℓ.next? = some m)
    (hoperand : Meets r operand (DerivesExpr m)) (hroom : room ≤ r) (fuel : Nat) (left : Expr)
    (hleft : DerivesExpr ℓ pre left) :
    After room c (joins (joinerAt ℓ) operand fuel left) pre (DerivesExpr ℓ) := by
  -- the invariant of the loop: what has been read so far derives the operand to the left
  induction fuel generalizing left pre with
  | zero => exact .pure hleft
  | succ fuel ih =>
    refine .bind (.current ?_)
    split
    · exact .pure hleft
    · next join hjoin =>
      have hjoins := joins_of_joinerAt hjoin
      refine .bind (.advance hjoins.ne_eof fun _ _ => ?_)
      refine .bind (.of_meets hoperand (by omega) fun ts right hright => ?_)
      apply ih
      simpa using DerivesExpr.joined hnext hjoins hleft hright

theorem meets_leftAssociative (hnext : ℓ.next? = some m)
    (hoperand : Meets r operand (DerivesExpr m)) :
    Meets r (leftAssociative (joinerAt ℓ) operand) (DerivesExpr ℓ) := by
  intro c
  refine .bind (.of_meets hoperand (by omega) fun ts left hleft => ?_)
  refine .bind (.bound fun fuel _ => ?_)
  exact after_joins hnext hoperand le_rfl fuel left (.tighter hnext hleft)

theorem meets_operators {unary : Parser Expr} (h : Meets r unary (DerivesExpr .unary)) :
    Meets r (operators unary) (DerivesExpr .disjunction) :=
  have hproduct := meets_leftAssociative (ℓ := .product) rfl h
  have hsum := meets_leftAssociative (ℓ := .sum) rfl hproduct
  have horder := meets_leftAssociative (ℓ := .order) rfl hsum
  have hequality := meets_leftAssociative (ℓ := .equality) rfl horder
  have hconjunction := meets_leftAssociative (ℓ := .conjunction) rfl hequality
  meets_leftAssociative (ℓ := .disjunction) rfl hconjunction

end Operators

section Arguments

variable {expression : Parser Expr} (hexpr : Meets r expression (DerivesExpr .assignment))

include hexpr

theorem after_commaSeparated (hroom : room ≤ r + 3 * pre.length) (fuel : Nat)
    (hfuel : c.rest.length < fuel + pre.length) :
    After room c (commaSeparated expression fuel) pre
      fun ts es => ∃ us, ts = pre ++ us ∧ DerivesList us es := by
  induction fuel generalizing pre with
  -- more would have been read than there is
  | zero => exact .of_read fun hle => absurd hle.length_le (by omega)
  | succ fuel ih =>
    refine .bind (.of_meets hexpr hroom fun ts e he => ?_)
    refine .bind (.consumeIf rfl (fun o ho => ?_) ?_)
    · refine .bind ((ih ?_ ?_).mono ?_)
      · simp only [List.length_append]
        omega
      · simp only [List.length_append, List.length_cons, List.length_nil]
        omega
      · rintro us es - ⟨vs, heq, hes⟩
        rw [heq]
        refine .pure ⟨ts ++ o :: vs, by simp, .more he ho hes⟩
    · exact .pure ⟨ts, rfl, .one he⟩

theorem meets_argumentList : Meets r (argumentList expression) DerivesArgs := by
  intro c
  refine .bind (.token rfl fun o ho => .bind (.looksAt ?_))
  split
  · refine .bind (.pure (.bind (.token rfl fun d hd => .pure ?_)))
    simpa using DerivesArgs.none ho hd
  · refine .bind (.bound fun fuel hfuel => .bind ?_)
    refine .mono (after_commaSeparated hexpr (by simp) fuel hfuel) ?_
    rintro ts es - ⟨us, heq, hes⟩
    rw [heq]
    refine .bind (.token rfl fun d hd => .pure ?_)
    simpa using DerivesArgs.some ho hes hd

theorem after_callSuffixes (hroom : room ≤ r + 3) (fuel : Nat) (callee : Expr)
    (hcallee : DerivesExpr .call pre callee) :
    After room c (callSuffixes expression fuel callee) pre (DerivesExpr .call) := by
  -- a call adds its arguments to the function that has been read so far
  induction fuel generalizing callee pre with
  | zero => exact .pure hcallee
  | succ fuel ih =>
    refine .bind (.looksAt ?_)
    split
    · have hpos := hcallee.length_pos
      refine .bind (.of_meets (meets_argumentList hexpr) (by omega) fun ts es hes => ?_)
      exact ih _ (.call hcallee hes)
    · exact .pure hcallee

end Arguments

/-- A sign of a unary operator is spelled by its own text. -/
theorem leads_ofSymbol {t : Token} (hkind : t.kind ∈ [TokenKind.not, .minus]) (ht : t.Lexed) :
    Leads t.kind (.ofSymbol t.text) := by
  have hkind : t.kind = .not ∨ t.kind = .minus := by simpa using hkind
  rcases hkind with hk | hk
  · rw [ht.text_eq (s := "!") (by rw [hk]; decide), hk]
    exact .not
  · rw [ht.text_eq (s := "-") (by rw [hk]; decide), hk]
    exact .minus

/-- Reading a numeral as a value. -/
theorem after_ofFault {t : Token} {Q : List Token → Number → Prop} (hkind : t.kind = .number)
    (hmem : t ∈ c.rest) (h : ∀ n, Number.read t.text = .ok n → Q pre n) :
    After room c (ofFault (Number.read t.text)) pre Q := by
  cases hread : Number.read t.text with
  | ok n => exact .pure (h n hread)
  | error f => exact fun _ _ _ => ⟨t, hmem, hkind, hread⟩

section Recursion

variable {allowance : Nat}

/-- Assignments, of operands that meet their level. -/
theorem meets_expression_succ
    (hexpr : Meets (allowance + 1) (expression allowance) (DerivesExpr .assignment))
    (hunary : Meets (allowance + 2) (unary allowance) (DerivesExpr .unary)) :
    Meets (allowance + 2) (expression (allowance + 1)) (DerivesExpr .assignment) := by
  intro c
  rw [expression]
  refine .bind (.of_meets (meets_operators hunary) (by omega) fun ts target htarget => ?_)
  have hpos := htarget.length_pos
  refine .bind (.looksAt ?_)
  split
  -- the target has been read as an expression, and must turn out to be a name
  · next hkind =>
    have hassign : (c.ahead ts).kind = .assign := by simpa using hkind
    refine .bind (.advance (by simp [hassign]) fun _ _ => ?_)
    refine .bind (.of_meets hexpr (by simp; omega) fun us value hvalue => ?_)
    split
    · refine .pure ?_
      simpa using DerivesExpr.assign htarget hassign hvalue
    · exact .reject (Diagnostic.isSyntactic_of_family rfl) (c.ahead_pos_mem ts)
  · exact .pure (.tighter rfl htarget)

theorem meets_unary_succ
    (hexpr : Meets (allowance + 1) (expression allowance) (DerivesExpr .assignment))
    (hunary : Meets (allowance + 2) (unary allowance) (DerivesExpr .unary))
    (hprimary : Meets (allowance + 3) (primary allowance) (DerivesExpr .primary)) :
    Meets (allowance + 3) (unary (allowance + 1)) (DerivesExpr .unary) := by
  intro c
  rw [unary]
  refine .bind (.looksAt ?_)
  split
  · next hkind =>
    have hmem : (c.ahead []).kind ∈ [TokenKind.not, .minus] := by simpa using hkind
    refine .bind (.advance (fun heq => by simp [heq] at hmem) fun _ ht => ?_)
    refine .bind (.of_meets hunary (by simp) fun ts e he => .pure ?_)
    simpa using DerivesExpr.led (leads_ofSymbol hmem ht) he
  · refine .bind (.of_meets hprimary (by simp) fun ts callee hcallee => ?_)
    refine .bind (.bound fun fuel _ => ?_)
    apply (after_callSuffixes hexpr (by omega) fuel callee (.tighter rfl hcallee)).mono
    exact fun us e _ he => .tighter rfl he

theorem meets_primary_succ
    (hexpr : Meets (allowance + 1) (expression allowance) (DerivesExpr .assignment)) :
    Meets (allowance + 4) (primary (allowance + 1)) (DerivesExpr .primary) := by
  intro c
  rw [primary]
  refine .bind (.current ?_)
  split
  · next hkind =>
    refine .bind (.advance (by simp [hkind]) fun hmem _ => .bind ?_)
    refine after_ofFault hkind hmem fun n hn => .pure ?_
    simpa using DerivesExpr.number hkind hn
  · next hkind =>
    refine .bind (.advance (by simp [hkind]) fun _ _ => .pure ?_)
    simpa using DerivesExpr.string hkind
  · next hkind =>
    refine .bind (.advance (by simp [hkind]) fun _ _ => .pure ?_)
    simpa using DerivesExpr.bool hkind
  · next hkind =>
    refine .bind (.advance (by simp [hkind]) fun _ _ => .pure ?_)
    simpa using DerivesExpr.null hkind
  · next hkind =>
    refine .bind (.advance (by simp [hkind]) fun _ _ => .pure ?_)
    simpa using DerivesExpr.ident hkind
  · next hkind =>
    refine .bind (.advance (by simp [hkind]) fun _ _ => ?_)
    refine .bind (.of_meets hexpr (by simp) fun ts e he => ?_)
    refine .bind (.token rfl fun d hd => .pure ?_)
    simpa using DerivesExpr.parens hkind he hd
  · next hkind =>
    refine .bind (.advance (by simp [hkind]) fun _ _ => ?_)
    refine .bind (.of_meets (meets_argumentList hexpr) (by simp) fun ts es hes => .pure ?_)
    simpa using DerivesExpr.content hkind hes
  · exact .reject (Diagnostic.isSyntactic_of_family rfl) (c.ahead_pos_mem [])

end Recursion

/-- The three parsers call one another, each with one unit of allowance less. What a unit buys
differs between them by one, since not every call has read a token before. -/
theorem meets_expression_unary_primary (allowance : Nat) :
    Meets (allowance + 1) (expression allowance) (DerivesExpr .assignment) ∧
      Meets (allowance + 2) (unary allowance) (DerivesExpr .unary) ∧
      Meets (allowance + 3) (primary allowance) (DerivesExpr .primary) := by
  induction allowance with
  | zero =>
    rw [expression, unary, primary]
    exact ⟨fun _ => .tooDeep (by omega), fun _ => .tooDeep (by omega), fun _ => .tooDeep (by omega)⟩
  | succ allowance ih =>
    obtain ⟨hexpr, hunary, hprimary⟩ := ih
    exact ⟨meets_expression_succ hexpr hunary, meets_unary_succ hexpr hunary hprimary,
      meets_primary_succ hexpr⟩

theorem meets_expression (allowance : Nat) :
    Meets (allowance + 1) (expression allowance) (DerivesExpr .assignment) :=
  (meets_expression_unary_primary allowance).1

/-! ## Statements -/

/-- Items until some test holds: they are derived one after another, and when the rounds given
suffice, the test holds behind them. -/
theorem after_untilDone {done : Parser Bool} {D : List Token → Bool} {item : Parser Stmt}
    {P : Stmt → Prop}
    (hdone : ∀ {room : Nat} {pre : List Token} {R : List Token → Bool → Prop},
      R pre (D pre) → After room c done pre R)
    (hitem : Meets r item fun ts s => DerivesStmt ts s ∧ P s) (hroom : room ≤ r + 3 * pre.length)
    (fuel : Nat) (hfuel : c.rest.length < fuel + pre.length) :
    After room c (untilDone done item fuel) pre fun ts ss => ∃ us, ts = pre ++ us ∧
      DerivesStmts us ss ∧ (∀ s ∈ ss, P s) ∧ D ts = true := by
  induction fuel generalizing pre with
  | zero => exact .of_read fun hle => absurd hle.length_le (by omega)
  | succ fuel ih =>
    refine .bind (hdone ?_)
    split
    · next hd => exact .pure ⟨[], by simp, .nil, by simp, hd⟩
    -- a statement has at least one token, which pays for its round
    · refine .bind (.of_meets hitem hroom ?_)
      rintro ts s ⟨hs, hP⟩
      have hpos := List.length_pos_iff.mpr hs.ne_nil
      refine .bind (.mono (ih ?_ ?_) ?_)
      · rw [List.length_append]
        omega
      · rw [List.length_append]
        omega
      · rintro us ss - ⟨vs, heq, hss, hall, hd⟩
        refine .pure ⟨ts ++ vs, by rw [heq, List.append_assoc], .cons hs hss, ?_, hd⟩
        simpa using ⟨hP, hall⟩

/-- The keyword of a declaration is spelled by its own text. -/
theorem ofKeyword_of_lexed {t : Token} (hkind : t.kind ∈ [TokenKind.let, .const]) (ht : t.Lexed) :
    ∃ kind, DeclarationKind.ofKeyword? t.text = some kind ∧ Binds t.kind kind := by
  have hkind : t.kind = .let ∨ t.kind = .const := by simpa using hkind
  rcases hkind with hk | hk
  · rw [ht.text_eq (s := "let") (by rw [hk]; decide), hk]
    exact ⟨_, by decide, .let⟩
  · rw [ht.text_eq (s := "const") (by rw [hk]; decide), hk]
    exact ⟨_, by decide, .const⟩

/-- The keyword of a property is spelled by its own text. -/
theorem declares_of_lexed {t : Token} (hkind : t.kind.isProperty = true) (ht : t.Lexed) :
    ∃ p, Property.ofKeyword? t.text = some p ∧ Declares t.kind p := by
  have hspelled : ∃ s p, t.kind.spelling? = some s ∧ Property.ofKeyword? s = some p ∧
      Declares t.kind p := by
    generalize t.kind = k at hkind
    cases k <;> cases hkind
    · exact ⟨"name_app_mini", .appName, by decide, by decide, .appName⟩
    · exact ⟨"web_package_mini", .webPackage, by decide, by decide, .webPackage⟩
    · exact ⟨"web_mini_version", .webVersion, by decide, by decide, .webVersion⟩
    · exact ⟨"mini_version", .miniVersion, by decide, by decide, .miniVersion⟩
    · exact ⟨"mini_app_icon", .appIcon, by decide, by decide, .appIcon⟩
  obtain ⟨s, p, hs, hp, hdeclares⟩ := hspelled
  exact ⟨p, by rw [ht.text_eq hs]; exact hp, hdeclares⟩

/-- An expression with its semicolon, and the place of its first token. -/
def DerivesTerminated (ts : List Token) (x : Position × Expr) : Prop :=
  ∃ t us s, ts = t :: us ++ [s] ∧ DerivesExpr .assignment (t :: us) x.2 ∧ s.kind = .semicolon ∧
    x.1 = t.pos

section Parts

variable {expression : Parser Expr} (hexpr : Meets r expression (DerivesExpr .assignment))

include hexpr

theorem meets_parenthesized : Meets r (parenthesized expression) DerivesTest := by
  intro c
  refine .bind (.token rfl fun o ho => ?_)
  refine .bind (.of_meets hexpr (by simp) fun ts e he => ?_)
  refine .bind (.token rfl fun d hd => .pure ?_)
  simpa using DerivesTest.mk ho he hd

theorem meets_optionalBefore (kind : TokenKind) :
    Meets r (optionalBefore kind expression) DerivesOption := by
  intro c
  refine .bind (.looksAt ?_)
  split
  · exact .pure .none
  · exact .bind (.of_meets hexpr (by simp) fun ts e he => .pure (.some he))

theorem meets_expressionStatement :
    Meets r (expressionStatement expression) DerivesTerminated := by
  intro c
  refine .bind (.current ?_)
  refine .bind (.of_meets hexpr (by simp) fun ts e he => .of_read fun hle => ?_)
  refine .bind (.token rfl fun s hs => .pure ?_)
  obtain ⟨t, us, rfl, -⟩ := he.starts
  obtain ⟨rest, hrest⟩ := hle
  refine ⟨t, us, s, rfl, he, hs, ?_⟩
  simp [Cursor.ahead, ← hrest]

theorem meets_variableDeclaration : Meets r (variableDeclaration expression) fun ts d =>
    DerivesDecl ts d.pos d.kind d.name d.init := by
  intro c
  refine .bind (.expect rfl fun k hk hlexed => ?_)
  obtain ⟨kind, hkind, hbinds⟩ := ofKeyword_of_lexed hk hlexed
  rw [hkind]
  dsimp only
  refine .bind (.token rfl fun t ht => ?_)
  refine .bind (.consumeIf rfl (fun o ho => ?_) ?_)
  · rw [if_pos rfl]
    refine .bind (.of_meets hexpr (by simp) fun ts e he => .bind (.pure ?_))
    refine .bind (.token rfl fun s hs => .pure ?_)
    simpa using DerivesDecl.init hbinds ht ho he hs
  · rw [if_neg Bool.false_ne_true]
    cases kind with
    | const =>
      refine .bind (.current (.bind (.reject (Diagnostic.isSyntactic_of_family rfl) ?_)))
      exact c.ahead_pos_mem [k, t]
    | «let» =>
      refine .bind (.pure (.bind (.token rfl fun s hs => .pure ?_)))
      simpa using DerivesDecl.plain hbinds ht hs

theorem meets_forInit : Meets r (forInit expression) DerivesInit := by
  intro c
  refine .bind (.looksAt ?_)
  split
  · exact .bind (.of_meets (meets_variableDeclaration hexpr) (by simp) fun ts d hd =>
      .pure (.declare hd))
  · refine .bind (.consumeIf rfl (fun s hs => .pure ?_) ?_)
    · simpa using DerivesInit.none hs
    · refine .bind (.of_meets (meets_expressionStatement hexpr) (by simp) ?_)
      rintro ts ⟨pos, e⟩ ⟨t, us, s, rfl, he, hs, rfl⟩
      exact .pure (.expr he hs)

theorem meets_propertyDeclaration (hkind : (c.ahead []).kind.isProperty = true) :
    After r c (propertyDeclaration expression) [] DerivesStmt := by
  refine .bind (.advance (fun heq => by simp [heq, TokenKind.isProperty] at hkind) fun _ ht => ?_)
  obtain ⟨p, hp, hdeclares⟩ := declares_of_lexed hkind ht
  rw [hp]
  dsimp only
  refine .bind (.of_meets (meets_argumentList hexpr) (by simp) fun ts es hes => ?_)
  split
  · next hcount =>
    refine .bind (.token rfl fun s hs => .pure ?_)
    have hcount : p.minArity ≤ es.length ∧ es.length ≤ p.maxArity := by
      simpa [Property.accepts] using hcount
    simpa using DerivesStmt.property hdeclares hes hcount.1 hcount.2 hs
  · exact .reject (Diagnostic.isSyntactic_of_family rfl) (c.ahead_pos_mem [])

theorem meets_returnStatement : Meets r (returnStatement expression) DerivesStmt := by
  intro c
  refine .bind (.token rfl fun k hk => ?_)
  refine .bind (.of_meets (meets_optionalBefore hexpr _) (by simp) fun ts value hvalue => ?_)
  refine .bind (.token rfl fun s hs => .pure ?_)
  simpa using DerivesStmt.return hk hvalue hs

end Parts

theorem after_atBodyEnd {R : List Token → Bool → Prop}
    (h : R pre ((c.ahead pre).kind = .slash &&
      ((c.rest.drop pre.length).tail.head?.getD c.stop).kind = .body)) :
    After room c atBodyEnd pre R := by
  intro hc c' hreads
  refine ⟨[], by simpa using hreads, ?_⟩
  rw [hreads.current_eq, hreads.rest_eq, hreads.2]
  simpa using h

theorem derivesStyle_styleReference {t : Token} (ht : t.kind ∈ [TokenKind.string, .identifier]) :
    DerivesStyle t (styleReference t) := by
  have ht : t.kind = .string ∨ t.kind = .identifier := by simpa using ht
  rw [styleReference]
  rcases ht with hk | hk
  · rw [if_pos hk]
    exact .string hk
  · rw [if_neg (by simp [hk])]
    exact .ident hk

section Blocks

variable {statement : Parser Stmt} (hstmt : Meets r statement DerivesStmt)

include hstmt

theorem meets_braces : Meets (r + 3) (braces statement) DerivesBlock := by
  intro c
  refine .bind (.token rfl fun o ho => .bind (.bound fun fuel hfuel => .bind ?_))
  refine .mono (after_untilDone .looksAt hstmt.any (by simp) fuel hfuel) ?_
  rintro ts ss - ⟨us, heq, hss, -, -⟩
  rw [heq]
  refine .bind (.token rfl fun d hd => .pure ?_)
  simpa using DerivesBlock.mk ho hss hd

theorem meets_bodyItem (keyword : Token) : Meets r (bodyItem keyword statement) fun ts s =>
    DerivesStmt ts s ∧ s.isBody = false := by
  intro c
  refine .bind (.current ?_)
  split
  · exact .reject (Diagnostic.isSyntactic_of_family rfl) (c.ahead_pos_mem [])
  · exact .reject ⟨_, List.mem_cons_self⟩ (c.ahead_pos_mem [])
  -- the first token has been looked at: it begins no body section
  · next hbody =>
    refine .mono (hstmt c) ?_
    intro ts s hprefix hs
    refine ⟨hs, ?_⟩
    obtain ⟨t, us, rfl, -⟩ := hs.starts
    have hahead : c.ahead [] = t := by
      obtain ⟨rest, hrest⟩ := hprefix
      simp [Cursor.ahead, ← hrest]
    rw [hahead] at hbody
    simpa using mt hs.isBody_iff.mp hbody

theorem meets_bodyDeclaration : Meets (r + 1) (bodyDeclaration statement) DerivesStmt := by
  intro c
  refine .bind (.token rfl fun k hk => ?_)
  refine .bind (.token rfl fun a ha => ?_)
  refine .bind (.token rfl fun o ho => ?_)
  refine .bind (.token rfl fun y hy => ?_)
  refine .bind (.token rfl fun i hi => ?_)
  refine .bind (.expect rfl fun t ht _ => ?_)
  refine .bind (.token rfl fun d hd => ?_)
  refine .bind (.bound fun fuel hfuel => .bind ?_)
  refine .mono (after_untilDone after_atBodyEnd (meets_bodyItem hstmt k) (by simp) fuel hfuel)
    ?_
  rintro ts content - ⟨us, heq, hcontent, hflat, -⟩
  rw [heq]
  refine .bind (.token rfl fun e he => ?_)
  refine .bind (.token rfl fun b hb => ?_)
  have hderives : ∀ vs, Perhaps .semicolon vs →
      DerivesStmt (k :: a :: o :: y :: i :: t :: d :: us ++ e :: b :: vs)
        (.body k.pos (styleReference t) content) := fun vs hvs =>
    .body hk ha ho hy hi (derivesStyle_styleReference ht) hd hcontent hflat he hb hvs
  refine .bind (.consumeIf rfl (fun s hs => .pure ?_) (.pure ?_))
  · simpa using hderives [s] (.some hs)
  · simpa using hderives [] .none

end Blocks

/-- Distinct names behind those seen already. -/
theorem after_parameterNames (function : String) (fuel : Nat) (seen : List String)
    (hseen : seen.Nodup) (hfuel : c.rest.length < fuel + pre.length) :
    After room c (parameterNames function fuel seen) pre fun ts names => ∃ us new,
      ts = pre ++ us ∧ DerivesNames us new ∧ names = seen ++ new ∧ names.Nodup := by
  -- the names seen so far are distinct, and a name is added to them only if it is new
  induction fuel generalizing pre seen with
  | zero => exact .of_read fun hle => absurd hle.length_le (by omega)
  | succ fuel ih =>
    refine .bind (.token rfl fun t ht => ?_)
    split
    · refine .of_read fun hread => .reject ⟨_, List.mem_cons_self⟩ ?_
      have hmem : t ∈ c.rest := hread.subset (List.mem_append_right _ (List.mem_singleton_self t))
      exact List.mem_map_of_mem (List.mem_append_left _ hmem)
    · next hnew =>
      have hdistinct : (seen ++ [t.text]).Nodup := by
        rw [List.nodup_append]
        refine ⟨hseen, List.nodup_singleton _, ?_⟩
        rintro a ha b hb rfl
        exact hnew (by simpa [List.mem_singleton.mp hb] using ha)
      refine .bind (.consumeIf rfl (fun o ho => ?_) ?_)
      · refine .mono (ih _ hdistinct ?_) ?_
        · simp only [List.length_append, List.length_cons, List.length_nil]
          omega
        · rintro ts names - ⟨us, new, heq, hnew, hnames, hnodup⟩
          exact ⟨t :: o :: us, t.text :: new, by simpa using heq, .more ht ho hnew,
            by simp [hnames], hnodup⟩
      · exact .pure ⟨[t], [t.text], rfl, .one ht, rfl, hdistinct⟩

section Compound

variable {expression : Parser Expr} {block : Parser Block}
  (hexpr : Meets r expression (DerivesExpr .assignment)) (hblock : Meets r block DerivesBlock)

include hblock

theorem meets_functionDeclaration : Meets r (functionDeclaration block) DerivesStmt := by
  intro c
  refine .bind (.token rfl fun k hk => ?_)
  refine .bind (.token rfl fun t ht => ?_)
  refine .bind (.token rfl fun o ho => .bind (.looksAt ?_))
  have hderives : ∀ ts names us b, DerivesParams ts names → DerivesBlock us b →
      DerivesStmt (k :: t :: ts ++ us) (.func k.pos t.text names b) := fun ts names us b hps hb =>
    .func hk ht hps hb
  split
  · refine .bind (.pure (.bind (.token rfl fun d hd => ?_)))
    refine .bind (.of_meets hblock (by simp) fun us b hb => .pure ?_)
    simpa using hderives [o, d] [] us b (.none ho hd) hb
  · refine .bind (.bound fun fuel hfuel => .bind ?_)
    refine .mono (after_parameterNames _ fuel [] List.nodup_nil hfuel) ?_
    rintro ts names - ⟨us, new, heq, hnew, rfl, hnodup⟩
    rw [heq]
    refine .bind (.token rfl fun d hd => ?_)
    refine .bind (.of_meets hblock (by simp) fun vs b hb => .pure ?_)
    simpa using hderives _ _ vs b (.some ho hnew hnodup hd) hb

include hexpr

theorem meets_alternate (fuel : Nat) : Meets r (alternate expression block fuel) DerivesElse := by
  induction fuel with
  | zero => exact fun c => .pure .none
  | succ fuel ih =>
    intro c
    refine .bind (.consumeIf rfl (fun k hk => ?_) (.pure .none))
    rw [if_pos rfl]
    refine .bind (.looksAt ?_)
    split
    · refine .bind (.token rfl fun i hi => ?_)
      refine .bind (.of_meets (meets_parenthesized hexpr) (by simp) fun ts e he => ?_)
      refine .bind (.of_meets hblock (by simp) fun us b hb => ?_)
      refine .bind (.of_meets ih (by simp) fun vs rest hrest => .pure ?_)
      simpa using DerivesElse.elseIf hk hi he hb hrest
    · refine .bind (.of_meets hblock (by simp) fun us b hb => .pure ?_)
      simpa using DerivesElse.block hk hb

theorem meets_ifStatement : Meets r (ifStatement expression block) DerivesStmt := by
  intro c
  refine .bind (.token rfl fun k hk => ?_)
  refine .bind (.of_meets (meets_parenthesized hexpr) (by simp) fun ts e he => ?_)
  refine .bind (.of_meets hblock (by simp) fun us b hb => .bind (.bound fun fuel _ => ?_))
  refine .bind (.of_meets (meets_alternate hexpr hblock fuel) (by simp) fun vs rest hrest =>
    .pure ?_)
  simpa using DerivesStmt.ifElse hk he hb hrest

theorem meets_whileStatement : Meets r (whileStatement expression block) DerivesStmt := by
  intro c
  refine .bind (.token rfl fun k hk => ?_)
  refine .bind (.of_meets (meets_parenthesized hexpr) (by simp) fun ts e he => ?_)
  refine .bind (.of_meets hblock (by simp) fun us b hb => .pure ?_)
  simpa using DerivesStmt.while hk he hb

theorem meets_forStatement : Meets r (forStatement expression block) DerivesStmt := by
  intro c
  refine .bind (.token rfl fun k hk => ?_)
  refine .bind (.token rfl fun o ho => ?_)
  refine .bind (.of_meets (meets_forInit hexpr) (by simp) fun ts init hinit => ?_)
  refine .bind (.of_meets (meets_optionalBefore hexpr _) (by simp) fun us test htest => ?_)
  refine .bind (.token rfl fun s hs => ?_)
  refine .bind (.of_meets (meets_optionalBefore hexpr _) (by simp) fun vs update hupdate => ?_)
  refine .bind (.token rfl fun d hd => ?_)
  refine .bind (.of_meets hblock (by simp) fun ws b hb => .pure ?_)
  simpa using DerivesStmt.for hk ho hinit htest hs hupdate hd hb

end Compound

/-- Statements are derived from what is read for them. -/
theorem meets_statement (allowance : Nat) :
    Meets allowance (statement allowance) DerivesStmt := by
  induction allowance with
  -- without allowance nothing is read, and there is always room too little
  | zero =>
    rw [statement]
    exact fun _ => .tooDeep (by omega)
  | succ allowance ih =>
    have hexpr := meets_expression allowance
    have hblock : Meets (allowance + 1) (braces (statement allowance)) DerivesBlock :=
      (meets_braces ih).mono (by omega)
    intro c
    rw [statement]
    refine .bind (.current ?_)
    split
    · next hk => exact meets_propertyDeclaration hexpr (by rw [hk]; rfl)
    · next hk => exact meets_propertyDeclaration hexpr (by rw [hk]; rfl)
    · next hk => exact meets_propertyDeclaration hexpr (by rw [hk]; rfl)
    · next hk => exact meets_propertyDeclaration hexpr (by rw [hk]; rfl)
    · next hk => exact meets_propertyDeclaration hexpr (by rw [hk]; rfl)
    · exact meets_bodyDeclaration ih c
    · exact meets_functionDeclaration hblock c
    · exact .bind (.of_meets (meets_variableDeclaration hexpr) (by simp) fun ts d hd =>
        .pure (.declare hd))
    · exact .bind (.of_meets (meets_variableDeclaration hexpr) (by simp) fun ts d hd =>
        .pure (.declare hd))
    · exact meets_ifStatement hexpr hblock c
    · exact meets_whileStatement hexpr hblock c
    · exact meets_forStatement hexpr hblock c
    · exact meets_returnStatement hexpr c
    · refine .bind (.token rfl fun k hk => ?_)
      refine .bind (.token rfl fun s hs => .pure ?_)
      simpa using DerivesStmt.break hk hs
    · refine .bind (.token rfl fun k hk => ?_)
      refine .bind (.token rfl fun s hs => .pure ?_)
      simpa using DerivesStmt.continue hk hs
    · exact .bind (.of_meets hblock (by simp) fun ts b hb => .pure (.block hb))
    · refine .bind (.of_meets (meets_expressionStatement hexpr) (by simp) ?_)
      rintro ts ⟨pos, e⟩ ⟨t, us, s, rfl, he, hs, rfl⟩
      exact .pure (.expr he hs)

/-- A whole program is derived from all tokens up to the end marker. -/
theorem after_program (allowance : Nat) (hc : c.Sound) :
    After allowance c (program allowance) [] fun ts p =>
      ts = c.rest ∧ DerivesProgram (ts ++ [c.stop]) p := by
  have hitem := (meets_statement allowance).any
  refine .bind (.current ?_)
  refine .bind (.bound fun fuel hfuel => .bind ?_)
  refine .mono (after_untilDone .looksAt hitem (by simp) fuel hfuel) ?_
  rintro ts ss hle ⟨us, heq, hss, -, hdone⟩
  obtain rfl : ts = us := by simpa using heq
  have hend : (c.ahead ts).kind = .eof := by simpa using hdone
  -- No lexeme is an end marker, so nothing is left.
  have hall : ts = c.rest := by
    obtain ⟨rest, hrest⟩ := hle
    cases rest with
    | nil => simpa using hrest
    | cons t rest =>
      have ht : t.kind = .eof := by simpa [Cursor.ahead, ← hrest] using hend
      exact absurd ht (Lexical.Lexeme.kind_ne_eof (hc.lexed t (by simp [← hrest])))
  refine .pure ⟨hall, .mk hss hc.stop ?_⟩
  rw [hall]
  cases hrest : c.rest <;> simp [Cursor.ahead, hrest]

end MiniApp.Parser
