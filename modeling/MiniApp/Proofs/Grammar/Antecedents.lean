import MiniApp.Proofs.Grammar.Start

/-!
# What stands before a declaration

Expressions have none of the keywords that declare a name, so such a keyword begins a statement or
the head of a loop. Either of these stands at the start of a text or behind a token that ends or
opens something: a semicolon, a brace, a parenthesis, or the word that closes a body section.

## Main definitions

* `TokenKind.declares`, `TokenKind.admits`: the keywords, and the kinds that they may stand behind
* `Grammar.Declaring`: tokens that declare only where they may

## Main results

* `Grammar.DerivesProgram.declaring`: so do the tokens of a program
* `Grammar.Declaring.admits`: what stands before a keyword among such tokens
-/

namespace MiniApp

namespace TokenKind

/-- The keywords that declare names. -/
def declares : TokenKind → Bool
  | .func | .let | .const => true
  | _ => false

/-- The kinds that such a keyword may stand behind. -/
def admits : TokenKind → Bool
  | .semicolon | .lbrace | .rbrace | .lparen | .rparen | .body => true
  | _ => false

end TokenKind

namespace Grammar

/-- `Declaring b ts c`: behind something that admits declarations or not, as `b` says, the tokens
declare only where that is admitted, and what they end in admits declarations or not, as `c`
says. -/
inductive Declaring : Bool → List Token → Bool → Prop
  | nil {b : Bool} : Declaring b [] b
  | cons {b c : Bool} {t : Token} {ts : List Token} :
      (t.kind.declares = true → b = true) → Declaring t.kind.admits ts c → Declaring b (t :: ts) c

/-- No token declares a name. -/
def Silent (ts : List Token) : Prop := ∀ t ∈ ts, t.kind.declares = false

variable {a b c : Bool} {k : TokenKind} {t : Token} {ts us : List Token}

theorem Declaring.append (h : Declaring a ts b) (h' : Declaring b us c) :
    Declaring a (ts ++ us) c := by
  induction h with
  | nil => exact h'
  | cons ht _ ih => exact .cons ht (ih h')

/-- A token that does not declare may stand anywhere. -/
theorem Declaring.step (ht : t.kind = k) (hk : k.declares = false) (h : Declaring k.admits ts c) :
    Declaring b (t :: ts) c := by
  subst ht
  exact .cons (fun hdeclares => by simp [hk] at hdeclares) h

/-- Behind tokens that do not declare, there may stand what may stand anywhere. -/
theorem Silent.declaring (hts : Silent ts) (h : ∀ b, Declaring b us c) :
    Declaring b (ts ++ us) c := by
  induction ts generalizing b with
  | nil => exact h b
  | cons t ts ih =>
    obtain ⟨ht, hts⟩ := List.forall_mem_cons.mp hts
    exact .step rfl ht (ih hts)

/-- A keyword stands at the start, or behind a token that admits it. -/
theorem Declaring.admits {xs ys : List Token} (h : Declaring b (xs ++ t :: ys) c)
    (ht : t.kind.declares = true) : (xs.getLast?.map (·.kind.admits)).getD b = true := by
  induction xs generalizing b with
  | nil =>
    cases h with
    | cons hb _ => exact hb ht
  | cons x xs ih =>
    cases h with
    | cons _ h =>
      have hxs := ih h
      cases hlast : xs.getLast? <;> simp_all [List.getLast?_cons]

/-! ## Expressions -/

theorem silent_singleton (ht : t.kind = k) (hk : k.declares = false) : Silent [t] :=
  List.forall_mem_singleton.mpr (ht ▸ hk)

theorem Silent.append (hts : Silent ts) (hus : Silent us) : Silent (ts ++ us) :=
  List.forall_mem_append.mpr ⟨hts, hus⟩

theorem Silent.cons (hts : Silent ts) (ht : t.kind = k) (hk : k.declares = false) :
    Silent (t :: ts) :=
  List.forall_mem_cons.mpr ⟨ht ▸ hk, hts⟩

theorem Joins.declares {ℓ : Level} {join : Position → Expr → Expr → Expr} (h : Joins ℓ k join) :
    k.declares = false := by
  cases h <;> rfl

theorem Leads.declares {op : UnaryOp} (h : Leads k op) : k.declares = false := by
  cases h <;> rfl

mutual

theorem DerivesExpr.silent : ∀ {ℓ : Level} {ts : List Token} {e : Expr}, DerivesExpr ℓ ts e →
    Silent ts
  | _, _, _, .tighter _ h => h.silent
  | _, _, _, .assign ht ho he => ht.silent.append (he.silent.cons ho rfl)
  | _, _, _, @DerivesExpr.joined _ _ _ _ _ _ _ _ _ hjoin hl hr =>
    hl.silent.append (hr.silent.cons rfl hjoin.declares)
  | _, _, _, .led ho h => h.silent.cons rfl ho.declares
  | _, _, _, .call hf hes => hf.silent.append hes.silent
  | _, _, _, .number ht _ => silent_singleton ht rfl
  | _, _, _, .string ht => silent_singleton ht rfl
  | _, _, _, .bool ht => silent_singleton ht rfl
  | _, _, _, .null ht => silent_singleton ht rfl
  | _, _, _, .ident ht => silent_singleton ht rfl
  | _, _, _, .parens ho h hc => (h.silent.cons ho rfl).append (silent_singleton hc rfl)
  | _, _, _, .content ht hes => hes.silent.cons ht rfl

theorem DerivesArgs.silent : ∀ {ts : List Token} {es : List Expr}, DerivesArgs ts es → Silent ts
  | _, _, .none ho hc => (silent_singleton hc rfl).cons ho rfl
  | _, _, .some ho h hc => (h.silent.cons ho rfl).append (silent_singleton hc rfl)

theorem DerivesList.silent : ∀ {ts : List Token} {es : List Expr}, DerivesList ts es → Silent ts
  | _, _, .one h => h.silent
  | _, _, .more h ho hs => h.silent.append (hs.silent.cons ho rfl)

end

theorem DerivesOption.silent {e : Option Expr} (h : DerivesOption ts e) : Silent ts := by
  cases h with
  | none => exact fun _ ht => absurd ht List.not_mem_nil
  | some h => exact h.silent

theorem DerivesTest.silent {e : Expr} (h : DerivesTest ts e) : Silent ts := by
  cases h with
  | mk ho h hc => exact (h.silent.cons ho rfl).append (silent_singleton hc rfl)

theorem DerivesNames.silent {names : List String} (h : DerivesNames ts names) : Silent ts := by
  induction h with
  | one ht => exact silent_singleton ht rfl
  | more ht ho _ ih => exact (ih.cons ho rfl).cons ht rfl

theorem DerivesParams.silent {names : List String} (h : DerivesParams ts names) : Silent ts := by
  cases h with
  | none ho hc => exact (silent_singleton hc rfl).cons ho rfl
  | some ho h _ hc => exact (h.silent.cons ho rfl).append (silent_singleton hc rfl)

/-! ## Statements -/

theorem Declares.declares {p : Property} (h : Declares k p) : k.declares = false := by
  cases h <;> rfl

theorem DerivesStyle.declares {e : Expr} (h : DerivesStyle t e) : t.kind.declares = false := by
  cases h with
  | string ht => rw [ht]; rfl
  | ident ht => rw [ht]; rfl

/-- A semicolon may stand anywhere. -/
theorem declaring_semicolon (ht : t.kind = .semicolon) : ∀ b, Declaring b [t] true :=
  fun _ => .step ht rfl .nil

theorem DerivesDecl.declaring {pos : Position} {kind : DeclarationKind} {name : String}
    {init : Option Expr} (h : DerivesDecl ts pos kind name init) : Declaring true ts true := by
  cases h with
  | plain _ ht hs => exact .cons (fun _ => rfl) (.step ht rfl (declaring_semicolon hs _))
  | init _ ht ho he hs =>
    have hvalue := (he.silent.cons ho rfl).cons ht rfl
    exact .cons (fun _ => rfl) (hvalue.declaring (declaring_semicolon hs))

theorem DerivesInit.declaring {init : ForInit} (h : DerivesInit ts init) :
    Declaring true ts true := by
  cases h with
  | none hs => exact declaring_semicolon hs true
  | declare hd => exact hd.declaring
  | expr he hs => exact he.silent.declaring (declaring_semicolon hs)

theorem Perhaps.declaring (h : Perhaps .semicolon ts) : Declaring true ts true := by
  cases h with
  | none => exact .nil
  | some ht => exact declaring_semicolon ht true

mutual

theorem DerivesStmt.declaring : ∀ {ts : List Token} {s : Stmt}, DerivesStmt ts s →
    Declaring true ts true
  | _, _, .property hk hes _ _ hs =>
    (hes.silent.cons rfl hk.declares).declaring (declaring_semicolon hs)
  | _, _, .body hk ha ho hy hi ht hc hs _ hd hb hend => by
    -- the content of a section is the only part in which statements may stand
    have hcontent := hs.declaring
    have hopening : Declaring true _ true := .step hk rfl (.step ha rfl (.step ho rfl (.step hy rfl
      (.step hi rfl (.step rfl ht.declares (.step hc rfl hcontent))))))
    exact hopening.append (.step hd rfl (.step hb rfl hend.declaring))
  | _, _, .func _ ht hps hb => by
    have hblock := hb.declaring
    exact .cons (fun _ => rfl) ((hps.silent.cons ht rfl).declaring hblock)
  | _, _, .declare h => h.declaring
  | _, _, .ifElse hk ht hb hr => by
    have hblock := hb.declaring
    exact (Declaring.append ((ht.silent.cons hk rfl).declaring hblock) hr.declaring)
  | _, _, .while hk ht hb => by
    have hblock := hb.declaring
    exact (ht.silent.cons hk rfl).declaring hblock
  | _, _, .for hk ho hi ht hs hu hc hb => by
    have hblock := hb.declaring
    have hclauses : Declaring true _ true := .step hk rfl (.step ho rfl hi.declaring)
    simpa using hclauses.append (ht.silent.declaring fun _ => .step hs rfl
      (hu.silent.declaring fun _ => .step hc rfl (hblock _)))
  | _, _, .return hk h hs => (h.silent.cons hk rfl).declaring (declaring_semicolon hs)
  | _, _, .break hk hs => .step hk rfl (declaring_semicolon hs _)
  | _, _, .continue hk hs => .step hk rfl (declaring_semicolon hs _)
  | _, _, .block h => h.declaring true
  | _, _, .expr he hs => he.silent.declaring (declaring_semicolon hs)

theorem DerivesElse.declaring : ∀ {ts : List Token} {rest : Else}, DerivesElse ts rest →
    Declaring true ts true
  | _, _, .none => .nil
  | _, _, .block hk hb => .step hk rfl (hb.declaring _)
  | _, _, .elseIf hk hi ht hb hr => by
    have hblock := hb.declaring
    exact Declaring.append (((ht.silent.cons hi rfl).cons hk rfl).declaring hblock) hr.declaring

theorem DerivesBlock.declaring : ∀ {ts : List Token} {b : Block}, DerivesBlock ts b →
    ∀ b, Declaring b ts true
  | _, _, .mk ho hs hc => fun _ => by
    have hbody := hs.declaring
    exact Declaring.append (.step ho rfl hbody) (.step hc rfl .nil)

theorem DerivesStmts.declaring : ∀ {ts : List Token} {ss : List Stmt}, DerivesStmts ts ss →
    Declaring true ts true
  | _, _, .nil => .nil
  | _, _, .cons h hs => h.declaring.append hs.declaring

end

/-- The tokens of a program declare only where they may. -/
theorem DerivesProgram.declaring {tokens : List Token} {p : Program} (h : DerivesProgram tokens p) :
    ∃ c, Declaring true tokens c := by
  cases h with
  | mk hs hstop _ => exact ⟨_, hs.declaring.append (.step hstop rfl .nil)⟩

end Grammar

end MiniApp
