import MiniApp.Proofs.Grammar

/-!
# First tokens

Every phrase of the grammar begins with a token, and the kind of that token says much about the
phrase: which kinds begin an expression, and that no statement begins with a token that ends a list
of statements.

## Main results

* `Grammar.DerivesExpr.starts`: the kinds that begin an expression
* `Grammar.DerivesStmt.starts`: the kinds that begin a statement
-/

namespace MiniApp.Grammar

/-- The kinds of token that begin an expression. -/
def startsExpr : TokenKind → Bool
  | .number | .string | .boolean | .null | .identifier | .lparen | .call | .not | .minus => true
  | _ => false

/-- The kinds of token that begin a statement. -/
def startsStmt : TokenKind → Bool
  | .nameAppMini | .webPackageMini | .webMiniVersion | .miniVersion | .miniAppIcon | .body | .func
  | .let | .const | .if | .while | .for | .return | .break | .continue | .lbrace => true
  | k => startsExpr k

theorem startsStmt_of_startsExpr {k : TokenKind} (h : startsExpr k = true) :
    startsStmt k = true := by
  cases k <;> simp_all [startsStmt]

theorem Joins.ne_eof {ℓ : Level} {kind : TokenKind} {join : Position → Expr → Expr → Expr}
    (h : Joins ℓ kind join) : kind ≠ .eof := by
  cases h <;> decide

theorem Leads.starts {k : TokenKind} {op : UnaryOp} (h : Leads k op) : startsExpr k = true := by
  cases h <;> rfl

theorem Declares.starts {k : TokenKind} {p : Property} (h : Declares k p) :
    startsStmt k = true := by
  cases h <;> rfl

theorem Binds.starts {k : TokenKind} {kind : DeclarationKind} (h : Binds k kind) :
    startsStmt k = true := by
  cases h <;> rfl

theorem Declares.ne_body {k : TokenKind} {p : Property} (h : Declares k p) : k ≠ .body := by
  cases h <;> decide

theorem Binds.ne_body {k : TokenKind} {kind : DeclarationKind} (h : Binds k kind) :
    k ≠ .body := by
  cases h <;> decide

theorem ne_body_of_startsExpr {k : TokenKind} (h : startsExpr k = true) : k ≠ .body := by
  rintro rfl
  cases h

/-- An expression begins with one of the kinds that begin an expression. -/
theorem DerivesExpr.starts : ∀ {ℓ : Level} {ts : List Token} {e : Expr}, DerivesExpr ℓ ts e →
    ∃ t us, ts = t :: us ∧ startsExpr t.kind = true
  | _, _, _, .tighter _ h => h.starts
  | _, _, _, .assign h _ _ | _, _, _, @DerivesExpr.joined _ _ _ _ _ _ _ _ _ _ h _
  | _, _, _, .call h _ => by
    obtain ⟨t, us, rfl, ht⟩ := h.starts
    exact ⟨t, _, rfl, ht⟩
  | _, _, _, .led h _ => ⟨_, _, rfl, h.starts⟩
  | _, _, _, .number h _ | _, _, _, .string h | _, _, _, .bool h | _, _, _, .null h
  | _, _, _, .ident h | _, _, _, .parens h _ _ | _, _, _, .content h _ =>
    ⟨_, _, rfl, by rw [h]; rfl⟩

variable {ℓ : Level} {ts : List Token} {t : Token} {e : Expr}

theorem DerivesExpr.startsExpr_head (h : DerivesExpr ℓ (t :: ts) e) : startsExpr t.kind = true := by
  obtain ⟨t', us, heq, ht⟩ := h.starts
  rwa [(List.cons.inj heq).1]

theorem DerivesExpr.ne_nil (h : DerivesExpr ℓ ts e) : ts ≠ [] := by
  obtain ⟨t, us, rfl, -⟩ := h.starts
  simp

theorem DerivesExpr.length_pos (h : DerivesExpr ℓ ts e) : 0 < ts.length :=
  List.length_pos_iff.mpr h.ne_nil

theorem DerivesArgs.starts {es : List Expr} (h : DerivesArgs ts es) :
    ∃ t us, ts = t :: us ∧ t.kind = .lparen := by
  cases h with
  | none h _ => exact ⟨_, _, rfl, h⟩
  | some h _ _ => exact ⟨_, _, rfl, h⟩

theorem DerivesList.starts {es : List Expr} (h : DerivesList ts es) :
    ∃ t us, ts = t :: us ∧ startsExpr t.kind = true := by
  cases h with
  | one h => exact h.starts
  | more h _ _ =>
    obtain ⟨t, us, rfl, ht⟩ := h.starts
    exact ⟨t, _, rfl, ht⟩

theorem DerivesList.args_ne_nil {es : List Expr} (h : DerivesList ts es) : es ≠ [] := by
  cases h <;> simp

theorem DerivesDecl.starts {pos : Position} {kind : DeclarationKind} {name : String}
    {init : Option Expr} (h : DerivesDecl ts pos kind name init) :
    ∃ t us, ts = t :: us ∧ Binds t.kind kind := by
  cases h with
  | plain h _ _ => exact ⟨_, _, rfl, h⟩
  | init h _ _ _ _ => exact ⟨_, _, rfl, h⟩

theorem DerivesBlock.starts {b : Block} (h : DerivesBlock ts b) :
    ∃ t us, ts = t :: us ∧ t.kind = .lbrace := by
  cases h with
  | mk h _ _ => exact ⟨_, _, rfl, h⟩

/-- A statement begins with one of the kinds that begin a statement. -/
theorem DerivesStmt.starts {s : Stmt} (h : DerivesStmt ts s) :
    ∃ t us, ts = t :: us ∧ startsStmt t.kind = true := by
  cases h with
  | property h => exact ⟨_, _, rfl, h.starts⟩
  | declare h =>
    obtain ⟨t, us, rfl, ht⟩ := h.starts
    exact ⟨t, us, rfl, ht.starts⟩
  | block h =>
    obtain ⟨t, us, rfl, ht⟩ := h.starts
    exact ⟨t, us, rfl, by rw [ht]; rfl⟩
  | expr h _ => exact ⟨_, _, rfl, startsStmt_of_startsExpr h.startsExpr_head⟩
  | body h | func h | ifElse h | «while» h | «for» h | «return» h | «break» h | «continue» h =>
    exact ⟨_, _, rfl, by rw [h]; rfl⟩

theorem DerivesStmt.ne_nil {s : Stmt} (h : DerivesStmt ts s) : ts ≠ [] := by
  obtain ⟨t, us, rfl, -⟩ := h.starts
  simp

/-- A statement that begins with the keyword of body sections is one, and no other statement is. -/
theorem DerivesStmt.isBody_iff {s : Stmt} (h : DerivesStmt (t :: ts) s) :
    s.isBody = true ↔ t.kind = .body := by
  -- each rule fixes the kind of its first token, or what that token may begin
  cases h with
  | property h => exact iff_of_false Bool.false_ne_true h.ne_body
  | declare h =>
    obtain ⟨t', us, heq, ht⟩ := h.starts
    obtain ⟨rfl, rfl⟩ := List.cons.inj heq
    exact iff_of_false Bool.false_ne_true ht.ne_body
  | block h =>
    obtain ⟨t', us, heq, ht⟩ := h.starts
    obtain ⟨rfl, rfl⟩ := List.cons.inj heq
    simp [ht, Stmt.isBody]
  | expr h _ => exact iff_of_false Bool.false_ne_true (ne_body_of_startsExpr h.startsExpr_head)
  | body h | func h | ifElse h | «while» h | «for» h | «return» h | «break» h | «continue» h =>
    simp [h, Stmt.isBody]

end MiniApp.Grammar
