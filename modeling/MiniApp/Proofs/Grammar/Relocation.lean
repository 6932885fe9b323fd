import MiniApp.Proofs.Grammar

/-!
# The grammar does not look at places

Tokens may be moved to other places: what they derive is the same tree, with its nodes moved in the
same way. The grammar takes places from tokens and compares none.

## Main definitions

* `Token.relocate`, `Expr.relocate`, `Stmt.relocate`: tokens and trees at other places

## Main results

* `Grammar.DerivesStmts.relocate`: moved tokens derive the moved statements
-/

namespace MiniApp

section Trees

variable (f : Position → Position)

/-- A token at another place. -/
def Token.relocate (t : Token) : Token := ⟨t.kind, t.text, f t.pos⟩

mutual

/-- An expression with its places moved. -/
def Expr.relocate : Expr → Expr
  | .ident p name => .ident (f p) name
  | .number p value raw => .number (f p) value raw
  | .string p value => .string (f p) value
  | .bool p value => .bool (f p) value
  | .null p => .null (f p)
  | .binary p op l r => .binary (f p) op l.relocate r.relocate
  | .logical p op l r => .logical (f p) op l.relocate r.relocate
  | .unary p op e => .unary (f p) op e.relocate
  | .assign p target e => .assign (f p) target e.relocate
  | .call p callee arguments => .call (f p) callee.relocate (Expr.relocateAll arguments)
  | .content p arguments => .content (f p) (Expr.relocateAll arguments)

/-- Expressions with their places moved. -/
def Expr.relocateAll : List Expr → List Expr
  | [] => []
  | e :: es => e.relocate :: Expr.relocateAll es

end

/-- What a `for` statement starts with, with its places moved. -/
def ForInit.relocate : ForInit → ForInit
  | .none => .none
  | .declare p kind name init => .declare (f p) kind name (init.map (Expr.relocate f))
  | .expr p e => .expr (f p) (e.relocate f)

mutual

/-- A statement with its places moved. -/
def Stmt.relocate : Stmt → Stmt
  | .block b => .block b.relocate
  | .declare p kind name init => .declare (f p) kind name (init.map (Expr.relocate f))
  | .func p name parameters b => .func (f p) name parameters b.relocate
  | .property p kind argument => .property (f p) kind (argument.map (Expr.relocate f))
  | .body p style content => .body (f p) (style.relocate f) (Stmt.relocateAll content)
  | .ifElse p test b rest => .ifElse (f p) (test.relocate f) b.relocate rest.relocate
  | .while p test b => .while (f p) (test.relocate f) b.relocate
  | .for p init test update b =>
    .for (f p) (init.relocate f) (test.map (Expr.relocate f)) (update.map (Expr.relocate f))
      b.relocate
  | .return p value => .return (f p) (value.map (Expr.relocate f))
  | .break p => .break (f p)
  | .continue p => .continue (f p)
  | .expr p e => .expr (f p) (e.relocate f)

/-- What follows the block of an `if`, with its places moved. -/
def Else.relocate : Else → Else
  | .none => .none
  | .block b => .block b.relocate
  | .elseIf p test b rest => .elseIf (f p) (test.relocate f) b.relocate rest.relocate

/-- A block with its places moved. -/
def Block.relocate : Block → Block
  | .mk p body => .mk (f p) (Stmt.relocateAll body)

/-- Statements with their places moved. -/
def Stmt.relocateAll : List Stmt → List Stmt
  | [] => []
  | s :: ss => s.relocate :: Stmt.relocateAll ss

end

theorem Expr.relocateAll_eq_map (es : List Expr) :
    Expr.relocateAll f es = es.map (Expr.relocate f) := by
  induction es with
  | nil => rfl
  | cons e es ih => rw [Expr.relocateAll, ih, List.map_cons]

theorem Stmt.relocateAll_eq_map (ss : List Stmt) :
    Stmt.relocateAll f ss = ss.map (Stmt.relocate f) := by
  induction ss with
  | nil => rfl
  | cons s ss ih => rw [Stmt.relocateAll, ih, List.map_cons]

theorem Expr.pos_relocate (e : Expr) : (e.relocate f).pos = f e.pos := by
  cases e <;> rfl

theorem Stmt.isBody_relocate (s : Stmt) : (s.relocate f).isBody = s.isBody := by
  cases s <;> rfl

end Trees

namespace Grammar

variable {f : Position → Position} {ts : List Token}

/-- The node of an operator, with its places moved. -/
theorem Joins.relocate {ℓ : Level} {k : TokenKind} {join : Position → Expr → Expr → Expr}
    (h : Joins ℓ k join) (p : Position) (l r : Expr) :
    (join p l r).relocate f = join (f p) (l.relocate f) (r.relocate f) := by
  cases h <;> rfl

mutual

theorem DerivesExpr.relocate : ∀ {ℓ : Level} {ts : List Token} {e : Expr}, DerivesExpr ℓ ts e →
    DerivesExpr ℓ (ts.map (Token.relocate f)) (e.relocate f)
  | _, _, _, .tighter hnext h => .tighter hnext h.relocate
  | _, _, _, .assign htarget ho hvalue => by
    rw [List.map_append, List.map_cons]
    exact .assign htarget.relocate ho hvalue.relocate
  | _, _, _, @DerivesExpr.joined _ _ _ _ _ _ l r hnext hjoins hl hr => by
    rw [List.map_append, List.map_cons, hjoins.relocate, ← Expr.pos_relocate f l]
    exact .joined hnext hjoins hl.relocate hr.relocate
  | _, _, _, .led hleads he => .led hleads he.relocate
  | _, _, _, @DerivesExpr.call _ _ g _ hg hes => by
    rw [List.map_append, Expr.relocate, ← Expr.pos_relocate f g]
    exact .call hg.relocate hes.relocate
  | _, _, _, .number hk hread => .number hk hread
  | _, _, _, .string hk => .string hk
  | _, _, _, .bool hk => .bool hk
  | _, _, _, .null hk => .null hk
  | _, _, _, .ident hk => .ident hk
  | _, _, _, .parens ho he hc => by
    rw [List.map_append]
    exact .parens ho he.relocate hc
  | _, _, _, .content hk hes => .content hk hes.relocate

theorem DerivesArgs.relocate : ∀ {ts : List Token} {es : List Expr}, DerivesArgs ts es →
    DerivesArgs (ts.map (Token.relocate f)) (Expr.relocateAll f es)
  | _, _, .none ho hc => .none ho hc
  | _, _, .some ho hes hc => by
    rw [List.map_append]
    exact .some ho hes.relocate hc

theorem DerivesList.relocate : ∀ {ts : List Token} {es : List Expr}, DerivesList ts es →
    DerivesList (ts.map (Token.relocate f)) (Expr.relocateAll f es)
  | _, _, .one he => .one he.relocate
  | _, _, .more he ho hes => by
    rw [List.map_append]
    exact .more he.relocate ho hes.relocate

end

theorem DerivesOption.relocate {value : Option Expr} (h : DerivesOption ts value) :
    DerivesOption (ts.map (Token.relocate f)) (value.map (Expr.relocate f)) := by
  cases h with
  | none => exact .none
  | some he => exact .some he.relocate

theorem DerivesStyle.relocate {t : Token} {style : Expr} (h : DerivesStyle t style) :
    DerivesStyle (t.relocate f) (style.relocate f) := by
  cases h with
  | string hk => exact .string hk
  | ident hk => exact .ident hk

theorem DerivesNames.relocate {names : List String} (h : DerivesNames ts names) :
    DerivesNames (ts.map (Token.relocate f)) names := by
  induction h with
  | one hk => exact .one hk
  | more hk ho _ ih => exact .more hk ho ih

theorem DerivesParams.relocate {names : List String} (h : DerivesParams ts names) :
    DerivesParams (ts.map (Token.relocate f)) names := by
  cases h with
  | none ho hc => exact .none ho hc
  | some ho hnames hdistinct hc =>
    rw [List.map_append]
    exact .some ho hnames.relocate hdistinct hc

theorem DerivesDecl.relocate {pos : Position} {kind : DeclarationKind} {name : String}
    {init : Option Expr} (h : DerivesDecl ts pos kind name init) :
    DerivesDecl (ts.map (Token.relocate f)) (f pos) kind name (init.map (Expr.relocate f)) := by
  cases h with
  | plain hk ht hs => exact .plain hk ht hs
  | init hk ht ho he hs =>
    rw [List.map_append]
    exact .init hk ht ho he.relocate hs

theorem DerivesTest.relocate {test : Expr} (h : DerivesTest ts test) :
    DerivesTest (ts.map (Token.relocate f)) (test.relocate f) := by
  cases h with
  | mk ho he hc =>
    rw [List.map_append]
    exact .mk ho he.relocate hc

theorem DerivesInit.relocate {init : ForInit} (h : DerivesInit ts init) :
    DerivesInit (ts.map (Token.relocate f)) (init.relocate f) := by
  cases h with
  | none hs => exact .none hs
  | declare hd => exact .declare hd.relocate
  | expr he hs =>
    rw [List.map_append]
    exact .expr he.relocate hs

theorem Perhaps.relocate {kind : TokenKind} (h : Perhaps kind ts) :
    Perhaps kind (ts.map (Token.relocate f)) := by
  cases h with
  | none => exact .none
  | some hk => exact .some hk

mutual

theorem DerivesStmt.relocate : ∀ {ts : List Token} {s : Stmt}, DerivesStmt ts s →
    DerivesStmt (ts.map (Token.relocate f)) (s.relocate f)
  | _, _, @DerivesStmt.property _ _ _ _ es hk hes hmin hmax hs => by
    have hlength : (Expr.relocateAll f es).length = es.length := by simp [Expr.relocateAll_eq_map]
    rw [List.map_append, Stmt.relocate, ← List.head?_map, ← Expr.relocateAll_eq_map]
    exact .property hk hes.relocate (hlength ▸ hmin) (hlength ▸ hmax) hs
  | _, _, @DerivesStmt.body _ _ _ _ _ _ _ _ _ _ _ _ content hk ha ho hy hi hstyle hc hss hflat hd
      hb hs => by
    have hflat' : ∀ s ∈ Stmt.relocateAll f content, s.isBody = false := by
      rw [Stmt.relocateAll_eq_map]
      simpa [Stmt.isBody_relocate] using hflat
    rw [List.map_append]
    exact .body hk ha ho hy hi hstyle.relocate hc hss.relocate hflat' hd hb hs.relocate
  | _, _, .func hk ht hps hb => by
    rw [List.map_append]
    exact .func hk ht hps.relocate hb.relocate
  | _, _, .declare hd => .declare hd.relocate
  | _, _, .ifElse hk htest hb he => by
    rw [List.map_append, List.map_append]
    exact .ifElse hk htest.relocate hb.relocate he.relocate
  | _, _, .while hk htest hb => by
    rw [List.map_append]
    exact .while hk htest.relocate hb.relocate
  | _, _, .for hk ho hinit htest hs hupdate hc hb => by
    simp only [List.map_append, List.map_cons]
    exact .for hk ho hinit.relocate htest.relocate hs hupdate.relocate hc hb.relocate
  | _, _, .return hk hvalue hs => by
    rw [List.map_append]
    exact .return hk hvalue.relocate hs
  | _, _, .break hk hs => .break hk hs
  | _, _, .continue hk hs => .continue hk hs
  | _, _, .block hb => .block hb.relocate
  | _, _, .expr he hs => by
    rw [List.map_append]
    exact .expr he.relocate hs

theorem DerivesElse.relocate : ∀ {ts : List Token} {e : Else}, DerivesElse ts e →
    DerivesElse (ts.map (Token.relocate f)) (e.relocate f)
  | _, _, .none => .none
  | _, _, .block hk hb => .block hk hb.relocate
  | _, _, .elseIf hk hi htest hb he => by
    rw [List.map_append, List.map_append]
    exact .elseIf hk hi htest.relocate hb.relocate he.relocate

theorem DerivesBlock.relocate : ∀ {ts : List Token} {b : Block}, DerivesBlock ts b →
    DerivesBlock (ts.map (Token.relocate f)) (b.relocate f)
  | _, _, .mk ho hss hc => by
    rw [List.map_append]
    exact .mk ho hss.relocate hc

/-- Moved tokens derive the moved statements. -/
theorem DerivesStmts.relocate : ∀ {ts : List Token} {ss : List Stmt}, DerivesStmts ts ss →
    DerivesStmts (ts.map (Token.relocate f)) (Stmt.relocateAll f ss)
  | _, _, .nil => .nil
  | _, _, .cons hs hss => by
    rw [List.map_append]
    exact .cons hs.relocate hss.relocate

end

end Grammar

end MiniApp
