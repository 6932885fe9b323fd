import MiniApp.Proofs.Grammar.Extents

/-!
# First tokens

Every node of a parsed program is built from a stretch of the tokens, by one rule of the grammar.
Programs and statements stand at the first token of their stretch. A compound expression takes its
place from its left part, and a left part in parentheses stands behind the opening one: such an
expression stands at the first token of its stretch that opens no parentheses.

## Main definitions

* `Grammar.Builds`: the rules that make nodes of expressions
* `Node.BuiltFrom`: the tokens that a node is built from
* `Node.StandsAt`: where a node stands among them

## Main results

* `Grammar.DerivesExpr.first`: the place of an expression
* `Node.Below.within`: every node of a derived program is built from a stretch of its tokens
* `Program.parse_places`: where the nodes of a parsed program stand
-/

namespace MiniApp

open Grammar

namespace Grammar

/-- The tokens from which a rule of the grammar makes an expression. The rules that hand an
expression on, to a looser level or out of parentheses, make none. -/
inductive Builds : List Token → Expr → Prop
  | leaf {t : Token} {e : Expr} : DerivesExpr .primary [t] e → Builds [t] e
  | content {t : Token} {ts : List Token} {es : List Expr} :
      t.kind = .call → DerivesArgs ts es → Builds (t :: ts) (.content t.pos es)
  | call {ts us : List Token} {f : Expr} {es : List Expr} :
      DerivesExpr .call ts f → DerivesArgs us es → Builds (ts ++ us) (.call f.pos f es)
  | led {o : Token} {op : UnaryOp} {ts : List Token} {e : Expr} :
      Leads o.kind op → DerivesExpr .unary ts e → Builds (o :: ts) (.unary o.pos op e)
  | joined {ℓ m : Level} {o : Token} {join : Position → Expr → Expr → Expr}
      {ts us : List Token} {l r : Expr} :
      ℓ.next? = some m → Joins ℓ o.kind join → DerivesExpr ℓ ts l → DerivesExpr m us r →
      Builds (ts ++ o :: us) (join l.pos l r)
  | assign {o : Token} {ts us : List Token} {pos : Position} {name : String} {e : Expr} :
      DerivesExpr .disjunction ts (.ident pos name) → o.kind = .assign →
      DerivesExpr .assignment us e → Builds (ts ++ o :: us) (.assign pos name e)

/-- What is built is derived. -/
theorem Builds.derives {ts : List Token} {e : Expr} (h : Builds ts e) :
    ∃ ℓ, DerivesExpr ℓ ts e := by
  cases h with
  | leaf he => exact ⟨_, he⟩
  | content ht hes => exact ⟨_, .content ht hes⟩
  | call hf hes => exact ⟨_, .call hf hes⟩
  | led ho he => exact ⟨_, .led ho he⟩
  | joined hnext hjoin hl hr => exact ⟨_, .joined hnext hjoin hl hr⟩
  | assign ht ho he => exact ⟨_, .assign ht ho he⟩

end Grammar

namespace Node

/-- The tokens that a node is built from. -/
def BuiltFrom (ts : List Token) : Node → Prop
  | .program p => DerivesProgram ts p
  | .stmt s => DerivesStmt ts s
  | .expr e => Builds ts e

/-- The node is built from a stretch of the tokens. -/
def Within (ts : List Token) (n : Node) : Prop := ∃ us, us <:+: ts ∧ n.BuiltFrom us

variable {ts us : List Token} {t : Token} {n k : Node} {layers further : List Layer}

theorem BuiltFrom.within (h : n.BuiltFrom ts) : n.Within ts := ⟨ts, List.infix_rfl, h⟩

theorem Within.mono (h : n.Within us) (hus : us <:+: ts) : n.Within ts := by
  obtain ⟨vs, hvs, hn⟩ := h
  exact ⟨vs, hvs.trans hus, hn⟩

theorem Within.widen (h : n.Within ts) : n.Within (ts ++ us) :=
  h.mono (List.prefix_append ts us).isInfix

theorem Within.skips (h : n.Within us) : n.Within (ts ++ us) :=
  h.mono (List.suffix_append ts us).isInfix

theorem Within.skip (h : n.Within ts) : n.Within (t :: ts) :=
  h.mono (List.suffix_cons t ts).isInfix

end Node

/-! ## Every node is built from a stretch of the tokens -/

namespace Grammar

open Node

variable {ts : List Token}

theorem Builds.within {e : Expr} (h : Builds ts e) : (Node.expr e).Within ts :=
  BuiltFrom.within h

theorem DerivesStmt.within {s : Stmt} (h : DerivesStmt ts s) : (Node.stmt s).Within ts :=
  BuiltFrom.within h

theorem DerivesExpr.within : ∀ {ℓ : Level} {ts : List Token} {e : Expr}, DerivesExpr ℓ ts e →
    (Node.expr e).Within ts
  | _, _, _, .tighter _ h => h.within
  | _, _, _, .parens _ h _ => h.within.widen.skip
  | _, _, _, .assign ht ho he => (Builds.assign ht ho he).within
  | _, _, _, @DerivesExpr.joined _ _ _ _ _ _ _ _ hnext hjoin hl hr =>
    (Builds.joined hnext hjoin hl hr).within
  | _, _, _, .led ho he => (Builds.led ho he).within
  | _, _, _, .call hf hes => (Builds.call hf hes).within
  | _, _, _, .content ht hes => (Builds.content ht hes).within
  | _, _, _, .number ht hn => (Builds.leaf (.number ht hn)).within
  | _, _, _, .string ht => (Builds.leaf (.string ht)).within
  | _, _, _, .bool ht => (Builds.leaf (.bool ht)).within
  | _, _, _, .null ht => (Builds.leaf (.null ht)).within
  | _, _, _, .ident ht => (Builds.leaf (.ident ht)).within

theorem DerivesList.within {es : List Expr} (h : DerivesList ts es) :
    ∀ e ∈ es, (Node.expr e).Within ts := by
  induction es generalizing ts with
  | nil => exact fun _ he => absurd he List.not_mem_nil
  | cons e es ih =>
    cases h with
    | one he => exact List.forall_mem_singleton.mpr he.within
    | more he _ hes =>
      exact List.forall_mem_cons.mpr ⟨he.within.widen, fun e' he' => (ih hes e' he').skip.skips⟩

theorem DerivesArgs.within {es : List Expr} (h : DerivesArgs ts es) :
    ∀ e ∈ es, (Node.expr e).Within ts := by
  cases h with
  | none => exact fun _ he => absurd he List.not_mem_nil
  | some _ hes _ => exact fun e he => (hes.within e he).widen.skip

theorem DerivesArgs.ne_nil {es : List Expr} (h : DerivesArgs ts es) : ts ≠ [] := by
  cases h <;> exact List.cons_ne_nil _ _

/-- An expression of one token has no operands. -/
theorem operands_of_single {t : Token} {e : Expr} (h : DerivesExpr .primary [t] e) :
    e.operands = [] := by
  generalize hts : [t] = ts at h
  cases h with
  | tighter hnext _ => cases hnext
  | joined hnext _ _ _ => cases hnext
  | parens _ _ _ => simp at hts
  | content _ hes => exact absurd (List.cons.inj hts).2.symm hes.ne_nil
  | number | string | bool | null | ident => rfl

/-- The operands of an expression are built from stretches of its tokens. -/
theorem Builds.operands {e : Expr} (h : Builds ts e) :
    ∀ o ∈ e.operands, (Node.expr o).Within ts := by
  cases h with
  | leaf he =>
    rw [operands_of_single he]
    exact fun _ ho => absurd ho List.not_mem_nil
  | content _ hes => exact fun o ho => (hes.within o ho).skip
  | call hf hes =>
    exact List.forall_mem_cons.mpr ⟨hf.within.widen, fun o ho => (hes.within o ho).skips⟩
  | led _ he => exact List.forall_mem_singleton.mpr he.within.skip
  | joined _ hjoin hl hr =>
    rw [(hjoin.pos_operands _ _ _).2]
    exact List.forall_mem_cons.mpr
      ⟨hl.within.widen, List.forall_mem_singleton.mpr hr.within.skip.skips⟩
  | assign _ _ he => exact List.forall_mem_singleton.mpr he.within.skip.skips

theorem DerivesOption.within {e : Option Expr} (h : DerivesOption ts e) :
    ∀ o ∈ e.toList, (Node.expr o).Within ts := by
  cases h with
  | none => exact fun _ ho => absurd ho List.not_mem_nil
  | some he => exact List.forall_mem_singleton.mpr he.within

theorem DerivesStyle.within {t : Token} {e : Expr} (h : DerivesStyle t e) :
    (Node.expr e).Within [t] := by
  cases h with
  | string ht => exact (Builds.leaf (.string ht)).within
  | ident ht => exact (Builds.leaf (.ident ht)).within

theorem DerivesTest.within {e : Expr} (h : DerivesTest ts e) : (Node.expr e).Within ts := by
  cases h with
  | mk _ he _ => exact he.within.widen.skip

theorem DerivesDecl.within {pos : Position} {kind : DeclarationKind} {name : String}
    {init : Option Expr} (h : DerivesDecl ts pos kind name init) :
    ∀ e ∈ init.toList, (Node.expr e).Within ts := by
  cases h with
  | plain => exact fun _ he => absurd he List.not_mem_nil
  | init _ _ _ he _ => exact List.forall_mem_singleton.mpr he.within.widen.skip.skip.skip

theorem DerivesStmts.within {ss : List Stmt} (h : DerivesStmts ts ss) :
    ∀ s ∈ ss, (Node.stmt s).Within ts := by
  induction ss generalizing ts with
  | nil => exact fun _ hs => absurd hs List.not_mem_nil
  | cons s ss ih =>
    cases h with
    | cons hs hss =>
      exact List.forall_mem_cons.mpr
        ⟨hs.within.widen, fun s' hs' => (ih hss s' hs').skips⟩

theorem DerivesBlock.within {b : Block} (h : DerivesBlock ts b) :
    (Node.stmt (.block b)).Within ts :=
  (DerivesStmt.block h).within

theorem DerivesBlock.body_within {b : Block} (h : DerivesBlock ts b) :
    ∀ s ∈ b.body, (Node.stmt s).Within ts := by
  cases h with
  | mk _ hs _ => exact fun s hmem => (hs.within s hmem).widen.skip

theorem DerivesElse.within {rest : Else} (h : DerivesElse ts rest) :
    ∀ s ∈ rest.stmts, (Node.stmt s).Within ts := by
  cases h with
  | none => exact fun _ hs => absurd hs List.not_mem_nil
  | block _ hb => exact List.forall_mem_singleton.mpr hb.within.skip
  -- the second `if` begins with its own keyword, the `else` before it is dropped
  | elseIf _ hi htest hb hrest =>
    exact List.forall_mem_singleton.mpr (DerivesStmt.ifElse hi htest hb hrest).within.skip

theorem DerivesInit.within {init : ForInit} (h : DerivesInit ts init) :
    ∀ s ∈ init.stmts, (Node.stmt s).Within ts := by
  cases h with
  | none => exact fun _ hs => absurd hs List.not_mem_nil
  | declare hd => exact List.forall_mem_singleton.mpr (DerivesStmt.declare hd).within
  | expr he hs => exact List.forall_mem_singleton.mpr (DerivesStmt.expr he hs).within

end Grammar

namespace Node

variable {ts : List Token} {layers : List Layer}

theorem within_exprsIn {es : List Expr} (h : ∀ e ∈ es, (Node.expr e).Within ts) :
    ∀ x ∈ exprsIn layers es, x.2.Within ts := List.forall_mem_map.mpr h

theorem within_stmtsIn {ss : List Stmt} (h : ∀ s ∈ ss, (Node.stmt s).Within ts) :
    ∀ x ∈ stmtsIn layers ss, x.2.Within ts := List.forall_mem_map.mpr h

/-- The nodes directly below a statement are built from stretches of its tokens. -/
theorem within_partsOfStmt {s : Stmt} (h : DerivesStmt ts s) :
    ∀ x ∈ partsOfStmt s, x.2.Within ts := by
  cases h with
  -- each part stands within the tokens behind those skipped, up to those it is widened by
  | property _ hes _ _ _ =>
    exact within_exprsIn fun e he =>
      (hes.within e (List.mem_of_mem_head? (Option.mem_toList.mp he))).widen.skip
  | body _ _ _ _ _ hstyle _ hs _ _ _ _ =>
    refine List.forall_mem_append.mpr ⟨within_exprsIn ?_, within_stmtsIn fun s hmem => ?_⟩
    · exact List.forall_mem_singleton.mpr hstyle.within.widen.skip.skip.skip.skip.skip.widen
    · exact (hs.within s hmem).skip.skip.skip.skip.skip.skip.skip.widen
  | func _ _ _ hb => exact within_stmtsIn fun s hmem => (hb.body_within s hmem).skips
  | declare hd => exact within_exprsIn hd.within
  | ifElse _ htest hb hrest =>
    refine List.forall_mem_append.mpr ⟨within_exprsIn ?_, within_stmtsIn ?_⟩
    · exact List.forall_mem_singleton.mpr htest.within.skip.widen.widen
    · exact List.forall_mem_cons.mpr
        ⟨hb.within.skips.widen, fun s hmem => (hrest.within s hmem).skips⟩
  | «while» _ htest hb =>
    refine List.forall_mem_append.mpr ⟨within_exprsIn ?_, within_stmtsIn ?_⟩
    · exact List.forall_mem_singleton.mpr htest.within.skip.widen
    · exact List.forall_mem_singleton.mpr hb.within.skips
  | «for» _ _ hinit htest _ hupdate _ hb =>
    refine List.forall_mem_append.mpr ⟨List.forall_mem_append.mpr ⟨List.forall_mem_append.mpr
      ⟨within_stmtsIn fun s hmem => ?_, within_exprsIn fun e he => ?_⟩,
      within_exprsIn fun e he => ?_⟩, within_stmtsIn ?_⟩
    · exact (hinit.within s hmem).skip.skip.widen.widen.widen
    · exact (htest.within e he).skips.widen.widen
    · exact (hupdate.within e he).skip.skips.widen
    · exact List.forall_mem_singleton.mpr hb.within.skip.skips
  | «return» _ hvalue _ => exact within_exprsIn fun e he => (hvalue.within e he).widen.skip
  | «break» | «continue» => exact fun _ hx => absurd hx List.not_mem_nil
  | block hb => exact within_stmtsIn hb.body_within
  | expr he _ => exact within_exprsIn (List.forall_mem_singleton.mpr he.within.widen)

/-- The nodes directly below a node are built from stretches of its tokens. -/
theorem BuiltFrom.parts {n : Node} (h : n.BuiltFrom ts) : ∀ x ∈ n.parts, x.2.Within ts := by
  cases n with
  | program p =>
    cases h with
    | mk hs _ _ => exact within_stmtsIn fun s hmem => (hs.within s hmem).widen
  | stmt s => exact within_partsOfStmt h
  | expr e => exact within_exprsIn (Builds.operands h)

/-- Whatever lies below a node that is built from some tokens is built from a stretch of them. -/
theorem Below.within {n m : Node} (h : n.Below layers m) (hn : n.BuiltFrom ts) : m.Within ts := by
  induction h with
  | self => exact hn.within
  | part _ hk ih =>
    obtain ⟨us, hus, hm⟩ := ih
    exact (hm.parts _ hk).mono hus

end Node

/-! ## Where nodes stand -/

/-- The expressions that take their place from their left part. -/
def Expr.inherits : Expr → Bool
  | .binary .. | .logical .. | .assign .. | .call .. => true
  | _ => false

namespace Grammar

variable {ts : List Token} {t : Token} {e : Expr}

/-- A token spells an expression that is a name. -/
def Spells (t : Token) : Expr → Prop
  | .ident _ name => t.kind = .identifier ∧ t.text = name
  | _ => True

/-- The token at which an expression stands; it is the name itself where the expression is one. -/
structure Heads (t : Token) (e : Expr) : Prop where
  bare : t.kind ≠ .lparen
  pos : t.pos = e.pos
  spells : Spells t e

theorem heads_of_kind {kind : TokenKind} (ht : t.kind = kind) (hkind : kind ≠ .lparen)
    (hpos : t.pos = e.pos) (hspells : Spells t e) : Heads t e :=
  ⟨ht.trans_ne hkind, hpos, hspells⟩

/-- Opening parentheses, then the token at which the expression stands. -/
def OpensAt (ts : List Token) (e : Expr) : Prop :=
  ∃ opening t rest, ts = opening ++ t :: rest ∧ (∀ o ∈ opening, o.kind = .lparen) ∧ Heads t e

theorem Heads.opens (h : Heads t e) : OpensAt (t :: ts) e :=
  ⟨[], t, ts, rfl, fun _ ho => absurd ho List.not_mem_nil, h⟩

theorem OpensAt.single (h : OpensAt [t] e) : Heads t e := by
  obtain ⟨opening, u, rest, hts, -, hheads⟩ := h
  cases opening with
  | nil => exact (List.cons.inj hts).1 ▸ hheads
  | cons o opening => simp at hts

theorem OpensAt.widen {us : List Token} (h : OpensAt ts e) : OpensAt (ts ++ us) e := by
  obtain ⟨opening, t, rest, rfl, hopening, hheads⟩ := h
  exact ⟨opening, t, rest ++ us, by simp, hopening, hheads⟩

theorem OpensAt.parens {o : Token} (ho : o.kind = .lparen) (h : OpensAt ts e) :
    OpensAt (o :: ts) e := by
  obtain ⟨opening, t, rest, rfl, hopening, hheads⟩ := h
  exact ⟨o :: opening, t, rest, rfl, List.forall_mem_cons.mpr ⟨ho, hopening⟩, hheads⟩

/-- A compound expression stands where its left part stands. -/
theorem OpensAt.inherit {f : Expr} (h : OpensAt ts f) (hpos : f.pos = e.pos)
    (hspells : ∀ t, Spells t e) : OpensAt ts e := by
  obtain ⟨opening, t, rest, hts, hopening, hheads⟩ := h
  exact ⟨opening, t, rest, hts, hopening, hheads.bare, hheads.pos.trans hpos, hspells t⟩

theorem Joins.spells {ℓ : Level} {kind : TokenKind} {join : Position → Expr → Expr → Expr}
    (h : Joins ℓ kind join) (p : Position) (l r : Expr) (t : Token) : Spells t (join p l r) := by
  cases h <;> trivial

theorem Joins.inherits {ℓ : Level} {kind : TokenKind} {join : Position → Expr → Expr → Expr}
    (h : Joins ℓ kind join) (p : Position) (l r : Expr) :
    (join p l r).inherits = true ∧ ∀ pos name e, join p l r ≠ .assign pos name e := by
  cases h <;> exact ⟨rfl, nofun⟩

theorem Leads.ne_lparen {kind : TokenKind} {op : UnaryOp} (h : Leads kind op) :
    kind ≠ .lparen := by
  cases h <;> nofun

/-- An expression stands at the first of its tokens that opens no parentheses. -/
theorem DerivesExpr.opensAt : ∀ {ℓ : Level} {ts : List Token} {e : Expr}, DerivesExpr ℓ ts e →
    OpensAt ts e
  | _, _, _, .tighter _ h => h.opensAt
  | _, _, _, .parens ho h _ => .parens ho h.opensAt.widen
  | _, _, _, .assign ht _ _ => .widen (ht.opensAt.inherit rfl fun _ => trivial)
  | _, _, _, @DerivesExpr.joined _ _ _ _ _ _ _ _ _ hjoin hl _ =>
    .widen (hl.opensAt.inherit (hjoin.pos_operands _ _ _).1.symm (hjoin.spells _ _ _))
  | _, _, _, .call hf _ => .widen (hf.opensAt.inherit rfl fun _ => trivial)
  | _, _, _, .led ho _ => Heads.opens ⟨ho.ne_lparen, rfl, trivial⟩
  | _, _, _, .content ht _ => Heads.opens (heads_of_kind ht nofun rfl trivial)
  | _, _, _, .number ht _ => Heads.opens (heads_of_kind ht nofun rfl trivial)
  | _, _, _, .string ht => Heads.opens (heads_of_kind ht nofun rfl trivial)
  | _, _, _, .bool ht => Heads.opens (heads_of_kind ht nofun rfl trivial)
  | _, _, _, .null ht => Heads.opens (heads_of_kind ht nofun rfl trivial)
  | _, _, _, .ident ht => Heads.opens (heads_of_kind ht nofun rfl ⟨ht, rfl⟩)

end Grammar

namespace Node

/-- Where a node stands: at a token, behind parentheses that open before it. Only expressions that
take their place from their left part stand behind parentheses, and an assignment stands at the name
that it assigns to. -/
structure StandsAt (n : Node) (opening : List Token) (t : Token) : Prop where
  pos : t.pos = n.pos
  parens : ∀ o ∈ opening, o.kind = .lparen
  inherits : opening ≠ [] → ∃ e, n = .expr e ∧ e.inherits = true
  bare : ∀ e, n = .expr e → t.kind ≠ .lparen
  target : ∀ pos name e, n = .expr (.assign pos name e) → t.kind = .identifier ∧ t.text = name

variable {ts : List Token} {t : Token} {n : Node} {e : Expr}

/-- Programs and statements stand at their first token. -/
theorem standsAt_nil (hpos : t.pos = n.pos) (hn : ∀ e, n ≠ .expr e) : n.StandsAt [] t where
  pos := hpos
  parens _ ho := absurd ho List.not_mem_nil
  inherits h := absurd rfl h
  bare e he := absurd he (hn e)
  target _ _ _ he := absurd he (hn _)

/-- Expressions that do not inherit their place stand at their first token. -/
theorem standsAt_head (h : Heads t e) (he : e.inherits = false) :
    (Node.expr e).StandsAt [] t where
  pos := h.pos
  parens _ ho := absurd ho List.not_mem_nil
  inherits h := absurd rfl h
  bare _ _ := h.bare
  target pos name v heq := by
    cases heq
    cases he

/-- Expressions that inherit their place stand where their left part stands. -/
theorem standsAt_inherited {f : Expr} (h : OpensAt ts f) (hpos : f.pos = e.pos)
    (he : e.inherits = true)
    (htarget : ∀ t pos name v, Heads t f → e = .assign pos name v →
      t.kind = .identifier ∧ t.text = name) :
    ∃ opening t rest, ts = opening ++ t :: rest ∧ (Node.expr e).StandsAt opening t := by
  obtain ⟨opening, t, rest, hts, hopening, hheads⟩ := h
  exact ⟨opening, t, rest, hts, hheads.pos.trans hpos, hopening, fun _ => ⟨e, rfl, he⟩,
    fun _ _ => hheads.bare, fun pos name v heq => htarget t pos name v hheads (expr.inj heq)⟩

theorem inherits_of_operands (h : e.operands = []) : e.inherits = false := by
  cases e <;> first | rfl | cases h

/-- Expressions stand at the first of their tokens that opens no parentheses. -/
theorem standsAt_of_builds (h : Builds ts e) :
    ∃ opening t rest, ts = opening ++ t :: rest ∧ (Node.expr e).StandsAt opening t := by
  cases h with
  | leaf he =>
    have hinherits := inherits_of_operands (operands_of_single he)
    exact ⟨[], _, _, rfl, standsAt_head he.opensAt.single hinherits⟩
  | content ht _ =>
    exact ⟨[], _, _, rfl, standsAt_head (heads_of_kind ht nofun rfl trivial) rfl⟩
  | led ho _ => exact ⟨[], _, _, rfl, standsAt_head ⟨ho.ne_lparen, rfl, trivial⟩ rfl⟩
  | call hf _ =>
    refine standsAt_inherited hf.opensAt.widen rfl rfl fun _ _ _ _ _ heq => ?_
    cases heq
  -- what is joined has the place of its left operand, and the parentheses around that too
  | joined _ hjoin hl _ =>
    obtain ⟨hinherits, hassign⟩ := hjoin.inherits _ _ _
    exact standsAt_inherited hl.opensAt.widen (hjoin.pos_operands _ _ _).1.symm hinherits
      fun _ pos name v _ heq => absurd heq (hassign pos name v)
  | assign ht _ _ =>
    refine standsAt_inherited ht.opensAt.widen rfl rfl fun t _ _ _ hheads heq => ?_
    cases heq
    exact hheads.spells

/-- Statements stand at their first token. -/
theorem first_of_stmt {s : Stmt} (h : DerivesStmt ts s) :
    ∃ t rest, ts = t :: rest ∧ t.pos = s.pos := by
  cases h with
  | declare hd => cases hd <;> exact ⟨_, _, rfl, rfl⟩
  | block hb =>
    cases hb
    exact ⟨_, _, rfl, rfl⟩
  | _ => exact ⟨_, _, rfl, rfl⟩

/-- Programs stand at their first token, which is the end marker if there is no other. -/
theorem first_of_program {p : Program} (h : DerivesProgram ts p) :
    ∃ t rest, ts = t :: rest ∧ t.pos = p.pos := by
  cases h with
  | mk _ _ hfirst =>
    obtain ⟨rest, hrest⟩ := List.head?_eq_some_iff.mp hfirst
    exact ⟨_, rest, hrest, rfl⟩

/-- Where a node stands among the tokens it is built from. -/
theorem BuiltFrom.standsAt (h : n.BuiltFrom ts) :
    ∃ opening t rest, ts = opening ++ t :: rest ∧ n.StandsAt opening t := by
  cases n with
  | program p =>
    obtain ⟨t, rest, rfl, hpos⟩ := first_of_program h
    exact ⟨[], t, rest, rfl, standsAt_nil hpos nofun⟩
  | stmt s =>
    obtain ⟨t, rest, rfl, hpos⟩ := first_of_stmt h
    exact ⟨[], t, rest, rfl, standsAt_nil hpos nofun⟩
  | expr e => exact standsAt_of_builds h

/-- At places in order, a node stands at its first token only if no parentheses open before it. -/
theorem StandsAt.head_iff {opening rest : List Token} (h : n.StandsAt opening t)
    (hordered : (opening ++ t :: rest).Pairwise fun t u => t.pos.Before u.pos) :
    (opening ++ t :: rest).head?.map Token.pos = some n.pos ↔ opening = [] := by
  cases opening with
  | nil => exact iff_of_true (congrArg some h.pos) rfl
  | cons o opening =>
    have hbefore : o.pos.Before t.pos :=
      List.rel_of_pairwise_cons hordered (List.mem_append_right _ List.mem_cons_self)
    refine iff_of_false (fun hpos => ?_) (List.cons_ne_nil _ _)
    exact hbefore.ne (Option.some.inj hpos |>.trans h.pos.symm)

end Node

namespace Program

/-- Where the nodes of a parsed program stand. Every node is built from a stretch of the tokens, and
it stands at the first token of this stretch that is none of the parentheses which open before its
left part; so it stands at the first token unless there are any. -/
theorem parse_places {allowance : Nat} {path source : String} {p : Program}
    (hparse : parseWithin allowance path source = .ok p) :
    ∃ tokens, Token.scan path source = .ok tokens ∧
      ∀ layers n, Occurs p layers n → n.Within tokens ∧
        ∀ ts, ts <:+: tokens → n.BuiltFrom ts →
          ∃ opening t rest, ts = opening ++ t :: rest ∧ n.StandsAt opening t ∧
            (ts.head?.map Token.pos = some n.pos ↔ opening = []) := by
  obtain ⟨tokens, hscan, hparse⟩ := exists_tokens_of_parseWithin hparse
  have hscanned := Token.scanned_scan hscan
  have hderives : DerivesProgram tokens p := derives_of_parseTokensWithin hscanned hparse
  refine ⟨tokens, hscan, fun layers n hoccurs => ?_⟩
  obtain ⟨_, hbelow, _⟩ := hoccurs
  refine ⟨hbelow.within (n := .program p) hderives, fun ts hts hn => ?_⟩
  obtain ⟨opening, t, rest, rfl, hstands⟩ := hn.standsAt
  exact ⟨opening, t, rest, rfl, hstands,
    hstands.head_iff (hscanned.ordered.sublist hts.sublist)⟩

/-- A sum whose left operand is in parentheses stands at the name in them. -/
theorem exists_parenthesised_operand :
    ∃ p tokens layers n ts, parse "" "(a) + b;" = .ok p ∧ Token.scan "" "(a) + b;" = .ok tokens ∧
      Occurs p layers n ∧ ts <:+: tokens ∧ n.BuiltFrom ts ∧
      ts.head?.map Token.pos = some ⟨1, 1⟩ ∧ n.pos = ⟨1, 2⟩ := by
  let left : List Token :=
    [⟨.lparen, "(", ⟨1, 1⟩⟩, ⟨.identifier, "a", ⟨1, 2⟩⟩, ⟨.rparen, ")", ⟨1, 3⟩⟩]
  let right : List Token := [⟨.identifier, "b", ⟨1, 7⟩⟩]
  let plus : Token := ⟨.plus, "+", ⟨1, 5⟩⟩
  let sum : Expr := .binary ⟨1, 2⟩ .add (.ident ⟨1, 2⟩ "a") (.ident ⟨1, 7⟩ "b")
  -- the left operand climbs through all levels twice, inside its parentheses and around them
  have hname {t : Token} (ht : t.kind = .identifier) :
      DerivesExpr .product [t] (.ident t.pos t.text) :=
    .tighter rfl (.tighter rfl (.tighter rfl (.ident ht)))
  have hleft : DerivesExpr .sum left (.ident ⟨1, 2⟩ "a") :=
    .tighter rfl (.tighter rfl (.tighter rfl (.tighter rfl (.parens rfl
      (.tighter rfl (.tighter rfl (.tighter rfl (.tighter rfl (.tighter rfl (.tighter rfl
        (hname rfl))))))) rfl))))
  have hbuilt : (Node.expr sum).BuiltFrom (left ++ plus :: right) :=
    Builds.joined (o := plus) rfl .add hleft (hname rfl)
  have hoccurs : Occurs ⟨⟨1, 1⟩, [.expr ⟨1, 1⟩ sum]⟩ _ (.expr sum) :=
    (Occurs.root.part (Node.mem_stmtsIn.mpr ⟨rfl, _, List.mem_singleton_self _, rfl⟩)).part
      (Node.mem_exprsIn.mpr ⟨rfl, sum, List.mem_singleton_self _, rfl⟩)
  have hscan : ∃ rest, Token.scan "" "(a) + b;" = .ok (left ++ plus :: right ++ rest) :=
    ⟨_, by cbv⟩
  obtain ⟨rest, hscan⟩ := hscan
  exact ⟨_, _, _, _, _, by cbv, hscan, hoccurs, (List.prefix_append _ rest).isInfix, hbuilt, rfl,
    rfl⟩

/-- The sum stands behind the parenthesis that opens before its left operand. -/
theorem parse_places_parenthesised :
    ∃ p layers n opening t, parse "" "(a) + b;" = .ok p ∧ Occurs p layers n ∧
      n.StandsAt opening t ∧ opening ≠ [] := by
  obtain ⟨p, tokens, layers, n, ts, hparse, hscan, hoccurs, hts, hbuilt, hfirst, hpos⟩ :=
    exists_parenthesised_operand
  obtain ⟨tokens', hscan', hplaces⟩ := parse_places hparse
  obtain rfl : tokens = tokens' := Except.ok.inj (hscan.symm.trans hscan')
  obtain ⟨opening, t, rest, -, hstands, hiff⟩ := (hplaces layers n hoccurs).2 ts hts hbuilt
  refine ⟨p, layers, n, opening, t, hparse, hoccurs, hstands, fun hnil => ?_⟩
  rw [← hiff, hfirst, hpos] at hnil
  exact absurd hnil (by decide)

/-- Not every node stands at the first token that it is built from. -/
theorem parse_places_not_first :
    ¬ ∀ source p tokens, parse "" source = .ok p → Token.scan "" source = .ok tokens →
      ∀ layers n, Occurs p layers n → ∀ ts, ts <:+: tokens → n.BuiltFrom ts →
        ts.head?.map Token.pos = some n.pos := by
  obtain ⟨p, tokens, layers, n, ts, hparse, hscan, hoccurs, hts, hbuilt, hfirst, hpos⟩ :=
    exists_parenthesised_operand
  intro h
  have hplace := h _ p tokens hparse hscan layers n hoccurs ts hts hbuilt
  rw [hfirst, hpos] at hplace
  exact absurd hplace (by decide)

end Program

end MiniApp
