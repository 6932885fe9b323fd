import Mathlib
import MiniApp.Proofs.Format.Lexemes
import MiniApp.Proofs.Format.Unplaced
import MiniApp.Proofs.Grammar.Decision

/-!
# Canonical texts are read back

The canonical lexemes of a derived tree derive the same tree again, places aside: parentheses stand
wherever an operand would otherwise be taken apart differently. With the layout of canonical texts
and the decision of the grammar by parsing, a program is read back from its canonical text.

## Main results

* `Grammar.DerivesExpr.respelled`, `Grammar.DerivesStmt.respelled`: canonical lexemes derive the
  tree again
* `Program.format_roundTrip`: a canonical text is parsed as the program it was made from
-/

namespace MiniApp

open Grammar Lexical

/-- `Respelled ls G u`: tokens that carry the lexemes `ls` derive something that is `u` once its
places are forgotten. -/
def Respelled {α : Type} (ls : List (TokenKind × String)) (G : List Token → α → Prop)
    (unplaced : α → α) (u : α) : Prop :=
  ∀ ts : List Token, ts.map Token.lexeme = ls → ∃ a, G ts a ∧ unplaced a = u

/-! Tokens that carry given lexemes are taken apart as the lexemes are. -/

section Split

variable {ts : List Token} {k : TokenKind} {w : String} {ls rls : List (TokenKind × String)}

theorem split_nil (h : ts.map Token.lexeme = []) : ts = [] := List.map_eq_nil_iff.mp h

theorem split_cons (h : ts.map Token.lexeme = (k, w) :: ls) :
    ∃ t us, ts = t :: us ∧ t.kind = k ∧ t.text = w ∧ us.map Token.lexeme = ls := by
  obtain ⟨t, us, hts, ht, hus⟩ := List.map_eq_cons_iff.mp h
  exact ⟨t, us, hts, congrArg Prod.fst ht, congrArg Prod.snd ht, hus⟩

theorem split_one (h : ts.map Token.lexeme = [(k, w)]) :
    ∃ t, ts = [t] ∧ t.kind = k ∧ t.text = w := by
  obtain ⟨t, us, rfl, hk, hw, hus⟩ := split_cons h
  exact ⟨t, by rw [split_nil hus], hk, hw⟩

theorem split_append (h : ts.map Token.lexeme = ls ++ rls) :
    ∃ us vs, ts = us ++ vs ∧ us.map Token.lexeme = ls ∧ vs.map Token.lexeme = rls :=
  List.map_eq_append_iff.mp h

theorem split_parens (h : ts.map Token.lexeme = parenthesizedLexemes ls) :
    ∃ o c us, ts = o :: us ++ [c] ∧ o.kind = .lparen ∧ c.kind = .rparen ∧
      us.map Token.lexeme = ls := by
  obtain ⟨o, us, rfl, ho, -, hus⟩ := split_cons h
  obtain ⟨vs, ws, rfl, hvs, hws⟩ := split_append hus
  obtain ⟨c, rfl, hc, -⟩ := split_one hws
  exact ⟨o, c, vs, rfl, ho, hc, hvs⟩

end Split

theorem Grammar.Level.rank_injective {ℓ m : Level} (h : ℓ.rank = m.rank) : ℓ = m := by
  cases ℓ <;> cases m <;> first | rfl | simp [Level.rank] at h

/-- What is derived at a level is derived at every looser one. -/
theorem Grammar.DerivesExpr.loosen {ℓ m : Level} {ts : List Token} {e : Expr}
    (h : DerivesExpr m ts e) (hrank : ℓ.rank ≤ m.rank) : DerivesExpr ℓ ts e := by
  -- on the number of levels between the two
  obtain ⟨n, hn⟩ := Nat.exists_eq_add_of_le hrank
  induction n generalizing ℓ with
  | zero => rwa [Level.rank_injective hn.symm]
  | succ n ih =>
    cases hnext : ℓ.next? with
    | none =>
      cases ℓ <;> cases hnext
      cases m <;> simp [Level.rank] at hn <;> omega
    | some k =>
      have hk := Level.rank_next hnext
      exact .tighter hnext (ih (by omega) (by omega))

/-- The level at which the canonical lexemes of an expression derive it. -/
def Expr.level (e : Expr) : Level := if e.isCompound then .assignment else .call

theorem respelled_operand {e : Expr} (h : Respelled e.lexemes (DerivesExpr e.level) Expr.unplaced
      e.unplaced) :
    Respelled (operandLexemes e.isCompound e.lexemes) (DerivesExpr .call) Expr.unplaced
      e.unplaced := by
  intro ts hts
  rw [Expr.level] at h
  cases hcompound : e.isCompound with
  | false =>
    rw [hcompound] at h hts
    exact h ts hts
  | true =>
    -- between parentheses a phrase of any level is primary
    rw [hcompound] at h hts
    obtain ⟨o, c, us, rfl, ho, hc, hus⟩ := split_parens hts
    obtain ⟨q, hq, heq⟩ := h us hus
    exact ⟨q, .tighter rfl (.parens ho hq hc), heq⟩

theorem unplaced_of_joins {ℓ : Level} {k : TokenKind} {join : Position → Expr → Expr → Expr}
    (h : Joins ℓ k join) (pos : Position) (l r : Expr) :
    (join pos l r).unplaced = join .start l.unplaced r.unplaced := by
  cases h <;> rfl

theorem lexemes_of_joins {ℓ : Level} {k : TokenKind} {join : Position → Expr → Expr → Expr}
    (h : Joins ℓ k join) (pos : Position) (l r : Expr) :
    ∃ w, (join pos l r).lexemes = operandLexemes l.isCompound l.lexemes ++
      (k, w) :: operandLexemes r.isCompound r.lexemes := by
  cases h <;> exact ⟨_, rfl⟩

theorem level_of_joins {ℓ : Level} {k : TokenKind} {join : Position → Expr → Expr → Expr}
    (h : Joins ℓ k join) (pos : Position) (l r : Expr) :
    (join pos l r).level = .assignment ∧ ℓ.rank ≤ 6 := by
  cases h <;> exact ⟨rfl, by decide⟩

mutual

theorem Grammar.DerivesExpr.respelled : ∀ {ℓ : Level} {ts : List Token} {e : Expr},
    DerivesExpr ℓ ts e → Respelled e.lexemes (DerivesExpr e.level) Expr.unplaced e.unplaced
  | _, _, _, .tighter _ h => h.respelled
  | _, _, _, @DerivesExpr.assign _ _ _ _ name e _ _ hvalue => by
    intro ts hts
    obtain ⟨t, us, rfl, ht, htext, hus⟩ := split_cons hts
    obtain ⟨o, vs, rfl, ho, -, hvs⟩ := split_cons hus
    obtain ⟨q, hq, heq⟩ := respelled_operand hvalue.respelled vs hvs
    have htarget : DerivesExpr .primary [t] (.ident t.pos name) := htext ▸ .ident ht
    refine ⟨.assign t.pos name q, ?_, by simp only [Expr.unplaced, heq]⟩
    exact .assign (htarget.loosen (by decide)) ho (hq.loosen (by decide))
  | _, _, _, @DerivesExpr.joined ℓ m _ join _ _ l r hnext hjoins hl hr => by
    obtain ⟨w, hw⟩ := lexemes_of_joins hjoins l.pos l r
    obtain ⟨hlevel, hrank⟩ := level_of_joins hjoins l.pos l r
    rw [hw, hlevel]
    intro ts hts
    obtain ⟨us, vs, rfl, hus, hvs⟩ := split_append hts
    obtain ⟨o, ws, rfl, ho, -, hws⟩ := split_cons hvs
    obtain ⟨l', hl', hleq⟩ := respelled_operand hl.respelled us hus
    obtain ⟨r', hr', hreq⟩ := respelled_operand hr.respelled ws hws
    -- operands are derived as calls, which is tighter than any level of operators
    have hm := Level.rank_next hnext
    have hcall : Level.call.rank = 8 := rfl
    refine ⟨join l'.pos l' r', ?_, ?_⟩
    · have hjoined : DerivesExpr ℓ (us ++ o :: ws) (join l'.pos l' r') :=
        .joined hnext (ho ▸ hjoins) (hl'.loosen (by omega)) (hr'.loosen (by omega))
      exact hjoined.loosen (Nat.zero_le _)
    · rw [unplaced_of_joins hjoins, unplaced_of_joins hjoins, hleq, hreq]
  | _, _, _, @DerivesExpr.led _ op _ e hleads he => by
    intro ts hts
    obtain ⟨o, us, rfl, ho, -, hus⟩ := split_cons hts
    obtain ⟨q, hq, heq⟩ := respelled_operand he.respelled us hus
    refine ⟨.unary o.pos op q, ?_, by simp only [Expr.unplaced, heq]⟩
    have hled : DerivesExpr .unary (o :: us) (.unary o.pos op q) :=
      .led (by rw [ho]; exact hleads.kind) (hq.loosen (by decide))
    exact hled.loosen (Nat.zero_le _)
  | _, _, _, @DerivesExpr.call _ _ f es hf hes => by
    intro ts hts
    obtain ⟨us, vs, rfl, hus, hvs⟩ := split_append hts
    obtain ⟨g, hg, hgeq⟩ := respelled_operand hf.respelled us hus
    obtain ⟨qs, hqs, heq⟩ := hes.respelled vs hvs
    exact ⟨.call g.pos g qs, .call hg hqs, by simp only [Expr.unplaced, hgeq, heq]⟩
  | _, _, _, @DerivesExpr.number t n _ hread => by
    intro ts hts
    obtain ⟨u, rfl, hk, htext⟩ := split_one hts
    refine ⟨.number u.pos n t.text, ?_, rfl⟩
    rw [← htext] at hread ⊢
    exact .tighter rfl (.number hk hread)
  | _, _, _, @DerivesExpr.string t _ => by
    intro ts hts
    obtain ⟨u, rfl, hk, htext⟩ := split_one hts
    exact ⟨.string u.pos t.text, .tighter rfl (htext ▸ .string hk), rfl⟩
  | _, _, _, @DerivesExpr.bool t _ => by
    intro ts hts
    obtain ⟨u, rfl, hk, htext⟩ := split_one hts
    -- the token may carry another word than the canonical one, but the same truth value
    have hvalue : (u.text == "true") = (t.text == "true") := by
      rw [htext]
      cases t.text == "true" <;> rfl
    exact ⟨.bool u.pos (t.text == "true"), .tighter rfl (hvalue ▸ .bool hk), rfl⟩
  | _, _, _, .null _ => by
    intro ts hts
    obtain ⟨u, rfl, hk, -⟩ := split_one hts
    exact ⟨.null u.pos, .tighter rfl (.null hk), rfl⟩
  | _, _, _, @DerivesExpr.ident t _ => by
    intro ts hts
    obtain ⟨u, rfl, hk, htext⟩ := split_one hts
    exact ⟨.ident u.pos t.text, .tighter rfl (htext ▸ .ident hk), rfl⟩
  | _, _, _, .parens _ h _ => h.respelled
  | _, _, _, .content _ hes => by
    intro ts hts
    obtain ⟨t, us, rfl, ht, -, hus⟩ := split_cons hts
    obtain ⟨qs, hqs, heq⟩ := hes.respelled us hus
    exact ⟨.content t.pos qs, .tighter rfl (.content ht hqs), by simp only [Expr.unplaced, heq]⟩

theorem Grammar.DerivesArgs.respelled : ∀ {ts : List Token} {es : List Expr}, DerivesArgs ts es →
    Respelled (parenthesizedLexemes (commaLexemes (Expr.lexemesOf es))) DerivesArgs
      Expr.unplacedAll (Expr.unplacedAll es)
  | _, _, .none _ _ => by
    intro ts hts
    obtain ⟨o, c, us, rfl, ho, hc, hus⟩ := split_parens hts
    obtain rfl := split_nil hus
    exact ⟨[], .none ho hc, rfl⟩
  | _, _, .some _ hes _ => by
    intro ts hts
    obtain ⟨o, c, us, rfl, ho, hc, hus⟩ := split_parens hts
    obtain ⟨qs, hqs, heq⟩ := hes.respelled us hus
    exact ⟨qs, .some ho hqs hc, heq⟩

theorem Grammar.DerivesList.respelled : ∀ {ts : List Token} {es : List Expr}, DerivesList ts es →
    Respelled (commaLexemes (Expr.lexemesOf es)) DerivesList Expr.unplacedAll (Expr.unplacedAll es)
  | _, _, .one he => by
    intro ts hts
    obtain ⟨q, hq, heq⟩ := he.respelled ts (by simpa [commaLexemes, Expr.lexemesOf] using hts)
    exact ⟨[q], .one (hq.loosen (Nat.zero_le _)), by simp only [Expr.unplacedAll, heq]⟩
  | _, _, .more he _ hes => by
    have hfirst := he.respelled
    have hmore := hes.respelled
    intro ts hts
    obtain ⟨e', es', rfl⟩ := List.exists_cons_of_ne_nil hes.args_ne_nil
    rw [Expr.lexemesOf, Expr.lexemesOf, commaLexemes_cons_cons] at hts
    obtain ⟨us, vs, rfl, hus, hvs⟩ := split_append hts
    obtain ⟨o, ws, rfl, ho, -, hws⟩ := split_cons hvs
    obtain ⟨q, hq, heq⟩ := hfirst us hus
    obtain ⟨qs, hqs, heqs⟩ := hmore ws hws
    refine ⟨q :: qs, .more (hq.loosen (Nat.zero_le _)) ho hqs, ?_⟩
    simp only [Expr.unplacedAll, heq] at heqs ⊢
    rw [heqs]

end

/-! ## Statements -/

theorem Stmt.isBody_unplaced (s : Stmt) : s.unplaced.isBody = s.isBody := by
  cases s <;> rfl

theorem isBody_of_unplacedAll {ss ss' : List Stmt} (h : Stmt.unplacedAll ss = Stmt.unplacedAll ss')
    (hflat : ∀ s ∈ ss', s.isBody = false) : ∀ s ∈ ss, s.isBody = false := by
  simp only [Stmt.unplacedAll_eq_map] at h
  intro s hs
  obtain ⟨s', hs', heq⟩ : ∃ s' ∈ ss', s'.unplaced = s.unplaced := by
    simpa [h] using List.mem_map_of_mem (f := Stmt.unplaced) hs
  rw [← s.isBody_unplaced, ← heq, s'.isBody_unplaced]
  exact hflat s' hs'

theorem Grammar.Binds.kind {k : TokenKind} {d : DeclarationKind} (h : Binds k d) :
    Binds d.tokenKind d := by
  cases h <;> constructor

theorem Grammar.Declares.kind {k : TokenKind} {p : Property} (h : Declares k p) :
    Declares p.kind p := by
  cases h <;> constructor

theorem respelled_option {ts : List Token} {value : Option Expr} (h : DerivesOption ts value) :
    Respelled (optionalLexemes [] value) DerivesOption (·.map Expr.unplaced)
      (value.map Expr.unplaced) := by
  intro us hus
  cases h with
  | none =>
    obtain rfl := split_nil hus
    exact ⟨none, .none, rfl⟩
  | some he =>
    obtain ⟨q, hq, heq⟩ := he.respelled us hus
    exact ⟨some q, .some (hq.loosen (Nat.zero_le _)), congrArg some heq⟩

/-- Declarations are given by their parts, so they are respelled with the place as the only part
that may change. -/
theorem respelled_declaration {ts us : List Token} {pos : Position} {kind : DeclarationKind}
    {name : String} {init : Option Expr} (h : DerivesDecl ts pos kind name init)
    (hus : us.map Token.lexeme = declarationLexemes kind name init) :
    ∃ pos' init', DerivesDecl us pos' kind name init' ∧
      init'.map Expr.unplaced = init.map Expr.unplaced := by
  obtain ⟨k, vs, rfl, hk, -, hvs⟩ := split_cons hus
  obtain ⟨t, ws, rfl, ht, htext, hws⟩ := split_cons hvs
  cases h with
  | plain hbinds _ _ =>
    obtain ⟨s, rfl, hs, -⟩ := split_one hws
    exact ⟨k.pos, none, htext ▸ .plain (by rw [hk]; exact hbinds.kind) ht hs, rfl⟩
  | @init _ _ _ _ _ _ e hbinds _ _ he _ =>
    obtain ⟨o, xs, rfl, ho, -, hxs⟩ := split_cons hws
    obtain ⟨xs, ys, rfl, hxs', hys⟩ := split_append hxs
    obtain ⟨s, rfl, hs, -⟩ := split_one hys
    obtain ⟨q, hq, heq⟩ := he.respelled xs hxs'
    exact ⟨k.pos, some q, htext ▸ .init (by rw [hk]; exact hbinds.kind) ht ho
      (hq.loosen (Nat.zero_le _)) hs, congrArg some heq⟩

theorem respelled_init {ts : List Token} {init : ForInit} (h : DerivesInit ts init) :
    Respelled init.lexemes DerivesInit ForInit.unplaced init.unplaced := by
  intro us hus
  cases h with
  | none =>
    obtain ⟨s, rfl, hs, -⟩ := split_one hus
    exact ⟨.none, .none hs, rfl⟩
  | declare hd =>
    obtain ⟨pos, init, hd', heq⟩ := respelled_declaration hd hus
    exact ⟨_, .declare hd', by simp only [ForInit.unplaced, heq]⟩
  | expr he _ =>
    obtain ⟨vs, ws, rfl, hvs, hws⟩ := split_append hus
    obtain ⟨s, rfl, hs, -⟩ := split_one hws
    obtain ⟨q, hq, heq⟩ := he.respelled vs hvs
    obtain ⟨t, xs, rfl, -⟩ := hq.starts
    exact ⟨.expr t.pos q, .expr (hq.loosen (Nat.zero_le _)) hs, by simp only [ForInit.unplaced, heq]⟩

theorem respelled_test {ts : List Token} {test : Expr} (h : DerivesTest ts test) :
    Respelled (parenthesizedLexemes test.lexemes) DerivesTest Expr.unplaced test.unplaced := by
  intro us hus
  obtain ⟨-, he, -⟩ := h
  obtain ⟨o, c, vs, rfl, ho, hc, hvs⟩ := split_parens hus
  obtain ⟨q, hq, heq⟩ := he.respelled vs hvs
  exact ⟨q, .mk ho (hq.loosen (Nat.zero_le _)) hc, heq⟩

theorem respelled_names {ts us : List Token} {names : List String} (h : DerivesNames ts names)
    (hus : us.map Token.lexeme = commaLexemes (names.map fun x => [(.identifier, x)])) :
    DerivesNames us names := by
  induction h generalizing us with
  | one =>
    obtain ⟨u, rfl, hu, htext⟩ := split_one (by simpa [commaLexemes] using hus)
    exact htext ▸ .one hu
  | @more t _ _ names _ _ hnames ih =>
    obtain ⟨x, xs, rfl⟩ : ∃ x xs, names = x :: xs := by cases hnames <;> exact ⟨_, _, rfl⟩
    rw [List.map_cons, List.map_cons, commaLexemes_cons_cons] at hus
    obtain ⟨u, vs, rfl, hu, htext, hvs⟩ := split_cons hus
    obtain ⟨o, ws, rfl, ho, -, hws⟩ := split_cons hvs
    exact htext ▸ .more hu ho (ih hws)

theorem respelled_params {ts us : List Token} {names : List String} (h : DerivesParams ts names)
    (hus : us.map Token.lexeme =
      parenthesizedLexemes (commaLexemes (names.map fun x => [(.identifier, x)]))) :
    DerivesParams us names := by
  obtain ⟨o, c, vs, rfl, ho, hc, hvs⟩ := split_parens hus
  cases h with
  | none =>
    obtain rfl := split_nil hvs
    exact .none ho hc
  | some _ hnames hnodup _ => exact .some ho (respelled_names hnames hvs) hnodup hc

theorem respelled_style {t : Token} {style : Expr} (h : DerivesStyle t style) {us : List Token}
    (hus : us.map Token.lexeme = style.lexemes) :
    ∃ u style', us = [u] ∧ DerivesStyle u style' ∧ style'.unplaced = style.unplaced := by
  cases h with
  | string =>
    obtain ⟨u, rfl, hu, htext⟩ := split_one hus
    exact ⟨u, _, rfl, .string hu, by rw [htext]; rfl⟩
  | ident =>
    obtain ⟨u, rfl, hu, htext⟩ := split_one hus
    exact ⟨u, _, rfl, .ident hu, by rw [htext]; rfl⟩

theorem respelled_property {ts us : List Token} {k : Token} {p : Property} {es : List Expr}
    (hk : Declares k.kind p) (hes : DerivesArgs ts es) (hmin : p.minArity ≤ es.length)
    (hmax : es.length ≤ p.maxArity)
    (hus : us.map Token.lexeme = (Stmt.property k.pos p es.head?).lexemes) :
    ∃ s, DerivesStmt us s ∧ s.unplaced = (Stmt.property k.pos p es.head?).unplaced := by
  obtain ⟨k', vs, rfl, hk', -, hvs⟩ := split_cons hus
  obtain ⟨ws, xs, rfl, hws, hxs⟩ := split_append hvs
  obtain ⟨s, rfl, hs, -⟩ := split_one hxs
  -- At most one argument is there, so the one that is kept is all of them.
  have hargs : parenthesizedLexemes (optionalLexemes [] es.head?) =
      parenthesizedLexemes (commaLexemes (Expr.lexemesOf es)) := by
    match es, hmax.trans p.maxArity_le_one with
    | [], _ => rfl
    | [e], _ => simp [optionalLexemes, Expr.lexemesOf, commaLexemes]
  obtain ⟨qs, hqs, heq⟩ := hes.respelled ws (hws.trans hargs)
  have hlen : qs.length = es.length := by
    simpa [Expr.unplacedAll_eq_map] using congrArg List.length heq
  refine ⟨.property k'.pos p qs.head?, .property (by rw [hk']; exact hk.kind) hqs ?_ ?_ hs, ?_⟩
  · omega
  · omega
  · have hhead := congrArg List.head? heq
    simp only [Expr.unplacedAll_eq_map, List.head?_map] at hhead
    simp only [Stmt.unplaced, hhead]

mutual

theorem Grammar.DerivesStmt.respelled : ∀ {ts : List Token} {s : Stmt}, DerivesStmt ts s →
    Respelled s.lexemes DerivesStmt Stmt.unplaced s.unplaced
  | _, _, .property hk hes hmin hmax _ => fun us hus => respelled_property hk hes hmin hmax hus
  | _, _, .body _ _ _ _ _ hstyle _ hss hflat _ _ _ => by
    intro us hus
    obtain ⟨k, us₁, rfl, hk, -, hus₁⟩ := split_cons hus
    obtain ⟨a, us₂, rfl, ha, -, hus₂⟩ := split_cons hus₁
    obtain ⟨o, us₃, rfl, ho, -, hus₃⟩ := split_cons hus₂
    obtain ⟨y, us₄, rfl, hy, -, hus₄⟩ := split_cons hus₃
    obtain ⟨i, us₅, rfl, hi, -, hus₅⟩ := split_cons hus₄
    obtain ⟨ts, us₆, rfl, hts, hus₆⟩ := split_append hus₅
    obtain ⟨c, us₇, rfl, hc, -, hus₇⟩ := split_cons hus₆
    obtain ⟨cs, us₈, rfl, hcs, hus₈⟩ := split_append hus₇
    obtain ⟨d, us₉, rfl, hd, -, hus₉⟩ := split_cons hus₈
    obtain ⟨b, us₁₀, rfl, hb, -, hus₁₀⟩ := split_cons hus₉
    obtain ⟨s, rfl, hs, -⟩ := split_one hus₁₀
    obtain ⟨t, style, rfl, hstyle', hstyle_eq⟩ := respelled_style hstyle hts
    obtain ⟨content, hcontent, hcontent_eq⟩ := hss.respelled cs hcs
    -- no section directly inside another one: that does not depend on places
    have hflat' : ∀ s ∈ content, s.isBody = false := isBody_of_unplacedAll hcontent_eq hflat
    refine ⟨.body k.pos style content, ?_, ?_⟩
    · exact .body hk ha ho hy hi hstyle' hc hcontent hflat' hd hb (.some hs)
    · simp only [Stmt.unplaced, hstyle_eq, hcontent_eq]
  | _, _, @DerivesStmt.func _ t _ _ names b _ _ hps hb => by
    intro us hus
    obtain ⟨k, vs, rfl, hk, -, hvs⟩ := split_cons hus
    obtain ⟨u, ws, rfl, hu, htext, hws⟩ := split_cons hvs
    obtain ⟨xs, ys, rfl, hxs, hys⟩ := split_append hws
    obtain ⟨b', hb', heq⟩ := hb.respelled ys hys
    refine ⟨.func k.pos t.text names b', ?_, by simp only [Stmt.unplaced, heq]⟩
    exact htext ▸ .func hk hu (respelled_params hps hxs) hb'
  | _, _, .declare hd => by
    intro us hus
    obtain ⟨pos, init, hd', heq⟩ := respelled_declaration hd hus
    exact ⟨_, .declare hd', by simp only [Stmt.unplaced, heq]⟩
  | _, _, .ifElse _ htest hb he => by
    intro us hus
    obtain ⟨k, vs, rfl, hk, -, hvs⟩ := split_cons hus
    obtain ⟨ws, xs, rfl, hws, hxs⟩ := split_append hvs
    obtain ⟨ys, zs, rfl, hys, hzs⟩ := split_append hxs
    obtain ⟨test, htest', htesteq⟩ := respelled_test htest ws hws
    obtain ⟨b, hb', hbeq⟩ := hb.respelled ys hys
    obtain ⟨e, he', heeq⟩ := he.respelled zs hzs
    refine ⟨.ifElse k.pos test b e, ?_, by simp only [Stmt.unplaced, htesteq, hbeq, heeq]⟩
    simpa using DerivesStmt.ifElse hk htest' hb' he'
  | _, _, .while _ htest hb => by
    intro us hus
    obtain ⟨k, vs, rfl, hk, -, hvs⟩ := split_cons hus
    obtain ⟨ws, xs, rfl, hws, hxs⟩ := split_append hvs
    obtain ⟨test, htest', htesteq⟩ := respelled_test htest ws hws
    obtain ⟨b, hb', hbeq⟩ := hb.respelled xs hxs
    exact ⟨.while k.pos test b, .while hk htest' hb', by simp only [Stmt.unplaced, htesteq, hbeq]⟩
  | _, _, .for _ _ hinit htest _ hupdate _ hb => by
    intro us hus
    obtain ⟨k, us₁, rfl, hk, -, hus₁⟩ := split_cons hus
    obtain ⟨o, us₂, rfl, ho, -, hus₂⟩ := split_cons hus₁
    obtain ⟨is, us₃, rfl, his, hus₃⟩ := split_append hus₂
    obtain ⟨cs, us₄, rfl, hcs, hus₄⟩ := split_append hus₃
    obtain ⟨s, us₅, rfl, hs, -, hus₅⟩ := split_cons hus₄
    obtain ⟨ds, us₆, rfl, hds, hus₆⟩ := split_append hus₅
    obtain ⟨c, bs, rfl, hc, -, hbs⟩ := split_cons hus₆
    obtain ⟨init, hinit', hinit_eq⟩ := respelled_init hinit is his
    obtain ⟨test, htest', htest_eq⟩ := respelled_option htest cs hcs
    obtain ⟨update, hupdate', hupdate_eq⟩ := respelled_option hupdate ds hds
    obtain ⟨b, hb', hb_eq⟩ := hb.respelled bs hbs
    refine ⟨.for k.pos init test update b, ?_, ?_⟩
    · simpa using DerivesStmt.for hk ho hinit' htest' hs hupdate' hc hb'
    · simp only [Stmt.unplaced, hinit_eq, htest_eq, hupdate_eq, hb_eq]
  | _, _, .return _ hvalue _ => by
    intro us hus
    obtain ⟨k, vs, rfl, hk, -, hvs⟩ := split_cons hus
    obtain ⟨ws, xs, rfl, hws, hxs⟩ := split_append hvs
    obtain ⟨s, rfl, hs, -⟩ := split_one hxs
    obtain ⟨value, hvalue', heq⟩ := respelled_option hvalue ws hws
    exact ⟨.return k.pos value, .return hk hvalue' hs, by simp only [Stmt.unplaced, heq]⟩
  | _, _, .break _ _ => by
    intro us hus
    obtain ⟨k, vs, rfl, hk, -, hvs⟩ := split_cons hus
    obtain ⟨s, rfl, hs, -⟩ := split_one hvs
    exact ⟨.break k.pos, .break hk hs, rfl⟩
  | _, _, .continue _ _ => by
    intro us hus
    obtain ⟨k, vs, rfl, hk, -, hvs⟩ := split_cons hus
    obtain ⟨s, rfl, hs, -⟩ := split_one hvs
    exact ⟨.continue k.pos, .continue hk hs, rfl⟩
  | _, _, .block hb => by
    intro us hus
    obtain ⟨b, hb', heq⟩ := hb.respelled us hus
    exact ⟨.block b, .block hb', by simp only [Stmt.unplaced, heq]⟩
  | _, _, .expr he _ => by
    intro us hus
    obtain ⟨vs, ws, rfl, hvs, hws⟩ := split_append hus
    obtain ⟨s, rfl, hs, -⟩ := split_one hws
    obtain ⟨q, hq, heq⟩ := he.respelled vs hvs
    obtain ⟨t, xs, rfl, -⟩ := hq.starts
    exact ⟨.expr t.pos q, .expr (hq.loosen (Nat.zero_le _)) hs, by simp only [Stmt.unplaced, heq]⟩

theorem Grammar.DerivesElse.respelled : ∀ {ts : List Token} {e : Else}, DerivesElse ts e →
    Respelled e.lexemes DerivesElse Else.unplaced e.unplaced
  | _, _, .none => by
    intro us hus
    obtain rfl := split_nil hus
    exact ⟨.none, .none, rfl⟩
  | _, _, .block _ hb => by
    intro us hus
    obtain ⟨k, vs, rfl, hk, -, hvs⟩ := split_cons hus
    obtain ⟨b, hb', heq⟩ := hb.respelled vs hvs
    exact ⟨.block b, .block hk hb', by simp only [Else.unplaced, heq]⟩
  | _, _, .elseIf _ _ htest hb he => by
    intro us hus
    obtain ⟨k, vs, rfl, hk, -, hvs⟩ := split_cons hus
    obtain ⟨i, ws, rfl, hi, -, hws⟩ := split_cons hvs
    obtain ⟨xs, ys, rfl, hxs, hys⟩ := split_append hws
    obtain ⟨ys, zs, rfl, hys', hzs⟩ := split_append hys
    obtain ⟨test, htest', htesteq⟩ := respelled_test htest xs hxs
    obtain ⟨b, hb', hbeq⟩ := hb.respelled ys hys'
    obtain ⟨e, he', heeq⟩ := he.respelled zs hzs
    refine ⟨.elseIf i.pos test b e, ?_, by simp only [Else.unplaced, htesteq, hbeq, heeq]⟩
    simpa using DerivesElse.elseIf hk hi htest' hb' he'

theorem Grammar.DerivesBlock.respelled : ∀ {ts : List Token} {b : Block}, DerivesBlock ts b →
    Respelled b.lexemes DerivesBlock Block.unplaced b.unplaced
  | _, _, .mk _ hss _ => by
    intro us hus
    obtain ⟨o, vs, rfl, ho, -, hvs⟩ := split_cons hus
    obtain ⟨ws, xs, rfl, hws, hxs⟩ := split_append hvs
    obtain ⟨c, rfl, hc, -⟩ := split_one hxs
    obtain ⟨ss, hss', heq⟩ := hss.respelled ws hws
    exact ⟨.mk o.pos ss, .mk ho hss' hc, by simp only [Block.unplaced, heq]⟩

theorem Grammar.DerivesStmts.respelled : ∀ {ts : List Token} {ss : List Stmt}, DerivesStmts ts ss →
    Respelled (Stmt.lexemesOf ss) DerivesStmts Stmt.unplacedAll (Stmt.unplacedAll ss)
  | _, _, .nil => by
    intro us hus
    obtain rfl := split_nil hus
    exact ⟨[], .nil, rfl⟩
  | _, _, .cons hs hss => by
    intro us hus
    obtain ⟨vs, ws, rfl, hvs, hws⟩ := split_append hus
    obtain ⟨s, hs', heq⟩ := hs.respelled vs hvs
    obtain ⟨ss, hss', heqs⟩ := hss.respelled ws hws
    exact ⟨s :: ss, .cons hs' hss', by simp only [Stmt.unplacedAll, heq, heqs]⟩

end

/-! ## Programs -/

namespace Program

theorem toList_format (unit : String) (p : Program) : (p.format unit).toList =
    (Stmt.listLines unit 0 p.body).flatMap fun line => line.toList ++ ['\n'] := by
  simp [format, List.flatMap_map]

/-- The canonical text of a derived program is scanned as tokens that derive the program again. -/
theorem scan_format {tokens : List Token} {pos : Position} {p : Program} {unit : String}
    (hscanned : Scanned pos tokens) (h : DerivesProgram tokens p)
    (hunit : ∀ c ∈ unit.toList, isSpace c = true) (path : String) :
    ∃ tokens' q, Token.scan path (p.format unit) = .ok tokens' ∧ DerivesProgram tokens' q ∧
      q.unplaced = p.unplaced := by
  obtain ⟨ts, stop, heq, -, hlexed⟩ := hscanned.lexed
  -- both splits of the tokens are at the end marker
  obtain @⟨us, first, stop', ss, hss, -, -⟩ := h
  obtain ⟨rfl, -⟩ := List.append_inj' heq rfl
  have hlayout : Layout (format unit ⟨first.pos, ss⟩).toList (Stmt.lexemesOf ss) := by
    rw [toList_format]
    simpa using hss.closed hunit hlexed 0 [] [] .nil
  obtain ⟨ts', stop', hscan, hlexemes, hstop⟩ := Token.scan_of_layout hlayout path
  obtain ⟨ss', hss', hsame⟩ := hss.respelled ts' hlexemes
  obtain ⟨first', hfirst⟩ : ∃ t, (ts' ++ [stop']).head? = some t := by
    cases ts' <;> exact ⟨_, rfl⟩
  refine ⟨ts' ++ [stop'], ⟨first'.pos, ss'⟩, hscan, .mk hss' hstop hfirst, ?_⟩
  simp only [unplaced, hsame]

/-- A program that is parsed from some text is read back from its canonical text, whatever white
space it is indented by: the text is scanned and parsed again, nesting aside, as a program that
differs in places only, and whose canonical texts are therefore the same. -/
theorem format_roundTrip (allowance : Nat) (path path' source unit : String) (p : Program)
    (hparse : parseWithin allowance path source = .ok p)
    (hunit : ∀ c ∈ unit.toList, isSpace c = true) :
    ∃ tokens q, Token.scan path' (p.format unit) = .ok tokens ∧
      (∃ room, ∀ a, room ≤ a → parseWithin a path' (p.format unit) = .ok q) ∧
      (∀ a, parseWithin a path' (p.format unit) = .ok q ∨
        ∃ d, parseWithin a path' (p.format unit) = .error (.nestedTooDeeply d)) ∧
      q.unplaced = p.unplaced ∧ ∀ unit', q.format unit' = p.format unit' := by
  obtain ⟨tokens, hscan, hparse⟩ := exists_tokens_of_parseWithin hparse
  have hscanned := Token.scanned_scan hscan
  have hderives := derives_of_parseTokensWithin hscanned hparse
  obtain ⟨tokens', q, hscan', hderives', hsame⟩ := scan_format hscanned hderives hunit path'
  have hscanned' := Token.scanned_scan hscan'
  have hresult : ∀ a, parseWithin a path' (p.format unit) = parseTokensWithin a path' tokens' := by
    intro a
    rw [parseWithin, hscan']
    rfl
  have hparse' : ∀ a, parseWithin a path' (p.format unit) = .ok q ∨
      ∃ d, parseWithin a path' (p.format unit) = .error (.nestedTooDeeply d) := by
    intro a
    rw [hresult]
    exact parseTokensWithin_of_derives hscanned' hderives'
  -- the allowance that suffices is one for the tokens of the canonical text, not of the source
  refine ⟨tokens', q, hscan', ⟨3 * tokens'.length + 4, fun a ha => ?_⟩, hparse', hsame, ?_⟩
  · rcases hparse' a with hok | ⟨d, hdeep⟩
    · exact hok
    · rw [hresult] at hdeep
      exact absurd hdeep (not_nestedTooDeeply hscanned' ha d)
  · intro unit'
    rw [← format_unplaced, hsame, format_unplaced]

/-- The round trip of a small program. -/
theorem format_roundTrip_negation :
    ∃ p, parseWithin 50 "" "x = -(1 - y);" = .ok p ∧ ∃ tokens q,
      Token.scan "" (p.format "\t") = .ok tokens ∧
      (∃ room, ∀ a, room ≤ a → parseWithin a "" (p.format "\t") = .ok q) ∧
      (∀ a, parseWithin a "" (p.format "\t") = .ok q ∨
        ∃ d, parseWithin a "" (p.format "\t") = .error (.nestedTooDeeply d)) ∧
      q.unplaced = p.unplaced ∧ ∀ unit', q.format unit' = p.format unit' := by
  refine ⟨⟨⟨1, 1⟩, [.expr ⟨1, 1⟩ (.assign ⟨1, 1⟩ "x" (.unary ⟨1, 5⟩ .minus
    (.binary ⟨1, 7⟩ .sub (.number ⟨1, 7⟩ (.int 1) "1") (.ident ⟨1, 11⟩ "y"))))]⟩, ?_, ?_⟩
  · cbv
  · exact format_roundTrip 50 "" "" "x = -(1 - y);" "\t" _ (by cbv) (by simp [isSpace])

end Program

end MiniApp
