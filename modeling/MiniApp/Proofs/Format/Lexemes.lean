import MiniApp.Proofs.Format.Layout
import MiniApp.Proofs.Grammar.Start
import MiniApp.Syntax.Print

/-!
# Canonical lexemes

The lexemes that the canonical text of a tree is laid out from. A tree that is derived from lexemes
has only names, numerals and strings that can be spelled, so its canonical text is indeed a layout
of its canonical lexemes. The proofs follow the derivation of the tree and build the layout from its
end.

## Main definitions

* `Expr.lexemes`, `Stmt.lexemes`: canonical lexemes

## Main results

* `Grammar.DerivesExpr.printed`, `Grammar.DerivesStmt.closed`: canonical texts are laid out from
  canonical lexemes
-/

namespace MiniApp

/-- The kind of the sign of an operator. -/
def BinaryOp.kind : BinaryOp → TokenKind
  | .add => .plus
  | .sub => .minus
  | .mul => .star
  | .div => .slash
  | .mod => .percent
  | .eq => .eq
  | .ne => .ne
  | .lt => .lt
  | .gt => .gt
  | .le => .le
  | .ge => .ge

/-- The kind of the sign of an operator. -/
def LogicalOp.kind : LogicalOp → TokenKind
  | .and => .and
  | .or => .or

/-- The kind of the sign of an operator; only the first two have one in source text. -/
def UnaryOp.kind : UnaryOp → TokenKind
  | .not => .not
  | .minus | .other _ => .minus

/-- The kind of the keyword of a property. -/
def Property.kind : Property → TokenKind
  | .appName => .nameAppMini
  | .webPackage => .webPackageMini
  | .webVersion => .webMiniVersion
  | .miniVersion => .miniVersion
  | .appIcon => .miniAppIcon

/-- The kind of the keyword of a declaration. -/
def DeclarationKind.tokenKind : DeclarationKind → TokenKind
  | .let => .let
  | .const => .const

/-- Lexemes between parentheses. -/
def parenthesizedLexemes (ls : List (TokenKind × String)) : List (TokenKind × String) :=
  (.lparen, "(") :: (ls ++ [(.rparen, ")")])

/-- The lexemes of an operand, given whether it is compound. -/
def operandLexemes (compound : Bool) (ls : List (TokenKind × String)) :
    List (TokenKind × String) :=
  if compound then parenthesizedLexemes ls else ls

/-- Lists of lexemes with commas between them. -/
def commaLexemes (lss : List (List (TokenKind × String))) : List (TokenKind × String) :=
  [(TokenKind.comma, ",")].intercalate lss

theorem commaLexemes_cons_cons (ls ls' : List (TokenKind × String))
    (lss : List (List (TokenKind × String))) :
    commaLexemes (ls :: ls' :: lss) = ls ++ (.comma, ",") :: commaLexemes (ls' :: lss) := by
  simp [commaLexemes]

mutual

/-- The canonical lexemes of an expression. -/
def Expr.lexemes : Expr → List (TokenKind × String)
  | .ident _ name => [(.identifier, name)]
  | .number _ _ raw => [(.number, raw)]
  | .string _ value => [(.string, value)]
  | .bool _ value => [(.boolean, if value then "true" else "false")]
  | .null _ => [(.null, "null")]
  | .binary _ op l r =>
    operandLexemes l.isCompound l.lexemes ++
      (op.kind, op.symbol) :: operandLexemes r.isCompound r.lexemes
  | .logical _ op l r =>
    operandLexemes l.isCompound l.lexemes ++
      (op.kind, op.symbol) :: operandLexemes r.isCompound r.lexemes
  | .unary _ op e => (op.kind, op.symbol) :: operandLexemes e.isCompound e.lexemes
  | .assign _ target e =>
    (.identifier, target) :: (.assign, "=") :: operandLexemes e.isCompound e.lexemes
  | .call _ callee arguments =>
    operandLexemes callee.isCompound callee.lexemes ++
      parenthesizedLexemes (commaLexemes (Expr.lexemesOf arguments))
  | .content _ arguments =>
    (.call, "Call") :: parenthesizedLexemes (commaLexemes (Expr.lexemesOf arguments))

/-- The canonical lexemes of several expressions. -/
def Expr.lexemesOf : List Expr → List (List (TokenKind × String))
  | [] => []
  | e :: es => e.lexemes :: Expr.lexemesOf es

end

/-- The lexemes of an expression that may be missing, behind some others. -/
def optionalLexemes (lead : List (TokenKind × String)) : Option Expr → List (TokenKind × String)
  | none => []
  | some e => lead ++ e.lexemes

/-- The lexemes of a declaration. -/
def declarationLexemes (kind : DeclarationKind) (name : String) (init : Option Expr) :
    List (TokenKind × String) :=
  (kind.tokenKind, kind.keyword) :: (.identifier, name) ::
    (optionalLexemes [(.assign, "=")] init ++ [(.semicolon, ";")])

/-- The lexemes of what a `for` statement starts with, its semicolon included. -/
def ForInit.lexemes : ForInit → List (TokenKind × String)
  | .none => [(.semicolon, ";")]
  | .declare _ kind name init => declarationLexemes kind name init
  | .expr _ e => e.lexemes ++ [(.semicolon, ";")]

mutual

/-- The canonical lexemes of a statement. -/
def Stmt.lexemes : Stmt → List (TokenKind × String)
  | .block b => b.lexemes
  | .declare _ kind name init => declarationLexemes kind name init
  | .func _ name parameters b =>
    (.func, "func") :: (.identifier, name) ::
      (parenthesizedLexemes (commaLexemes (parameters.map fun x => [(.identifier, x)])) ++ b.lexemes)
  | .property _ kind argument =>
    (kind.kind, kind.keyword) ::
      (parenthesizedLexemes (optionalLexemes [] argument) ++ [(.semicolon, ";")])
  | .body _ style content =>
    (.body, "body") :: (.at, "@") :: (.lparen, "(") :: (.style, "style") :: (.colon, ":") ::
      (style.lexemes ++ (.rparen, ")") ::
        (Stmt.lexemesOf content ++ [(.slash, "/"), (.body, "body"), (.semicolon, ";")]))
  | .ifElse _ test b rest =>
    (.if, "if") :: (parenthesizedLexemes test.lexemes ++ (b.lexemes ++ rest.lexemes))
  | .while _ test b => (.while, "while") :: (parenthesizedLexemes test.lexemes ++ b.lexemes)
  | .for _ init test update b =>
    (.for, "for") :: (.lparen, "(") :: (init.lexemes ++ (optionalLexemes [] test ++
      (.semicolon, ";") :: (optionalLexemes [] update ++ (.rparen, ")") :: b.lexemes)))
  | .return _ value => (.return, "return") :: (optionalLexemes [] value ++ [(.semicolon, ";")])
  | .break _ => [(.break, "break"), (.semicolon, ";")]
  | .continue _ => [(.continue, "continue"), (.semicolon, ";")]
  | .expr _ e => e.lexemes ++ [(.semicolon, ";")]

/-- The canonical lexemes of what follows the block of an `if`. -/
def Else.lexemes : Else → List (TokenKind × String)
  | .none => []
  | .block b => (.else, "else") :: b.lexemes
  | .elseIf _ test b rest =>
    (.else, "else") :: (.if, "if") ::
      (parenthesizedLexemes test.lexemes ++ (b.lexemes ++ rest.lexemes))

/-- The canonical lexemes of a block. -/
def Block.lexemes : Block → List (TokenKind × String)
  | .mk _ body => (.lbrace, "\x7b") :: (Stmt.lexemesOf body ++ [(.rbrace, "\x7d")])

/-- The canonical lexemes of statements one after another. -/
def Stmt.lexemesOf : List Stmt → List (TokenKind × String)
  | [] => []
  | s :: ss => s.lexemes ++ Stmt.lexemesOf ss

end

open Grammar Lexical

theorem Grammar.Leads.kind {k : TokenKind} {op : UnaryOp} (h : Leads k op) : Leads op.kind op := by
  cases h <;> constructor

/-! ## Expressions -/

/-- `Printed text ls`: in front of any layout at which words and numerals end, the text `text` is
laid out from the lexemes `ls`. -/
def Printed (text : String) (ls : List (TokenKind × String)) : Prop :=
  ∀ rest rls, Boundary rest → Layout rest rls → Layout (text.toList ++ rest) (ls ++ rls)

theorem operandLexemes_starts {ls : List (TokenKind × String)} (b : Bool)
    (h : ∃ x xs, ls = x :: xs ∧ startsExpr x.1 = true) :
    ∃ x xs, operandLexemes b ls = x :: xs ∧ startsExpr x.1 = true := by
  cases b with
  | true => exact ⟨_, _, rfl, rfl⟩
  | false => exact h

/-- Canonical lexemes of an expression begin as expressions do. -/
theorem Expr.lexemes_starts : ∀ e : Expr, ∃ x xs, e.lexemes = x :: xs ∧ startsExpr x.1 = true
  | .ident .. | .number .. | .string .. | .bool .. | .null .. | .assign .. | .content .. =>
    ⟨_, _, rfl, rfl⟩
  | .binary _ _ l _ | .logical _ _ l _ | .call _ l _ => by
    obtain ⟨x, xs, heq, hx⟩ := operandLexemes_starts l.isCompound l.lexemes_starts
    exact ⟨x, _, by rw [Expr.lexemes, heq, List.cons_append], hx⟩
  | .unary _ op _ => ⟨_, _, rfl, by cases op <;> rfl⟩

theorem boundary_cons {c : Char} {cs : List Char} (hc : c ∈ [' ', '(', ')', ',', ';', '\n']) :
    Boundary (c :: cs) := by
  have hall : ∀ c ∈ [' ', '(', ')', ',', ';', '\n'], isWordPart c = false ∧ c ≠ '.' :=
    List.all_iff_forall_prop.mp (by decide)
  intro d hd
  obtain rfl := Option.some.inj hd
  exact hall c hc

theorem printed_word {w : String} (h : Lexeme .identifier w.toList) :
    Printed w [(.identifier, w)] := by
  intro rest rls hb hlayout
  obtain ⟨hkind, c, ds, hw, hstart, hpart⟩ := h.name
  rw [String.ofList_toList] at hkind
  simpa [hkind] using hlayout.word hb hw hstart hpart

theorem printed_literal {w : String} {k : TokenKind} (hk : TokenKind.ofWord w = k)
    (hstart : w.toList.head?.any isWordStart = true)
    (hpart : w.toList.all isWordPart = true) : Printed w [(k, w)] := by
  intro rest rls hb hlayout
  rw [Option.any_eq_true] at hstart
  rw [List.all_eq_true] at hpart
  obtain ⟨c, hc, hstart⟩ := hstart
  obtain ⟨ds, hw⟩ := List.head?_eq_some_iff.mp hc
  rw [hw] at hpart
  simpa [hk] using hlayout.word hb hw hstart fun d hd => hpart d (List.mem_cons_of_mem _ hd)

/-- Text between parentheses. -/
theorem printed_parens {text : String} {ls : List (TokenKind × String)} (h : Printed text ls)
    {rest : List Char} {rls : List (TokenKind × String)} (hlayout : Layout rest rls) :
    Layout ('(' :: (text.toList ++ ')' :: rest)) (parenthesizedLexemes ls ++ rls) := by
  have hclose := hlayout.punctuator (c := ')') (k := .rparen) (w := ")") rfl
  have hinner := h _ _ (boundary_cons (by simp)) hclose
  have := hinner.punctuator (c := '(') (k := .lparen) (w := "(") rfl
  simpa [parenthesizedLexemes] using this

theorem printed_operand {text : String} {ls : List (TokenKind × String)} (b : Bool)
    (h : Printed text ls) : Printed (operandText b text) (operandLexemes b ls) := by
  cases b with
  | false => exact h
  | true =>
    intro rest rls _ hlayout
    simpa [operandText, operandLexemes] using printed_parens h hlayout

theorem BinaryOp.layout (op : BinaryOp) {rest : List Char} {rls : List (TokenKind × String)}
    (h : Layout rest rls) :
    Layout (' ' :: (op.symbol.toList ++ ' ' :: rest)) ((op.kind, op.symbol) :: rls) := by
  cases op <;> exact .space rfl (.lexeme rfl (.space rfl h))

theorem LogicalOp.layout (op : LogicalOp) {rest : List Char} {rls : List (TokenKind × String)}
    (h : Layout rest rls) :
    Layout (' ' :: (op.symbol.toList ++ ' ' :: rest)) ((op.kind, op.symbol) :: rls) := by
  cases op <;> exact .space rfl (.lexeme rfl (.space rfl h))

theorem printed_joined {l r : Expr} {op : String} {k : TokenKind}
    (hop : ∀ rest rls, Layout rest rls →
      Layout (' ' :: (op.toList ++ ' ' :: rest)) ((k, op) :: rls))
    (hl : Printed l.text l.lexemes) (hr : Printed r.text r.lexemes) :
    Printed (operandText l.isCompound l.text ++ " " ++ op ++ " " ++ operandText r.isCompound r.text)
      (operandLexemes l.isCompound l.lexemes ++
        (k, op) :: operandLexemes r.isCompound r.lexemes) := by
  intro rest rls hb hlayout
  -- from the end: the right operand, the operator between spaces, the left operand
  have hright := hop _ _ (printed_operand r.isCompound hr rest rls hb hlayout)
  have hleft := printed_operand l.isCompound hl _ _ (boundary_cons (by simp)) hright
  simpa using hleft

theorem printed_of_joins {ℓ : Level} {k : TokenKind} {join : Position → Expr → Expr → Expr}
    (h : Joins ℓ k join) (pos : Position) {l r : Expr} (hl : Printed l.text l.lexemes)
    (hr : Printed r.text r.lexemes) : Printed (join pos l r).text (join pos l r).lexemes := by
  cases h with
  | or => exact printed_joined (fun _ _ => LogicalOp.or.layout) hl hr
  | and => exact printed_joined (fun _ _ => LogicalOp.and.layout) hl hr
  | eq => exact printed_joined (fun _ _ => BinaryOp.eq.layout) hl hr
  | ne => exact printed_joined (fun _ _ => BinaryOp.ne.layout) hl hr
  | lt => exact printed_joined (fun _ _ => BinaryOp.lt.layout) hl hr
  | gt => exact printed_joined (fun _ _ => BinaryOp.gt.layout) hl hr
  | le => exact printed_joined (fun _ _ => BinaryOp.le.layout) hl hr
  | ge => exact printed_joined (fun _ _ => BinaryOp.ge.layout) hl hr
  | add => exact printed_joined (fun _ _ => BinaryOp.add.layout) hl hr
  | sub => exact printed_joined (fun _ _ => BinaryOp.sub.layout) hl hr
  | mul => exact printed_joined (fun _ _ => BinaryOp.mul.layout) hl hr
  | div => exact printed_joined (fun _ _ => BinaryOp.div.layout) hl hr
  | mod => exact printed_joined (fun _ _ => BinaryOp.mod.layout) hl hr

/-- A text that begins with an equals sign begins with a lexeme that no expression begins with. -/
theorem Lexical.Layout.head_ne {cs : List Char} {x : TokenKind × String}
    {ls : List (TokenKind × String)} (h : Layout cs (x :: ls)) (hx : startsExpr x.1 = true) :
    cs.head? ≠ some '=' := by
  intro hhead
  obtain ⟨cs, rfl⟩ : ∃ ds, cs = '=' :: ds := List.head?_eq_some_iff.mp hhead
  cases h with
  | space hspace => simp [isSpace] at hspace
  | @lexeme _ _ text _ k n hnext _ =>
    have hsign : sign '=' cs = .ok (.lexeme k text n) := hnext
    rw [sign] at hsign
    split at hsign
    · next k' hk =>
      obtain ⟨rfl, -, -⟩ := Piece.lexeme.inj (Except.ok.inj hsign)
      have hall : ∀ x ∈ TokenKind.pairs, x.1.toList.head? = some '=' → startsExpr x.2 = false := by
        decide
      simp [hall _ (mem_of_lookup hk)] at hx
    · obtain ⟨rfl, -, -⟩ := Piece.lexeme.inj (Except.ok.inj hsign)
      simp [startsExpr] at hx

theorem printed_unary {op : UnaryOp} {k : TokenKind} (hop : Leads k op) {pos : Position} {e : Expr}
    (he : Printed e.text e.lexemes) :
    Printed (Expr.unary pos op e).text (Expr.unary pos op e).lexemes := by
  intro rest rls hb hlayout
  have hoperand := printed_operand e.isCompound he rest rls hb hlayout
  cases hop with
  | minus =>
    have := hoperand.punctuator (c := '-') (k := .minus) (w := "-") rfl
    simpa [Expr.text, Expr.lexemes, UnaryOp.kind, UnaryOp.symbol] using this
  | not =>
    -- the operand begins as an expression, so the two signs do not run together
    obtain ⟨x, xs, heq, hx⟩ := operandLexemes_starts e.isCompound e.lexemes_starts
    have hhead := (heq ▸ hoperand : Layout _ (x :: (xs ++ rls))).head_ne hx
    simpa [Expr.text, Expr.lexemes, UnaryOp.kind, UnaryOp.symbol] using hoperand.not hhead

theorem printed_assign {pos : Position} {name : String} {e : Expr}
    (hname : Printed name [(.identifier, name)]) (he : Printed e.text e.lexemes) :
    Printed (Expr.assign pos name e).text (Expr.assign pos name e).lexemes := by
  intro rest rls hb hlayout
  have hvalue := printed_operand e.isCompound he rest rls hb hlayout
  have hsign : Layout (' ' :: '=' :: ' ' :: _) ((.assign, "=") :: _) :=
    .space rfl (.lexeme rfl (.space rfl hvalue))
  have := hname _ _ (boundary_cons (by simp)) hsign
  simpa [Expr.text, Expr.lexemes] using this

/-- Texts with a comma between them. -/
theorem printed_comma {w w' : String} {ws : List String} {ls ls' : List (TokenKind × String)}
    {lss : List (List (TokenKind × String))} (h : Printed w ls)
    (h' : Printed (", ".intercalate (w' :: ws)) (commaLexemes (ls' :: lss))) :
    Printed (", ".intercalate (w :: w' :: ws)) (commaLexemes (ls :: ls' :: lss)) := by
  intro rest rls hb hlayout
  have hcomma : Layout (',' :: ' ' :: _) ((.comma, ",") :: _) :=
    (Layout.space rfl (h' rest rls hb hlayout)).punctuator rfl
  have := h _ _ (boundary_cons (by simp)) hcomma
  simpa [commaLexemes_cons_cons] using this

mutual

theorem Grammar.DerivesExpr.printed : ∀ {ℓ : Level} {ts : List Token} {e : Expr},
    DerivesExpr ℓ ts e → (∀ t ∈ ts, t.Lexed) → Printed e.text e.lexemes
  | _, _, _, .tighter _ h, hlexed => h.printed hlexed
  | _, _, _, .assign htarget _ hvalue, hlexed =>
    printed_assign (htarget.printed fun t ht => hlexed t (by simp [ht]))
      (hvalue.printed fun t ht => hlexed t (by simp [ht]))
  | _, _, _, @DerivesExpr.joined _ _ _ _ _ _ _ _ _ hjoins hl hr, hlexed =>
    printed_of_joins hjoins _ (hl.printed fun t ht => hlexed t (by simp [ht]))
      (hr.printed fun t ht => hlexed t (by simp [ht]))
  | _, _, _, .led hleads he, hlexed =>
    printed_unary hleads (he.printed fun t ht => hlexed t (by simp [ht]))
  | _, _, _, @DerivesExpr.call _ _ f _ hf hes, hlexed => by
    have hcallee := printed_operand f.isCompound (hf.printed fun t ht => hlexed t (by simp [ht]))
    have hargs := hes.printed fun t ht => hlexed t (by simp [ht])
    intro rest rls hb hlayout
    have := hcallee _ _ (boundary_cons (by simp)) (printed_parens hargs hlayout)
    simpa [Expr.text, Expr.lexemes] using this
  | _, _, _, @DerivesExpr.number t n hkind hread, hlexed => by
    have hnum : Numeral t.text.toList := ((hlexed t (by simp)).lexeme hkind).numeral
    -- a numeral is not empty, so it is printed as it was spelled
    have hraw : t.text.isEmpty = false := by
      refine Bool.eq_false_iff.mpr fun hempty => hnum.ne_nil ?_
      rw [String.isEmpty_iff.mp hempty]
      rfl
    intro rest rls hb hlayout
    simpa [Expr.text, Expr.lexemes, hraw] using hlayout.numeral hb hnum
  | _, _, _, @DerivesExpr.string t hkind, hlexed => by
    have hquote : '"' ∉ t.text.toList := ((hlexed t (by simp)).lexeme hkind).unquoted
    intro rest rls hb hlayout
    simpa [Expr.text, Expr.lexemes] using hlayout.string hquote
  | _, _, _, @DerivesExpr.bool t _, _ => by
    cases h : t.text == "true" with
    | true =>
      change Printed "true" [(.boolean, "true")]
      exact printed_literal rfl rfl rfl
    | false =>
      change Printed "false" [(.boolean, "false")]
      exact printed_literal rfl rfl rfl
  | _, _, _, .null _, _ => by
    change Printed "null" [(.null, "null")]
    exact printed_literal rfl rfl rfl
  | _, _, _, @DerivesExpr.ident t hkind, hlexed =>
    printed_word ((hlexed t (by simp)).lexeme hkind)
  -- the tree does not keep parentheses; where they are needed the operands get their own
  | _, _, _, .parens _ h _, hlexed => h.printed fun t ht => hlexed t (by simp [ht])
  | _, _, _, @DerivesExpr.content _ _ es _ hes, hlexed => by
    have hargs := hes.printed fun t ht => hlexed t (by simp [ht])
    intro rest rls hb hlayout
    have hopen := printed_parens hargs hlayout
    have : Layout ('C' :: 'a' :: 'l' :: 'l' :: '(' ::
        ((", ".intercalate (Expr.texts es)).toList ++ ')' :: rest)) ((.call, "Call") :: _) :=
      .lexeme rfl hopen
    simpa [Expr.text, Expr.lexemes] using this

theorem Grammar.DerivesArgs.printed : ∀ {ts : List Token} {es : List Expr},
    DerivesArgs ts es → (∀ t ∈ ts, t.Lexed) →
      Printed (", ".intercalate (Expr.texts es)) (commaLexemes (Expr.lexemesOf es))
  | _, _, .none _ _, _ => fun _ _ _ hlayout => by
    simpa [Expr.texts, Expr.lexemesOf, commaLexemes] using hlayout
  | _, _, .some _ hes _, hlexed => hes.printed fun t ht => hlexed t (by simp [ht])

theorem Grammar.DerivesList.printed : ∀ {ts : List Token} {es : List Expr},
    DerivesList ts es → (∀ t ∈ ts, t.Lexed) →
      Printed (", ".intercalate (Expr.texts es)) (commaLexemes (Expr.lexemesOf es))
  | _, _, .one he, hlexed => by
    have := he.printed hlexed
    simpa [Expr.texts, Expr.lexemesOf, commaLexemes] using this
  | _, _, .more he _ hes, hlexed => by
    have hfirst := he.printed fun t ht => hlexed t (by simp [ht])
    have hmore := hes.printed fun t ht => hlexed t (by simp [ht])
    obtain ⟨e', es', rfl⟩ := List.exists_cons_of_ne_nil hes.args_ne_nil
    exact printed_comma hfirst hmore

end

/-! ## Statements -/

/-- `Closed text ls`: the text `text` is laid out from the lexemes `ls` whatever follows. -/
def Closed (text : String) (ls : List (TokenKind × String)) : Prop :=
  ∀ rest rls, Layout rest rls → Layout (text.toList ++ rest) (ls ++ rls)

/-- The same for lines, each of which ends with a line feed. -/
def ClosedLines (lines : List String) (ls : List (TokenKind × String)) : Prop :=
  ∀ rest rls, Layout rest rls →
    Layout (lines.flatMap (fun line => line.toList ++ ['\n']) ++ rest) (ls ++ rls)

theorem ClosedLines.nil : ClosedLines [] [] := fun _ _ h => h

theorem ClosedLines.append {lines lines' : List String} {ls ls' : List (TokenKind × String)}
    (h : ClosedLines lines ls) (h' : ClosedLines lines' ls') :
    ClosedLines (lines ++ lines') (ls ++ ls') := by
  intro rest rls hlayout
  simpa using h _ _ (h' _ _ hlayout)

section Lines

variable {unit : String} (hunit : ∀ c ∈ unit.toList, isSpace c = true) (depth : Nat)

include hunit

theorem isSpace_of_mem_indentation :
    ∀ c ∈ (indentation unit depth).toList, isSpace c = true := by
  induction depth with
  | zero => simp [indentation]
  | succ depth ih =>
    intro c hc
    rw [indentation, String.toList_append, List.mem_append] at hc
    rcases hc with hc | hc
    · exact ih c hc
    · exact hunit c hc

theorem Closed.line {text : String} {ls : List (TokenKind × String)} (h : Closed text ls) :
    ClosedLines [indentation unit depth ++ text] ls := by
  intro rest rls hlayout
  have hline := h _ _ (Layout.space (c := '\n') rfl hlayout)
  simpa using hline.spaces (isSpace_of_mem_indentation hunit depth)

/-- A head that opens a block, the lines of the block, and the closing brace. -/
theorem Closed.braced {head : String} {lines : List String} {ls inner : List (TokenKind × String)}
    (h : Closed head ls) (hinner : ClosedLines lines inner) :
    ClosedLines ((indentation unit depth ++ head) :: lines ++ [indentation unit depth ++ "\x7d"])
      (ls ++ (inner ++ [(.rbrace, "\x7d")])) := by
  have hclose : Closed "\x7d" [(.rbrace, "\x7d")] := fun _ _ hlayout =>
    hlayout.punctuator rfl
  exact (h.line hunit depth).append (hinner.append (hclose.line hunit depth))

end Lines

/-! The following lemmas put a part of a statement in front of a layout. -/

section Parts

variable {rest : List Char} {ls rls : List (TokenKind × String)} {e : Option Expr} {lead : String}

theorem layout_optional (he : ∀ x ∈ e, Printed x.text x.lexemes) (hlead : Closed lead ls)
    (hb : Boundary rest) (h : Layout rest rls) :
    Layout ((optionalText lead e).toList ++ rest) (optionalLexemes ls e ++ rls) := by
  cases e with
  | none => exact h
  | some x =>
    have := hlead _ _ (he x rfl rest rls hb h)
    simpa [optionalText, optionalLexemes] using this

theorem boundary_optional {ds : List Char} (hlead : lead.toList = ' ' :: ds)
    (hb : Boundary rest) : Boundary ((optionalText lead e).toList ++ rest) := by
  cases e with
  | none => exact hb
  | some x =>
    simp only [optionalText, String.toList_append, hlead, List.cons_append]
    exact boundary_cons (by simp)

theorem closed_empty : Closed "" [] := fun _ _ h => h

theorem closed_space : Closed " " [] := fun _ _ h => .space rfl h

theorem layout_semicolon (h : Layout rest rls) : Layout (';' :: rest) ((.semicolon, ";") :: rls) :=
  h.punctuator rfl

/-- The closing parenthesis of a head and the brace behind it. -/
theorem layout_open (h : Layout rest rls) :
    Layout (')' :: ' ' :: '\x7b' :: rest) ((.rparen, ")") :: (.lbrace, "\x7b") :: rls) :=
  (Layout.space rfl (h.punctuator rfl)).punctuator rfl

/-- A keyword, a space and a test between parentheses, with the brace behind it. -/
theorem closed_head {w : String} {k : TokenKind} {test : Expr} (hw : Printed w [(k, w)])
    (htest : Printed test.text test.lexemes) : Closed (w ++ " (" ++ test.text ++ ") \x7b")
      ((k, w) :: (parenthesizedLexemes test.lexemes ++ [(.lbrace, "\x7b")])) := by
  intro rest rls h
  have htext := htest _ _ (boundary_cons (by simp)) (layout_open h)
  have hopen := htext.punctuator (c := '(') (k := .lparen) (w := "(") rfl
  have := hw _ _ (boundary_cons (by simp)) (hopen.space (c := ' ') rfl)
  simpa [parenthesizedLexemes] using this

end Parts

theorem DeclarationKind.printed (kind : DeclarationKind) :
    Printed kind.keyword [(kind.tokenKind, kind.keyword)] := by
  cases kind <;> exact printed_literal rfl rfl rfl

theorem Property.printed (p : Property) : Printed p.keyword [(p.kind, p.keyword)] := by
  cases p <;> exact printed_literal rfl rfl rfl

theorem closed_declaration {kind : DeclarationKind} {name : String} {init : Option Expr}
    (hname : Lexeme .identifier name.toList) (hinit : ∀ x ∈ init, Printed x.text x.lexemes) :
    Closed (declarationText kind name init) (declarationLexemes kind name init) := by
  intro rest rls h
  have hsign : Closed " = " [(.assign, "=")] := fun _ _ h =>
    .space rfl (.lexeme rfl (.space rfl h))
  have hvalue := layout_optional hinit hsign (boundary_cons (by simp)) (layout_semicolon h)
  have hnamed := printed_word hname _ _ (boundary_optional rfl (boundary_cons (by simp))) hvalue
  have := kind.printed _ _ (boundary_cons (by simp)) (hnamed.space (c := ' ') rfl)
  simpa [declarationText, declarationLexemes] using this

theorem Block.lexemes_eq (b : Block) :
    b.lexemes = (.lbrace, "\x7b") :: (Stmt.lexemesOf b.body ++ [(.rbrace, "\x7d")]) := by
  cases b
  rfl

theorem printed_option {ts : List Token} {value : Option Expr} (h : DerivesOption ts value)
    (hlexed : ∀ t ∈ ts, t.Lexed) : ∀ x ∈ value, Printed x.text x.lexemes := by
  cases h with
  | none => simp
  | some he =>
    intro x hx
    obtain rfl := Option.some.inj hx
    exact he.printed hlexed

theorem closed_decl {ts : List Token} {pos : Position} {kind : DeclarationKind} {name : String}
    {init : Option Expr} (h : DerivesDecl ts pos kind name init) (hlexed : ∀ t ∈ ts, t.Lexed) :
    Closed (declarationText kind name init) (declarationLexemes kind name init) := by
  cases h with
  | @plain _ t _ _ ht _ =>
    exact closed_declaration ((hlexed t (by simp)).lexeme ht) (by simp)
  | @init _ t _ _ _ _ e _ ht _ he _ =>
    apply closed_declaration ((hlexed t (by simp)).lexeme ht)
    intro x hx
    obtain rfl := Option.some.inj hx
    exact he.printed fun t ht => hlexed t (by simp [ht])

theorem closed_init {ts : List Token} {init : ForInit} (h : DerivesInit ts init)
    (hlexed : ∀ t ∈ ts, t.Lexed) : Closed init.text init.lexemes := by
  cases h with
  | none => exact fun _ _ h => layout_semicolon h
  | declare hd => exact closed_decl hd hlexed
  | expr he _ =>
    intro rest rls h
    have hvalue := he.printed fun t ht => hlexed t (List.mem_append_left _ ht)
    have := hvalue _ _ (boundary_cons (by simp)) (layout_semicolon h)
    simpa [ForInit.text, ForInit.lexemes] using this

theorem printed_style {t : Token} {style : Expr} (h : DerivesStyle t style) (ht : t.Lexed) :
    Printed style.text style.lexemes := by
  cases h with
  | string hk => exact (DerivesExpr.string hk).printed (by simpa using ht)
  | ident hk => exact (DerivesExpr.ident hk).printed (by simpa using ht)

theorem printed_names {ts : List Token} {names : List String} (h : DerivesNames ts names)
    (hlexed : ∀ t ∈ ts, t.Lexed) : Printed (", ".intercalate names)
      (commaLexemes (names.map fun x => [(.identifier, x)])) := by
  induction h with
  | @one t ht =>
    have := printed_word ((hlexed t (by simp)).lexeme ht)
    simpa [commaLexemes] using this
  | @more t o ts names ht _ hnames ih =>
    have hfirst := printed_word ((hlexed t (by simp)).lexeme ht)
    have hmore := ih fun t ht => hlexed t (by simp [ht])
    obtain ⟨x, xs, rfl⟩ : ∃ x xs, names = x :: xs := by cases hnames <;> exact ⟨_, _, rfl⟩
    exact printed_comma hfirst hmore

theorem printed_params {ts : List Token} {names : List String} (h : DerivesParams ts names)
    (hlexed : ∀ t ∈ ts, t.Lexed) : Printed (", ".intercalate names)
      (commaLexemes (names.map fun x => [(.identifier, x)])) := by
  cases h with
  | none => exact fun _ _ _ h => by simpa [commaLexemes] using h
  | some _ hnames _ _ => exact printed_names hnames fun t ht => hlexed t (by simp [ht])

theorem printed_test {ts : List Token} {test : Expr} (h : DerivesTest ts test)
    (hlexed : ∀ t ∈ ts, t.Lexed) : Printed test.text test.lexemes := by
  obtain ⟨-, he, -⟩ := h
  exact he.printed fun t ht => hlexed t (by simp [ht])

/-- A property takes at most one argument, so its head is all of them. -/
theorem printed_argument {ts : List Token} {es : List Expr} (h : DerivesArgs ts es)
    (hlexed : ∀ t ∈ ts, t.Lexed) (hcount : es.length ≤ 1) :
    ∀ x ∈ es.head?, Printed x.text x.lexemes := by
  have hargs := h.printed hlexed
  match es, hcount with
  | [], _ => simp
  | [e], _ =>
    intro x hx
    obtain rfl := Option.some.inj hx
    simpa [Expr.texts, Expr.lexemesOf, commaLexemes] using hargs

theorem closed_if {test : Expr} (h : Printed test.text test.lexemes) : Closed (ifHead test)
    ((.if, "if") :: (parenthesizedLexemes test.lexemes ++ [(.lbrace, "\x7b")])) := by
  have hword : Printed "if" [(.if, "if")] := printed_literal rfl rfl rfl
  have := closed_head hword h
  simpa [Closed, ifHead] using this

theorem closed_else {head : String} {ls : List (TokenKind × String)} (h : Closed head ls) :
    Closed ("\x7d else " ++ head) ((.rbrace, "\x7d") :: (.else, "else") :: ls) := by
  intro rest rls hlayout
  have : Layout ('\x7d' :: ' ' :: 'e' :: 'l' :: 's' :: 'e' :: ' ' :: (head.toList ++ rest))
      ((.rbrace, "\x7d") :: (.else, "else") :: (ls ++ rls)) :=
    .lexeme rfl (.space rfl (.lexeme rfl (.space rfl (h rest rls hlayout))))
  simpa using this

theorem Property.maxArity_le_one (p : Property) : p.maxArity ≤ 1 := by
  cases p <;> decide

theorem closed_property (p : Property) {argument : Option Expr}
    (h : ∀ x ∈ argument, Printed x.text x.lexemes) :
    Closed (p.keyword ++ "(" ++ optionalText "" argument ++ ");")
      (Stmt.property .start p argument).lexemes := by
  intro rest rls hlayout
  have hclose : Layout (')' :: ';' :: rest) ((.rparen, ")") :: (.semicolon, ";") :: rls) :=
    (layout_semicolon hlayout).punctuator rfl
  have hvalue := layout_optional h closed_empty (boundary_cons (by simp)) hclose
  have hopen := hvalue.punctuator (c := '(') (k := .lparen) (w := "(") rfl
  have := p.printed _ _ (boundary_cons (by simp)) hopen
  simpa [Stmt.lexemes, parenthesizedLexemes] using this

theorem closed_func {name : String} {parameters : List String}
    (hname : Lexeme .identifier name.toList)
    (h : Printed (", ".intercalate parameters)
      (commaLexemes (parameters.map fun x => [(.identifier, x)]))) :
    Closed ("func " ++ name ++ "(" ++ ", ".intercalate parameters ++ ") \x7b")
      ((.func, "func") :: (.identifier, name) ::
        (parenthesizedLexemes (commaLexemes (parameters.map fun x => [(.identifier, x)])) ++
          [(.lbrace, "\x7b")])) := by
  intro rest rls hlayout
  have hword : Printed "func" [(.func, "func")] := printed_literal rfl rfl rfl
  have hparameters := h _ _ (boundary_cons (by simp)) (layout_open hlayout)
  have hopen := hparameters.punctuator (c := '(') (k := .lparen) (w := "(") rfl
  have hnamed := printed_word hname _ _ (boundary_cons (by simp)) hopen
  have := hword _ _ (boundary_cons (by simp)) (hnamed.space (c := ' ') rfl)
  simpa [parenthesizedLexemes] using this

theorem closed_for {init : ForInit} {test update : Option Expr}
    (hinit : Closed init.text init.lexemes) (htest : ∀ x ∈ test, Printed x.text x.lexemes)
    (hupdate : ∀ x ∈ update, Printed x.text x.lexemes) :
    Closed ("for (" ++ init.text ++ optionalText " " test ++ ";" ++ optionalText " " update ++
        ") \x7b")
      ((.for, "for") :: (.lparen, "(") :: (init.lexemes ++ (optionalLexemes [] test ++
        (.semicolon, ";") ::
          (optionalLexemes [] update ++ [(.rparen, ")"), (.lbrace, "\x7b")])))) := by
  intro rest rls hlayout
  have hword : Printed "for" [(.for, "for")] := printed_literal rfl rfl rfl
  have hlast := layout_optional hupdate closed_space (boundary_cons (by simp)) (layout_open hlayout)
  have hmiddle := layout_optional htest closed_space (boundary_cons (by simp))
    (layout_semicolon hlast)
  have hopen := (hinit _ _ hmiddle).punctuator (c := '(') (k := .lparen) (w := "(") rfl
  have := hword _ _ (boundary_cons (by simp)) (hopen.space (c := ' ') rfl)
  simpa using this

theorem closed_return {value : Option Expr} (h : ∀ x ∈ value, Printed x.text x.lexemes) :
    Closed ("return" ++ optionalText " " value ++ ";") (Stmt.return .start value).lexemes := by
  intro rest rls hlayout
  have hword : Printed "return" [(.return, "return")] := printed_literal rfl rfl rfl
  have hvalue := layout_optional h closed_space (boundary_cons (by simp)) (layout_semicolon hlayout)
  have := hword _ _ (boundary_optional rfl (boundary_cons (by simp))) hvalue
  simpa [Stmt.lexemes] using this

theorem closed_style {style : Expr} (h : Printed style.text style.lexemes) :
    Closed ("body@ (style: " ++ style.text ++ ")")
      ((.body, "body") :: (.at, "@") :: (.lparen, "(") :: (.style, "style") :: (.colon, ":") ::
        (style.lexemes ++ [(.rparen, ")")])) := by
  intro rest rls hlayout
  have hclose : Layout (')' :: rest) ((.rparen, ")") :: rls) := hlayout.punctuator rfl
  have hstyle := h _ _ (boundary_cons (by simp)) hclose
  have hcolon := (hstyle.space (c := ' ') rfl).punctuator (c := ':') (k := .colon) (w := ":") rfl
  have : Layout ('b' :: 'o' :: 'd' :: 'y' :: '@' :: ' ' :: '(' :: 's' :: 't' :: 'y' :: 'l' :: 'e' ::
      ':' :: ' ' :: (style.text.toList ++ ')' :: rest)) ((.body, "body") :: (.at, "@") ::
        (.lparen, "(") :: (.style, "style") :: (.colon, ":") ::
          (style.lexemes ++ (.rparen, ")") :: rls)) :=
    .lexeme rfl (.lexeme rfl (.space rfl (.lexeme rfl (.lexeme rfl hcolon))))
  simpa using this

theorem closed_expression {e : Expr} (h : Printed e.text e.lexemes) :
    Closed (e.text ++ ";") (e.lexemes ++ [(.semicolon, ";")]) := by
  intro rest rls hlayout
  simpa using h _ _ (boundary_cons (by simp)) (layout_semicolon hlayout)

section Statements

variable {unit : String}

mutual

theorem Grammar.DerivesStmt.closed (hunit : ∀ c ∈ unit.toList, isSpace c = true) :
    ∀ {ts : List Token} {s : Stmt}, DerivesStmt ts s → (∀ t ∈ ts, t.Lexed) →
      ∀ depth, ClosedLines (s.lines unit depth) s.lexemes
  | _, _, @DerivesStmt.property _ _ p _ _ _ hes _ hmax _, hlexed, depth => by
    -- the canonical text shows one argument, and there are no more
    have hcount := hmax.trans p.maxArity_le_one
    have hargument := printed_argument hes (fun t ht => hlexed t (by simp [ht])) hcount
    have := (closed_property p hargument).line hunit depth
    simpa [Stmt.lines, Stmt.lexemes, String.append_assoc] using this
  | _, _, @DerivesStmt.body _ _ _ _ _ t _ _ _ _ _ _ _ _ _ _ _ _ hstyle _ hss _ _ _ _, hlexed,
      depth => by
    have hhead := closed_style (printed_style hstyle (hlexed t (by simp)))
    have hcontent := hss.closed hunit (fun t ht => hlexed t (by simp [ht])) (depth + 1)
    have hfoot : Closed "/body;" [(.slash, "/"), (.body, "body"), (.semicolon, ";")] :=
      fun _ _ h => .lexeme rfl (.lexeme rfl (layout_semicolon h))
    have := (hhead.line hunit depth).append
      (hcontent.append (hfoot.line hunit depth))
    simpa [Stmt.lines, Stmt.lexemes, String.append_assoc] using this
  | _, _, @DerivesStmt.func _ t _ _ _ b _ ht hps hb, hlexed, depth => by
    have hname := (hlexed t (by simp)).lexeme ht
    have hhead := closed_func hname (printed_params hps fun t ht => hlexed t (by simp [ht]))
    have hinner := hb.closed hunit (fun t ht => hlexed t (by simp [ht])) depth
    have := hhead.braced hunit depth hinner
    simpa [Stmt.lines, Stmt.lexemes, b.lexemes_eq, String.append_assoc] using this
  | _, _, .declare hd, hlexed, depth => (closed_decl hd hlexed).line hunit depth
  | _, _, @DerivesStmt.ifElse _ _ _ _ _ b _ _ htest hb he, hlexed, depth => by
    have hhead := closed_if (printed_test htest fun t ht => hlexed t (by simp [ht]))
    have hinner := hb.closed hunit (fun t ht => hlexed t (by simp [ht])) depth
    -- the closing brace of the block stands on the first line of what follows
    have helse := he.closed hunit (fun t ht => hlexed t (by simp [ht])) depth
    have := (hhead.line hunit depth).append (hinner.append helse)
    simpa [Stmt.lines, Stmt.lexemes, b.lexemes_eq] using this
  | _, _, @DerivesStmt.while _ _ _ _ b _ htest hb, hlexed, depth => by
    have hword : Printed "while" [(.while, "while")] := printed_literal rfl rfl rfl
    have hhead := closed_head hword (printed_test htest fun t ht => hlexed t (by simp [ht]))
    have hinner := hb.closed hunit (fun t ht => hlexed t (by simp [ht])) depth
    have := hhead.braced hunit depth hinner
    simpa [Stmt.lines, Stmt.lexemes, b.lexemes_eq, String.append_assoc] using this
  | _, _, @DerivesStmt.for _ _ _ _ _ _ _ _ _ _ _ b _ _ hinit htest _ hupdate _ hb, hlexed,
      depth => by
    have hhead := closed_for (closed_init hinit fun t ht => hlexed t (by simp [ht]))
      (printed_option htest fun t ht => hlexed t (by simp [ht]))
      (printed_option hupdate fun t ht => hlexed t (by simp [ht]))
    have hinner := hb.closed hunit (fun t ht => hlexed t (by simp [ht])) depth
    have := hhead.braced hunit depth hinner
    simpa [Stmt.lines, Stmt.lexemes, b.lexemes_eq, String.append_assoc] using this
  | _, _, .return _ hvalue _, hlexed, depth => by
    have hvalue := printed_option hvalue fun t ht => hlexed t (by simp [ht])
    have := (closed_return hvalue).line hunit depth
    simpa [Stmt.lines, Stmt.lexemes, String.append_assoc] using this
  | _, _, .break _ _, _, depth => by
    have : Closed "break;" [(.break, "break"), (.semicolon, ";")] := fun _ _ h =>
      .lexeme rfl (layout_semicolon h)
    exact this.line hunit depth
  | _, _, .continue _ _, _, depth => by
    have : Closed "continue;" [(.continue, "continue"), (.semicolon, ";")] := fun _ _ h =>
      .lexeme rfl (layout_semicolon h)
    exact this.line hunit depth
  | _, _, @DerivesStmt.block _ b hb, hlexed, depth => by
    have hopen : Closed "\x7b" [(.lbrace, "\x7b")] := fun _ _ h => h.punctuator rfl
    have := hopen.braced hunit depth (hb.closed hunit hlexed depth)
    simpa [Stmt.lines, Stmt.lexemes, b.lexemes_eq] using this
  | _, _, .expr he _, hlexed, depth => by
    have hvalue := he.printed fun t ht => hlexed t (List.mem_append_left _ ht)
    have := (closed_expression hvalue).line hunit depth
    simpa [Stmt.lines, Stmt.lexemes, String.append_assoc] using this

theorem Grammar.DerivesElse.closed (hunit : ∀ c ∈ unit.toList, isSpace c = true) :
    ∀ {ts : List Token} {e : Else}, DerivesElse ts e → (∀ t ∈ ts, t.Lexed) →
      ∀ depth, ClosedLines (e.lines unit depth) ((.rbrace, "\x7d") :: e.lexemes)
  | _, _, .none, _, depth => by
    have hclose : Closed "\x7d" [(.rbrace, "\x7d")] := fun _ _ h => h.punctuator rfl
    exact hclose.line hunit depth
  | _, _, @DerivesElse.block _ _ b _ hb, hlexed, depth => by
    have hhead : Closed "\x7d else \x7b" [(.rbrace, "\x7d"), (.else, "else"), (.lbrace, "\x7b")] :=
      fun _ _ h => .lexeme rfl (.space rfl (.lexeme rfl (.space rfl (h.punctuator rfl))))
    have hinner := hb.closed hunit (fun t ht => hlexed t (by simp [ht])) depth
    have := hhead.braced hunit depth hinner
    simpa [Else.lines, Else.lexemes, b.lexemes_eq] using this
  | _, _, @DerivesElse.elseIf _ _ _ _ _ _ b _ _ _ htest hb he, hlexed, depth => by
    have hif := closed_if (printed_test htest fun t ht => hlexed t (by simp [ht]))
    have hhead := closed_else hif
    have hinner := hb.closed hunit (fun t ht => hlexed t (by simp [ht])) depth
    have helse := he.closed hunit (fun t ht => hlexed t (by simp [ht])) depth
    have := (hhead.line hunit depth).append (hinner.append helse)
    simpa [Else.lines, Else.lexemes, b.lexemes_eq, String.append_assoc] using this

theorem Grammar.DerivesBlock.closed (hunit : ∀ c ∈ unit.toList, isSpace c = true) :
    ∀ {ts : List Token} {b : Block}, DerivesBlock ts b → (∀ t ∈ ts, t.Lexed) →
      ∀ depth, ClosedLines (b.inner unit depth) (Stmt.lexemesOf b.body)
  | _, _, .mk _ hss _, hlexed, depth =>
    hss.closed hunit (fun t ht => hlexed t (by simp [ht])) (depth + 1)

theorem Grammar.DerivesStmts.closed (hunit : ∀ c ∈ unit.toList, isSpace c = true) :
    ∀ {ts : List Token} {ss : List Stmt}, DerivesStmts ts ss → (∀ t ∈ ts, t.Lexed) →
      ∀ depth, ClosedLines (Stmt.listLines unit depth ss) (Stmt.lexemesOf ss)
  | _, _, .nil, _, _ => .nil
  | _, _, .cons hs hss, hlexed, depth =>
    (hs.closed hunit (fun t ht => hlexed t (by simp [ht])) depth).append
      (hss.closed hunit (fun t ht => hlexed t (by simp [ht])) depth)

end

end Statements

end MiniApp
