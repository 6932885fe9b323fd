import MiniApp.Proofs.Format.RoundTrip
import MiniApp.Proofs.Lint.Findings
import MiniApp.Syntax.Print

/-!
# Canonical texts are tidy

Two rules of the linter are about layout: no line ends in white space, and the head of a body
section is spelled in one way. The canonical text of a program keeps both, wherever its strings keep
out of them. Every line ends in a sign, and the `@` that a misspelled head would need occurs in a
head or behind the quote that opens a string; what stands before that quote does not count, because
no quote is part of the word.

## Main definitions

* `Lint.Fine`: a string that is kept out of the rules about layout
* `Lint.Plain`: a text without line feeds in which no head of a section is spelled
* `Lint.Tidy`: a line with nothing to report about its layout
* `Node.Fine`: all strings below a node are fine

## Main results

* `Grammar.DerivesExpr.plain`: canonical texts of expressions are plain
* `Grammar.DerivesStmts.tidy`: canonical lines of statements are tidy
* `Lint.format_layout`: nothing is reported about the layout of a canonical text
-/

namespace MiniApp

open Grammar Lexical

namespace Text

variable {ls : List (List Char)}

/-- Lines with a line feed behind each of them. -/
theorem splitLines_flatMap (h : ∀ l ∈ ls, '\n' ∉ l) :
    splitLines (ls.flatMap fun l => l ++ ['\n']) = ls ++ [[]] := by
  induction ls with
  | nil => rfl
  | cons l ls ih =>
    obtain ⟨hl, hls⟩ := List.forall_mem_cons.mp h
    rw [List.flatMap_cons, List.append_assoc, List.singleton_append, splitLines_append_line_feed,
      splitLines_of_not_mem hl, ih hls]
    rfl

end Text

namespace Lint

/-! ## Plain texts -/

/-- A string that is kept out of the rules about layout. -/
def Fine (value : String) : Prop := '\n' ∉ value.toList ∧ Text.occursIn "body@" value = false

/-- A text without line feeds, in which a quote stands before every `@`, and no word that a section
begins with right before it. -/
structure Plain (text : String) : Prop where
  feed : '\n' ∉ text.toList
  sign : ∀ pre post, text.toList = pre ++ '@' :: post → '"' ∈ pre ∧ ¬ "body".toList <:+ pre

variable {a b text line w : String}

/-- Texts of characters that neither end a line nor are the sign. -/
theorem plain_of_forall {q : Char → Bool} (hq : q '\n' = false ∧ q '@' = false)
    (h : ∀ c ∈ text.toList, q c = true) : Plain text := by
  obtain ⟨hfeed, hsign⟩ := hq
  refine ⟨fun hmem => ?_, fun pre post heq => ?_⟩
  · simp [h _ hmem] at hfeed
  · simp [h '@' (by simp [heq])] at hsign

/-- The same for texts that are given. -/
theorem plain_of_all (h : text.toList.all (fun c => c != '\n' && c != '@') = true) : Plain text :=
  plain_of_forall (by decide) (List.all_eq_true.mp h)

/-- What is put together from plain texts is plain: a word that began in the first of them would go
on through the quote in the second. -/
theorem Plain.append (ha : Plain a) (hb : Plain b) : Plain (a ++ b) := by
  refine ⟨by simpa using ⟨ha.feed, hb.feed⟩, fun pre post heq => ?_⟩
  rw [String.toList_append] at heq
  rcases List.append_eq_append_iff.mp heq with ⟨pre', rfl, hpre⟩ | ⟨post', hpre, hpost⟩
  -- the sign is in the second text, behind a quote there that a word cannot reach across
  · obtain ⟨hquote, hword⟩ := hb.sign pre' post hpre
    refine ⟨List.mem_append_right _ hquote, fun hsuffix => ?_⟩
    rcases List.suffix_or_suffix_of_suffix hsuffix (List.suffix_append _ _) with h | h
    · exact hword h
    · exact absurd (h.subset hquote) (by decide)
  · cases post' with
    | nil =>
      rw [List.append_nil] at hpre
      obtain ⟨hquote, -⟩ := hb.sign [] post hpost.symm
      cases hquote
    | cons c post' =>
      obtain ⟨rfl, rfl⟩ := List.cons.inj hpost
      exact ha.sign pre post' hpre

/-- A fine string between its quotes. -/
theorem plain_quoted (h : Fine text) : Plain ("\"" ++ text ++ "\"") := by
  obtain ⟨hfeed, hheading⟩ := h
  refine ⟨by simpa using hfeed, fun pre post heq => ?_⟩
  have heq : '"' :: (text.toList ++ ['"']) = pre ++ '@' :: post := by simpa using heq
  cases pre with
  | nil => simp at heq
  | cons c pre =>
    obtain ⟨rfl, heq⟩ := List.cons.inj heq
    -- the sign is in the string itself, since the closing quote is no such sign
    obtain ⟨post', hpost⟩ : ∃ post', text.toList = pre ++ '@' :: post' := by
      rcases List.eq_nil_or_concat' post with rfl | ⟨post', c, rfl⟩
      · have hlast := (List.append_inj' (List.cons.inj heq).2 rfl).2
        exact absurd hlast (by decide)
      · have htext : text.toList ++ ['"'] = (pre ++ '@' :: post') ++ [c] := by simpa using heq
        exact ⟨post', (List.append_inj' htext rfl).1⟩
    refine ⟨List.mem_cons_self, fun hsuffix => ?_⟩
    rcases List.suffix_cons_iff.mp hsuffix with hword | ⟨before, hword⟩
    · exact absurd hword (by simp)
    · refine absurd (Text.occursIn_iff.mpr ⟨before, post', ?_⟩) (Bool.eq_false_iff.mp hheading)
      rw [hpost, ← hword]
      simp

theorem Plain.not_heading (h : Plain text) : Text.find? "body@".toList text.toList = none := by
  rw [Text.find?_eq_none_iff]
  rintro ⟨before, after, heq⟩
  obtain ⟨-, hword⟩ := h.sign (before ++ "body".toList) after (by simp [← heq])
  exact hword (List.suffix_append _ _)

theorem plain_intercalate {ts : List String} (h : ∀ t ∈ ts, Plain t) :
    Plain (", ".intercalate ts) := by
  induction ts with
  | nil => exact plain_of_all rfl
  | cons t ts ih =>
    obtain ⟨ht, hts⟩ := List.forall_mem_cons.mp h
    cases ts with
    | nil => simpa using ht
    | cons t' ts =>
      rw [String.intercalate_cons_cons]
      exact (ht.append (plain_of_all (by decide))).append (ih hts)

theorem plain_operand (h : Plain text) (compound : Bool) : Plain (operandText compound text) := by
  cases compound with
  | false => exact h
  | true => exact ((plain_of_all (by decide)).append h).append (plain_of_all (by decide))

theorem plain_name {name : String} (h : Lexeme .identifier name.toList) : Plain name := by
  obtain ⟨-, w, word, htext, hw, hword⟩ := h.name
  refine plain_of_forall (q := isWordPart) (by decide) ?_
  rw [htext]
  exact List.forall_mem_cons.mpr ⟨isWordPart_of_isWordStart hw, hword⟩

theorem plain_numeral (h : Numeral text.toList) : Plain text := by
  refine plain_of_forall (q := fun c => Text.isAsciiDigit c || c == '.') (by decide) ?_
  generalize text.toList = cs at h
  cases h with
  | whole _ hdigits =>
    intro c hc
    simp [hdigits c hc]
  | fraction _ hdigits _ hdigits' =>
    intro c hc
    rcases List.mem_append.mp hc with hc | hc
    · simp [hdigits c hc]
    · rcases List.mem_cons.mp hc with rfl | hc
      · rfl
      · simp [hdigits' c hc]

theorem plain_optional {lead : String} {e : Option Expr} (hlead : Plain lead)
    (he : ∀ x ∈ e, Plain x.text) : Plain (optionalText lead e) := by
  cases e with
  | none => exact plain_of_all rfl
  | some x => exact hlead.append (he x rfl)

theorem plain_indentation {unit : String} (hunit : Plain unit) (depth : Nat) :
    Plain (indentation unit depth) := by
  induction depth with
  | zero => exact plain_of_all rfl
  | succ depth ih => exact ih.append hunit

/-! ## Tidy lines -/

/-- A line with nothing to report about its layout. -/
structure Tidy (line : String) : Prop where
  feed : '\n' ∉ line.toList
  last : ∃ c, line.toList.getLast? = some c ∧ Text.isBlank c = false
  heading : Plain line ∨ "body@ (style:".toList <:+: line.toList

/-- A plain text with a sign behind it. -/
theorem tidy_append (h : Plain text)
    (hw : w.toList.all (fun c => c != '\n' && c != '@') = true)
    (hlast : w.toList.getLast?.any (!Text.isBlank ·) = true) : Tidy (text ++ w) := by
  have hplain := h.append (plain_of_all hw)
  obtain ⟨c, hc, hblank⟩ := (Option.any_eq_true _ _).mp hlast
  exact ⟨hplain.feed, ⟨c, by simp [hc], by simpa using hblank⟩, .inl hplain⟩

/-- Something plain in front of a line. -/
theorem Tidy.prepend (h : Tidy line) (ht : Plain text) : Tidy (text ++ line) := by
  obtain ⟨c, hc, hblank⟩ := h.last
  refine ⟨by simpa using ⟨ht.feed, h.feed⟩, ⟨c, by simp [hc], hblank⟩, ?_⟩
  refine h.heading.imp ht.append fun hheading => ?_
  rw [String.toList_append]
  exact hheading.trans (List.suffix_append _ _).isInfix

end Lint

open Lint

/-! ## Nodes with fine strings -/

/-- All strings below a node are fine. -/
def Node.Fine (n : Node) : Prop :=
  ∀ layers pos value, n.Below layers (.expr (.string pos value)) → Lint.Fine value

namespace Node

variable {n k m : Node} {layers further : List Layer} {e : Expr} {s : Stmt}

/-- What lies below a part of a node lies below the node. -/
theorem Below.of_part (hk : (further, k) ∈ n.parts) (h : k.Below layers m) :
    n.Below (layers ++ further) m := by
  induction h with
  | self =>
    have := Below.part .self hk
    rwa [List.append_nil] at this
  | part _ hm ih =>
    rw [List.append_assoc]
    exact .part ih hm

theorem Fine.part (h : n.Fine) (hk : (further, k) ∈ n.parts) : k.Fine :=
  fun _ _ _ hbelow => h _ _ _ (.of_part hk hbelow)

theorem Fine.operand (h : (Node.expr e).Fine) {x : Expr} (hx : x ∈ e.operands) :
    (Node.expr x).Fine :=
  h.part (mem_exprsIn.mpr ⟨rfl, x, hx, rfl⟩)

theorem Fine.exprs (h : (Node.stmt s).Fine) {es : List Expr}
    (hes : exprsIn layers es ⊆ partsOfStmt s) : ∀ e ∈ es, (Node.expr e).Fine :=
  fun e he => h.part (hes (mem_exprsIn.mpr ⟨rfl, e, he, rfl⟩))

theorem Fine.stmts (h : (Node.stmt s).Fine) {ss : List Stmt}
    (hss : stmtsIn layers ss ⊆ partsOfStmt s) : ∀ t ∈ ss, (Node.stmt t).Fine :=
  fun t ht => h.part (hss (mem_stmtsIn.mpr ⟨rfl, t, ht, rfl⟩))

theorem Fine.body {b : Block} (h : (Node.stmt (.block b)).Fine) :
    ∀ t ∈ b.body, (Node.stmt t).Fine :=
  h.stmts (List.Subset.refl _)

theorem Fine.ifElse_parts {pos : Position} {test : Expr} {b : Block} {rest : Else}
    (h : (Node.stmt (.ifElse pos test b rest)).Fine) :
    (Node.expr test).Fine ∧ (∀ t ∈ b.body, (Node.stmt t).Fine) ∧
      ∀ t ∈ rest.stmts, (Node.stmt t).Fine := by
  obtain ⟨hblock, hrest⟩ := List.forall_mem_cons.mp
    (h.stmts (List.subset_append_right _ (stmtsIn [] (.block b :: rest.stmts))))
  exact ⟨h.exprs (List.subset_append_left _ _) test List.mem_cons_self, hblock.body, hrest⟩

theorem Fine.while_parts {pos : Position} {test : Expr} {b : Block}
    (h : (Node.stmt (.while pos test b)).Fine) :
    (Node.expr test).Fine ∧ ∀ t ∈ b.body, (Node.stmt t).Fine := by
  have hblock := h.stmts (List.subset_append_right _ (stmtsIn [] [.block b])) _ List.mem_cons_self
  exact ⟨h.exprs (List.subset_append_left _ _) test List.mem_cons_self, hblock.body⟩

theorem Fine.for_parts {pos : Position} {init : ForInit} {test update : Option Expr} {b : Block}
    (h : (Node.stmt (.for pos init test update b)).Fine) :
    (∀ t ∈ init.stmts, (Node.stmt t).Fine) ∧ (∀ x ∈ test, (Node.expr x).Fine) ∧
      (∀ x ∈ update, (Node.expr x).Fine) ∧ ∀ t ∈ b.body, (Node.stmt t).Fine := by
  have hparts : ∀ {x}, x ∈ stmtsIn [.loop init] init.stmts ∨
      x ∈ exprsIn [.loop init] test.toList ∨ x ∈ exprsIn [.loop init] update.toList ∨
      x ∈ stmtsIn [.loop init] [.block b] →
      x ∈ partsOfStmt (.for pos init test update b) := fun h => by
    simpa only [partsOfStmt, List.mem_append, or_assoc] using h
  have hblock := h.stmts (fun _ hx => hparts (.inr (.inr (.inr hx)))) _ List.mem_cons_self
  refine ⟨h.stmts fun _ hx => hparts (.inl hx), fun x hx => ?_, fun x hx => ?_, hblock.body⟩
  · exact h.exprs (fun _ hx => hparts (.inr (.inl hx))) x (Option.mem_toList.mpr hx)
  · exact h.exprs (fun _ hx => hparts (.inr (.inr (.inl hx)))) x (Option.mem_toList.mpr hx)

/-- A node is fine if its parts are, and itself if it is a string. -/
theorem fine_of_parts (hself : ∀ pos value, n = .expr (.string pos value) → Lint.Fine value)
    (hparts : ∀ x ∈ n.parts, x.2.Fine) : n.Fine := by
  intro layers pos value hbelow
  rcases hbelow.head with ⟨-, heq⟩ | ⟨further, k, above, hk, hbelow, -⟩
  · exact hself pos value heq.symm
  · exact hparts _ hk _ pos value hbelow

theorem fine_ident (pos : Position) (name : String) : (Node.expr (.ident pos name)).Fine :=
  fine_of_parts (fun _ _ heq => by cases heq) fun _ hx => absurd hx List.not_mem_nil

theorem fine_string {value : String} (h : Lint.Fine value) (pos : Position) :
    (Node.expr (.string pos value)).Fine :=
  fine_of_parts (fun _ _ heq => by cases heq; exact h) fun _ hx => absurd hx List.not_mem_nil

end Node

theorem plain_symbol {k : TokenKind} {op : UnaryOp} (h : Leads k op) : Plain op.symbol := by
  cases h <;> exact plain_of_all (by decide)

theorem plain_joined {l r : Expr} {op : String} (hop : Plain op) (hl : Plain l.text)
    (hr : Plain r.text) : Plain (operandText l.isCompound l.text ++ " " ++ op ++ " " ++
      operandText r.isCompound r.text) := by
  have hspace : Plain " " := plain_of_all (by decide)
  exact ((((plain_operand hl _).append hspace).append hop).append hspace).append
    (plain_operand hr _)

theorem plain_of_joins {ℓ : Level} {k : TokenKind} {join : Position → Expr → Expr → Expr}
    (h : Joins ℓ k join) (pos : Position) {l r : Expr} (hl : Plain l.text) (hr : Plain r.text) :
    Plain (join pos l r).text := by
  cases h <;> exact plain_joined (plain_of_all (by decide)) hl hr

theorem operands_of_joins {ℓ : Level} {k : TokenKind} {join : Position → Expr → Expr → Expr}
    (h : Joins ℓ k join) (pos : Position) (l r : Expr) : (join pos l r).operands = [l, r] := by
  cases h <;> rfl

theorem plain_call {head : String} {es : List Expr} (hhead : Plain head)
    (hes : ∀ e ∈ es, Plain e.text) :
    Plain (head ++ "(" ++ ", ".intercalate (Expr.texts es) ++ ")") := by
  have htexts : ∀ t ∈ Expr.texts es, Plain t := by
    clear hhead
    induction es with
    | nil => exact fun _ ht => absurd ht List.not_mem_nil
    | cons e es ih =>
      obtain ⟨he, hes⟩ := List.forall_mem_cons.mp hes
      exact List.forall_mem_cons.mpr ⟨he, ih hes⟩
  exact ((hhead.append (plain_of_all (by decide))).append (plain_intercalate htexts)).append
    (plain_of_all (by decide))

mutual

/-- The canonical text of an expression with fine strings is plain. -/
theorem Grammar.DerivesExpr.plain : ∀ {ℓ : Level} {ts : List Token} {e : Expr},
    DerivesExpr ℓ ts e → (∀ t ∈ ts, t.Lexed) → (Node.expr e).Fine → Plain e.text
  | _, _, _, .tighter _ h, hlexed, hfine => h.plain hlexed hfine
  | _, _, _, @DerivesExpr.assign _ _ _ pos name e htarget _ hvalue, hlexed, hfine => by
    have hname := htarget.plain (fun t ht => hlexed t (by simp [ht])) (Node.fine_ident pos name)
    have hvalue := hvalue.plain (fun t ht => hlexed t (by simp [ht]))
      (hfine.operand List.mem_cons_self)
    exact (hname.append (plain_of_all (by decide))).append (plain_operand hvalue _)
  | _, _, _, @DerivesExpr.joined _ _ _ _ _ _ l r _ hjoins hl hr, hlexed, hfine => by
    have hoperands := operands_of_joins hjoins l.pos l r
    exact plain_of_joins hjoins _
      (hl.plain (fun t ht => hlexed t (by simp [ht])) (hfine.operand (by simp [hoperands])))
      (hr.plain (fun t ht => hlexed t (by simp [ht])) (hfine.operand (by simp [hoperands])))
  | _, _, _, .led hleads he, hlexed, hfine => by
    have hvalue := he.plain (fun t ht => hlexed t (by simp [ht]))
      (hfine.operand List.mem_cons_self)
    exact (plain_symbol hleads).append (plain_operand hvalue _)
  | _, _, _, @DerivesExpr.call _ _ f _ hf hes, hlexed, hfine => by
    have hcallee := hf.plain (fun t ht => hlexed t (by simp [ht]))
      (hfine.operand List.mem_cons_self)
    exact plain_call (plain_operand hcallee _) (hes.plain (fun t ht => hlexed t (by simp [ht]))
      fun e he => hfine.operand (List.mem_cons_of_mem _ he))
  | _, _, _, @DerivesExpr.number t n hkind _, hlexed, _ => by
    have hnumeral : Numeral t.text.toList := ((hlexed t (by simp)).lexeme hkind).numeral
    -- a numeral is not empty, so it is printed as it was spelled
    have hraw : t.text.isEmpty = false := by
      refine Bool.eq_false_iff.mpr fun hempty => hnumeral.ne_nil ?_
      rw [String.isEmpty_iff.mp hempty]
      rfl
    rw [Expr.text, hraw]
    exact plain_numeral hnumeral
  | _, _, _, .string _, _, hfine => plain_quoted (hfine _ _ _ .self)
  | _, _, _, @DerivesExpr.bool t _, _, _ => by
    rw [Expr.text]
    split
    · exact plain_of_all (by decide)
    · exact plain_of_all (by decide)
  | _, _, _, .null _, _, _ => by
    rw [Expr.text]
    exact plain_of_all (by decide)
  | _, _, _, @DerivesExpr.ident t hkind, hlexed, _ =>
    plain_name ((hlexed t (by simp)).lexeme hkind)
  | _, _, _, .parens _ h _, hlexed, hfine => h.plain (fun t ht => hlexed t (by simp [ht])) hfine
  | _, _, _, @DerivesExpr.content _ _ es _ hes, hlexed, hfine => by
    have hargs := hes.plain (fun t ht => hlexed t (by simp [ht])) fun e he => hfine.operand he
    have hcall : Plain "Call" := plain_of_all (by decide)
    simpa [Expr.text] using plain_call hcall hargs

theorem Grammar.DerivesArgs.plain : ∀ {ts : List Token} {es : List Expr}, DerivesArgs ts es →
    (∀ t ∈ ts, t.Lexed) → (∀ e ∈ es, (Node.expr e).Fine) → ∀ e ∈ es, Plain e.text
  | _, _, .none _ _, _, _ => fun _ he => absurd he List.not_mem_nil
  | _, _, .some _ hes _, hlexed, hfine => hes.plain (fun t ht => hlexed t (by simp [ht])) hfine

theorem Grammar.DerivesList.plain : ∀ {ts : List Token} {es : List Expr}, DerivesList ts es →
    (∀ t ∈ ts, t.Lexed) → (∀ e ∈ es, (Node.expr e).Fine) → ∀ e ∈ es, Plain e.text
  | _, _, .one he, hlexed, hfine =>
    List.forall_mem_singleton.mpr (he.plain hlexed (hfine _ List.mem_cons_self))
  | _, _, .more he _ hes, hlexed, hfine => by
    obtain ⟨hfirst, hmore⟩ := List.forall_mem_cons.mp hfine
    exact List.forall_mem_cons.mpr ⟨he.plain (fun t ht => hlexed t (by simp [ht])) hfirst,
      hes.plain (fun t ht => hlexed t (by simp [ht])) hmore⟩

end

/-! ## Lines -/

theorem plain_option {ts : List Token} {value : Option Expr} (h : DerivesOption ts value)
    (hlexed : ∀ t ∈ ts, t.Lexed) (hfine : ∀ x ∈ value, (Node.expr x).Fine) :
    ∀ x ∈ value, Plain x.text := by
  cases h with
  | none => simp
  | some he =>
    rintro _ ⟨⟩
    exact he.plain hlexed (hfine _ rfl)

/-- The canonical text of a property shows its first argument, and there are no more. -/
theorem plain_argument {ts : List Token} {p : Property} {es : List Expr} (h : DerivesArgs ts es)
    (hmax : es.length ≤ p.maxArity) (hlexed : ∀ t ∈ ts, t.Lexed)
    (hfine : ∀ x ∈ es.head?, (Node.expr x).Fine) : ∀ x ∈ es.head?, Plain x.text := by
  have hplain := h.plain hlexed
  match es, hmax.trans p.maxArity_le_one with
  | [], _ => simp
  | [e], _ =>
    rintro _ ⟨⟩
    exact hplain (List.forall_mem_singleton.mpr (hfine e rfl)) e List.mem_cons_self

theorem plain_decl {ts : List Token} {pos : Position} {kind : DeclarationKind} {name : String}
    {init : Option Expr} (h : DerivesDecl ts pos kind name init) (hlexed : ∀ t ∈ ts, t.Lexed)
    (hfine : ∀ x ∈ init, (Node.expr x).Fine) :
    ∃ text, Plain text ∧ declarationText kind name init = text ++ ";" := by
  have hkeyword : Plain kind.keyword := by cases kind <;> exact plain_of_all (by decide)
  have hsign : Plain " = " := plain_of_all (by decide)
  refine ⟨_, ((hkeyword.append (plain_of_all (by decide))).append ?_).append
    (plain_optional hsign ?_), rfl⟩
  · cases h with
    | @plain _ t _ _ ht _ => exact plain_name ((hlexed t (by simp)).lexeme ht)
    | @init _ t _ _ _ _ _ _ ht _ _ _ => exact plain_name ((hlexed t (by simp)).lexeme ht)
  · cases h with
    | plain => simp
    | init _ _ _ he _ =>
      rintro _ ⟨⟩
      exact he.plain (fun t ht => hlexed t (by simp [ht])) (hfine _ rfl)

theorem plain_init {ts : List Token} {init : ForInit} (h : DerivesInit ts init)
    (hlexed : ∀ t ∈ ts, t.Lexed) (hfine : ∀ s ∈ init.stmts, (Node.stmt s).Fine) :
    Plain init.text := by
  cases h with
  | none => exact plain_of_all (by decide)
  | @declare _ _ _ _ init hd =>
    have hfine := hfine _ List.mem_cons_self
    obtain ⟨text, htext, heq⟩ := plain_decl hd hlexed fun x hx =>
      hfine.part (Node.mem_exprsIn.mpr ⟨rfl, x, Option.mem_toList.mpr hx, rfl⟩)
    rw [ForInit.text, heq]
    exact htext.append (plain_of_all (by decide))
  | @expr _ _ _ e he _ =>
    have hfine := hfine _ List.mem_cons_self
    have hvalue := he.plain (fun t ht => hlexed t (List.mem_append_left _ ht))
      (hfine.part (Node.mem_exprsIn.mpr ⟨rfl, e, List.mem_cons_self, rfl⟩))
    exact hvalue.append (plain_of_all (by decide))

theorem plain_names {ts : List Token} {names : List String} (h : DerivesNames ts names)
    (hlexed : ∀ t ∈ ts, t.Lexed) : ∀ name ∈ names, Plain name := by
  induction h with
  | @one t ht =>
    exact List.forall_mem_singleton.mpr (plain_name ((hlexed t (by simp)).lexeme ht))
  | @more t _ _ _ ht _ _ ih =>
    exact List.forall_mem_cons.mpr ⟨plain_name ((hlexed t (by simp)).lexeme ht),
      ih fun t ht => hlexed t (by simp [ht])⟩

theorem plain_params {ts : List Token} {names : List String} (h : DerivesParams ts names)
    (hlexed : ∀ t ∈ ts, t.Lexed) : Plain (", ".intercalate names) := by
  cases h with
  | none => exact plain_of_all (by decide)
  | some _ hnames _ _ =>
    exact plain_intercalate (plain_names hnames fun t ht => hlexed t (by simp [ht]))

theorem plain_test {ts : List Token} {test : Expr} (h : DerivesTest ts test)
    (hlexed : ∀ t ∈ ts, t.Lexed) (hfine : (Node.expr test).Fine) : Plain test.text := by
  obtain ⟨-, he, -⟩ := h
  exact he.plain (fun t ht => hlexed t (by simp [ht])) hfine

theorem plain_style {t : Token} {style : Expr} (h : DerivesStyle t style) (ht : t.Lexed)
    (hfine : (Node.expr style).Fine) : Plain style.text := by
  cases h with
  | string hk => exact (DerivesExpr.string hk).plain (by simpa using ht) hfine
  | ident hk => exact (DerivesExpr.ident hk).plain (by simpa using ht) hfine

/-- The head of a body section is spelled as it should be. -/
theorem tidy_style {style : Expr} (h : Plain style.text) :
    Tidy ("body@ (style: " ++ style.text ++ ")") where
  feed := by simpa using h.feed
  last := ⟨')', by rw [String.toList_append]; exact List.getLast?_concat, by decide⟩
  heading := .inr ⟨[], ' ' :: style.text.toList ++ [')'], by simp⟩

theorem tidy_if {test : Expr} (h : Plain test.text) : Tidy (ifHead test) :=
  tidy_append ((plain_of_all (by decide)).append h) (by decide) (by decide)

section Statements

variable {unit : String}

/-- A head that opens a block, the lines of the block, and the closing brace. -/
theorem tidy_braced (hunit : Plain unit) {depth : Nat} {head : String} {lines : List String}
    (hhead : Tidy head) (hlines : ∀ line ∈ lines, Tidy line) :
    ∀ line ∈ head :: lines ++ [indentation unit depth ++ "\x7d"], Tidy line := by
  have hclose := tidy_append (w := "\x7d") (plain_indentation hunit depth) (by decide) (by decide)
  exact List.forall_mem_append.mpr ⟨List.forall_mem_cons.mpr ⟨hhead, hlines⟩,
    List.forall_mem_singleton.mpr hclose⟩

mutual

/-- The canonical lines of a statement with fine strings are tidy. -/
theorem Grammar.DerivesStmt.tidy (hunit : Plain unit) : ∀ {ts : List Token} {s : Stmt},
    DerivesStmt ts s → (∀ t ∈ ts, t.Lexed) → (Node.stmt s).Fine →
      ∀ depth, ∀ line ∈ s.lines unit depth, Tidy line
  | _, _, @DerivesStmt.property _ _ p _ es _ hes _ hmax _, hlexed, hfine, depth => by
    have hkeyword : Plain p.keyword := by cases p <;> exact plain_of_all (by decide)
    have hargument := plain_argument hes hmax (fun t ht => hlexed t (by simp [ht])) fun x hx =>
      hfine.exprs (List.Subset.refl _) x (Option.mem_toList.mpr hx)
    refine List.forall_mem_singleton.mpr (tidy_append ?_ (by decide) (by decide))
    exact (((plain_indentation hunit depth).append hkeyword).append
      (plain_of_all (by decide))).append (plain_optional (plain_of_all (by decide)) hargument)
  | _, _, @DerivesStmt.body _ _ _ _ _ t _ _ _ style _ _ content _ _ _ _ _ hstyle _ hss _ _ _ _,
      hlexed, hfine, depth => by
    have hhead := tidy_style (plain_style hstyle (hlexed t (by simp))
      (hfine.exprs (List.subset_append_left _ _) style List.mem_cons_self))
    have hcontent := hss.tidy hunit (fun t ht => hlexed t (by simp [ht]))
      (hfine.stmts (List.subset_append_right _ _)) (depth + 1)
    have hindent := plain_indentation hunit depth
    have hfoot := tidy_append (w := "/body;") hindent (by decide) (by decide)
    have hhead := hhead.prepend hindent
    rw [← String.append_assoc, ← String.append_assoc] at hhead
    exact List.forall_mem_append.mpr ⟨List.forall_mem_cons.mpr ⟨hhead, hcontent⟩,
      List.forall_mem_singleton.mpr hfoot⟩
  | _, _, @DerivesStmt.func _ t _ _ _ b _ ht hps hb, hlexed, hfine, depth => by
    have hname := plain_name ((hlexed t (by simp)).lexeme ht)
    have hparams := plain_params hps fun t ht => hlexed t (by simp [ht])
    have hinner := hb.tidy hunit (fun t ht => hlexed t (by simp [ht]))
      (hfine.stmts (List.Subset.refl _)) depth
    refine tidy_braced hunit (tidy_append ?_ (by decide) (by decide)) hinner
    exact ((((plain_indentation hunit depth).append (plain_of_all (by decide))).append hname).append
      (plain_of_all (by decide))).append hparams
  | _, _, .declare hd, hlexed, hfine, depth => by
    obtain ⟨text, htext, heq⟩ := plain_decl hd hlexed fun x hx =>
      hfine.exprs (List.Subset.refl _) x (Option.mem_toList.mpr hx)
    refine List.forall_mem_singleton.mpr ?_
    rw [heq]
    exact (tidy_append htext (by decide) (by decide)).prepend (plain_indentation hunit depth)
  | _, _, @DerivesStmt.ifElse _ _ _ _ test b rest _ htest hb he, hlexed, hfine, depth => by
    obtain ⟨hcondition, hbody, hrest⟩ := hfine.ifElse_parts
    have htest := plain_test htest (fun t ht => hlexed t (by simp [ht])) hcondition
    have hinner := hb.tidy hunit (fun t ht => hlexed t (by simp [ht])) hbody depth
    have helse := he.tidy hunit (fun t ht => hlexed t (by simp [ht])) hrest depth
    have hhead := (tidy_if htest).prepend (plain_indentation hunit depth)
    exact List.forall_mem_append.mpr ⟨List.forall_mem_cons.mpr ⟨hhead, hinner⟩, helse⟩
  | _, _, @DerivesStmt.while _ _ _ test b _ htest hb, hlexed, hfine, depth => by
    obtain ⟨hcondition, hbody⟩ := hfine.while_parts
    have htest := plain_test htest (fun t ht => hlexed t (by simp [ht])) hcondition
    have hinner := hb.tidy hunit (fun t ht => hlexed t (by simp [ht])) hbody depth
    refine tidy_braced hunit (tidy_append ?_ (by decide) (by decide)) hinner
    exact ((plain_indentation hunit depth).append (plain_of_all (by decide))).append htest
  | _, _, @DerivesStmt.for k _ _ _ _ _ _ _ init test update b _ _ hinit htest _ hupdate _ hb,
      hlexed, hfine, depth => by
    obtain ⟨hfirst, hcondition, hstep, hbody⟩ := hfine.for_parts
    have hspace : Plain " " := plain_of_all (by decide)
    have hinit := plain_init hinit (fun t ht => hlexed t (by simp [ht])) hfirst
    have htest := plain_option htest (fun t ht => hlexed t (by simp [ht])) hcondition
    have hupdate := plain_option hupdate (fun t ht => hlexed t (by simp [ht])) hstep
    have hinner := hb.tidy hunit (fun t ht => hlexed t (by simp [ht])) hbody depth
    refine tidy_braced hunit (tidy_append ?_ (by decide) (by decide)) hinner
    exact (((((plain_indentation hunit depth).append (plain_of_all (by decide))).append
      hinit).append (plain_optional hspace htest)).append (plain_of_all (by decide))).append
        (plain_optional hspace hupdate)
  | _, _, .return _ hvalue _, hlexed, hfine, depth => by
    have hvalue := plain_option hvalue (fun t ht => hlexed t (by simp [ht])) fun x hx =>
      hfine.exprs (List.Subset.refl _) x (Option.mem_toList.mpr hx)
    refine List.forall_mem_singleton.mpr (tidy_append ?_ (by decide) (by decide))
    exact ((plain_indentation hunit depth).append (plain_of_all (by decide))).append
      (plain_optional (plain_of_all (by decide)) hvalue)
  | _, _, .break _ _, _, _, depth =>
    List.forall_mem_singleton.mpr
      (tidy_append (plain_indentation hunit depth) (by decide) (by decide))
  | _, _, .continue _ _, _, _, depth =>
    List.forall_mem_singleton.mpr
      (tidy_append (plain_indentation hunit depth) (by decide) (by decide))
  | _, _, @DerivesStmt.block _ b hb, hlexed, hfine, depth =>
    tidy_braced hunit (tidy_append (plain_indentation hunit depth) (by decide) (by decide))
      (hb.tidy hunit hlexed hfine.body depth)
  | _, _, @DerivesStmt.expr _ _ _ e he _, hlexed, hfine, depth => by
    have hvalue := he.plain (fun t ht => hlexed t (List.mem_append_left _ ht))
      (hfine.exprs (List.Subset.refl _) e List.mem_cons_self)
    exact List.forall_mem_singleton.mpr
      (tidy_append ((plain_indentation hunit depth).append hvalue) (by decide) (by decide))

theorem Grammar.DerivesElse.tidy (hunit : Plain unit) : ∀ {ts : List Token} {e : Else},
    DerivesElse ts e → (∀ t ∈ ts, t.Lexed) → (∀ s ∈ e.stmts, (Node.stmt s).Fine) →
      ∀ depth, ∀ line ∈ e.lines unit depth, Tidy line
  | _, _, .none, _, _, depth =>
    List.forall_mem_singleton.mpr
      (tidy_append (plain_indentation hunit depth) (by decide) (by decide))
  | _, _, @DerivesElse.block _ _ b _ hb, hlexed, hfine, depth => by
    have hinner := hb.tidy hunit (fun t ht => hlexed t (by simp [ht]))
      (hfine _ List.mem_cons_self).body depth
    exact tidy_braced hunit
      (tidy_append (plain_indentation hunit depth) (by decide) (by decide)) hinner
  | _, _, @DerivesElse.elseIf _ _ _ _ _ test b rest _ _ htest hb he, hlexed, hfine, depth => by
    obtain ⟨hcondition, hbody, hrest⟩ := (hfine _ List.mem_cons_self).ifElse_parts
    have htest := plain_test htest (fun t ht => hlexed t (by simp [ht])) hcondition
    have hinner := hb.tidy hunit (fun t ht => hlexed t (by simp [ht])) hbody depth
    have helse := he.tidy hunit (fun t ht => hlexed t (by simp [ht])) hrest depth
    have helseWord : Plain "\x7d else " := plain_of_all (by decide)
    have hhead := (tidy_if htest).prepend ((plain_indentation hunit depth).append helseWord)
    exact List.forall_mem_append.mpr ⟨List.forall_mem_cons.mpr ⟨hhead, hinner⟩, helse⟩

theorem Grammar.DerivesBlock.tidy (hunit : Plain unit) : ∀ {ts : List Token} {b : Block},
    DerivesBlock ts b → (∀ t ∈ ts, t.Lexed) → (∀ s ∈ b.body, (Node.stmt s).Fine) →
      ∀ depth, ∀ line ∈ b.inner unit depth, Tidy line
  | _, _, .mk _ hss _, hlexed, hfine, depth =>
    hss.tidy hunit (fun t ht => hlexed t (by simp [ht])) hfine (depth + 1)

theorem Grammar.DerivesStmts.tidy (hunit : Plain unit) : ∀ {ts : List Token} {ss : List Stmt},
    DerivesStmts ts ss → (∀ t ∈ ts, t.Lexed) → (∀ s ∈ ss, (Node.stmt s).Fine) →
      ∀ depth, ∀ line ∈ Stmt.listLines unit depth ss, Tidy line
  | _, _, .nil, _, _, _ => fun _ hline => absurd hline List.not_mem_nil
  | _, _, .cons hs hss, hlexed, hfine, depth => by
    obtain ⟨hfirst, hmore⟩ := List.forall_mem_cons.mp hfine
    exact List.forall_mem_append.mpr
      ⟨hs.tidy hunit (fun t ht => hlexed t (by simp [ht])) hfirst depth,
        hss.tidy hunit (fun t ht => hlexed t (by simp [ht])) hmore depth⟩

end

end Statements

namespace Lint

variable {source : String}

/-! ## The rules about layout -/

/-- The lines of a canonical text are those of its statements, and an empty one behind the last line
feed. -/
theorem lines_format (unit : String) (p : Program)
    (h : ∀ line ∈ Stmt.listLines unit 0 p.body, Tidy line) :
    Text.lines (p.format unit) = Stmt.listLines unit 0 p.body ++ [""] := by
  have hfeeds : ∀ l ∈ (Stmt.listLines unit 0 p.body).map String.toList, '\n' ∉ l := by
    intro l hl
    obtain ⟨line, hline, rfl⟩ := List.mem_map.mp hl
    exact (h line hline).feed
  have hlines : (Stmt.listLines unit 0 p.body).flatMap (fun line => line.toList ++ ['\n']) =
      ((Stmt.listLines unit 0 p.body).map String.toList).flatMap fun l => l ++ ['\n'] := by
    rw [List.flatMap_map]
  rw [Text.lines, Program.toList_format, hlines, Text.splitLines_flatMap hfeeds, List.map_append,
    List.map_map]
  simp [Function.comp_def]

/-- Nothing is reported about a text whose lines do not end in white space. -/
theorem trailingWhitespace_eq_nil (h : ∀ line ∈ Text.lines source, line.toList.getLast?.any
    Text.isBlank = false) (path : String) :
    (lint [trailingWhitespace] path source).findings = [] := by
  rw [← List.map_eq_nil_iff (f := Finding.line), lines_trailingWhitespace, List.map_eq_nil_iff,
    List.filter_eq_nil_iff]
  rintro ⟨line, n⟩ hline
  simp [h line (List.mem_of_getElem? (mem_numberedLines.mp hline).2)]

/-- Nothing is reported about a text in which the heads of body sections are spelled right. -/
theorem bodyStyle_eq_nil (h : ∀ line ∈ Text.lines source,
    Text.find? "body@".toList line.toList = none ∨ Text.occursIn "body@ (style:" line = true)
    (path : String) : (lint [bodyStyle] path source).findings = [] := by
  refine List.eq_nil_iff_forall_not_mem.mpr fun f hf => ?_
  obtain ⟨line, n, found, g, hline, hfound, hg, -⟩ := exists_line_of_mem_findings rfl hf
  split at hfound
  · cases hfound
    cases hg
  · next index hindex =>
    obtain ⟨hmissing, -⟩ := eq_of_mem_ite hfound hg
    rcases h line (List.mem_of_getElem? (mem_numberedLines.mp hline).2) with hnone | hheading
    · cases hindex.symm.trans hnone
    · exact hmissing hheading

/-- The canonical text of a program that was parsed, whose strings have no line feeds and no
misspelled heads in them, keeps the rules about layout, whatever the settings. -/
theorem format_layout {allowance : Nat} {path source : String} {p : Program}
    (hparse : Program.parseWithin allowance path source = .ok p)
    (hstrings : ∀ layers pos value, Occurs p layers (.expr (.string pos value)) →
      '\n' ∉ value.toList ∧ Text.occursIn "body@" value = false) (s : Settings) (path' : String) :
    ∀ f ∈ (lint (defaultRules s) path' (p.format Program.defaultIndent)).findings,
      f.rule ≠ "trailing-whitespace" ∧ f.rule ≠ "homy-body-style-syntax" := by
  obtain ⟨tokens, hscan, hparse⟩ := Program.exists_tokens_of_parseWithin hparse
  have hscanned := Token.scanned_scan hscan
  have hderives := Program.derives_of_parseTokensWithin hscanned hparse
  have htidy : ∀ line ∈ Stmt.listLines Program.defaultIndent 0 p.body, Tidy line := by
    obtain ⟨ts, stop, heq, -, hlexed⟩ := hscanned.lexed
    have hfine : (Node.program p).Fine := fun layers pos value hbelow =>
      hstrings _ pos value ⟨layers, hbelow, rfl⟩
    -- both splits of the tokens are at the end marker
    obtain @⟨us, first, stop', ss, hss, -, -⟩ := hderives
    obtain ⟨rfl, -⟩ := List.append_inj' heq rfl
    exact hss.tidy (plain_of_all (by decide)) hlexed
      (fun s hs => hfine.part (Node.mem_stmtsIn.mpr ⟨rfl, s, hs, rfl⟩)) 0
  have hlines : ∀ line ∈ Text.lines (p.format Program.defaultIndent), Tidy line ∨ line = "" := by
    rw [lines_format _ _ htidy]
    simpa [or_imp, forall_and] using fun line hline => Or.inl (htidy line hline)
  refine fun f hf => ⟨fun hrule => ?_, fun hrule => ?_⟩
  · have halone := mem_findings_of_rule (r := trailingWhitespace) (by simp [allRules]) hrule hf
    rw [trailingWhitespace_eq_nil fun line hline => ?_] at halone
    · cases halone
    · rcases hlines line hline with htidy | rfl
      · obtain ⟨c, hc, hblank⟩ := htidy.last
        rw [hc, Option.any_some, hblank]
      · rfl
  · have halone := mem_findings_of_rule (r := bodyStyle) (by simp [allRules]) hrule hf
    rw [bodyStyle_eq_nil fun line hline => ?_] at halone
    · cases halone
    · rcases hlines line hline with htidy | rfl
      · exact htidy.heading.imp Plain.not_heading Text.occursIn_iff.mpr
      · exact .inl rfl

/-- A body section whose style has the sign in it. -/
theorem format_layout_section :
    ∃ p, Program.parseWithin 50 "" "body@(style:\"a@b\")/body" = .ok p ∧
      p.format Program.defaultIndent = "body@ (style: \"a@b\")\n/body;\n" ∧
      ∀ f ∈ (lint (defaultRules (.mk 80 none (.names []))) "f"
        (p.format Program.defaultIndent)).findings,
        f.rule ≠ "trailing-whitespace" ∧ f.rule ≠ "homy-body-style-syntax" := by
  let p : Program := ⟨⟨1, 1⟩, [.body ⟨1, 1⟩ (.string ⟨1, 13⟩ "a@b") []]⟩
  have hparse : Program.parseWithin 50 "" "body@(style:\"a@b\")/body" = .ok p := by cbv
  have hstyle : (Node.expr (.string ⟨1, 13⟩ "a@b")).Fine :=
    Node.fine_string ⟨by decide, by decide⟩ _
  have hsection : (Node.stmt (.body ⟨1, 1⟩ (.string ⟨1, 13⟩ "a@b") [])).Fine :=
    Node.fine_of_parts (fun _ _ heq => by cases heq) (List.forall_mem_singleton.mpr hstyle)
  have hfine : (Node.program p).Fine :=
    Node.fine_of_parts (fun _ _ heq => by cases heq) (List.forall_mem_singleton.mpr hsection)
  refine ⟨p, hparse, by decide +kernel, format_layout hparse ?_ _ _⟩
  rintro layers pos value ⟨further, hbelow, -⟩
  exact hfine further pos value hbelow

end Lint

end MiniApp
