import Mathlib.Computability.ContextFreeGrammar
import MiniApp.Proofs.Grammar

/-!
# The context-free grammar of statements

The grammar without its side conditions: how many arguments a property takes, that parameters are
distinct, that the target of an assignment is a name and that no body section stands directly inside
another one are not asked for. A constant still needs a value. The terminals are the kinds of
tokens.

The rules are written so that the first token of a phrase tells which one applies: an operand is
followed by a *tail*, which is empty or begins with an operator, and a list of names or arguments by
*more* of it, which is empty or begins with a comma.

## Main definitions

* `Grammar.Nonterminal`, `Grammar.productions`, `Grammar.contextFree`: the grammar
* `Grammar.Generates`, `Grammar.Begins`: what a sentential form derives, and how that may begin

## Main results

* `Grammar.exists_generates`: every sentential form derives something
* `Grammar.Generates.append_begins`: to begin a form, derive its first part and begin the other one
-/

namespace MiniApp.Grammar

/-- The phrases of the grammar. -/
inductive Nonterminal where
  | statements | statement | property | body | style | ending | function | parameters | names
  | moreNames | declaration | initializer | test | block | conditional | alternate | otherwise
  | init | option
  | arguments | list | expressions | moreExpressions
  | level (ℓ : Level)
  | tail (ℓ : Level)
  deriving DecidableEq

/-- Expressions of the loosest level. -/
abbrev Nonterminal.expression : Nonterminal := .level .assignment

/-- Sentential forms. -/
abbrev Form := List (Symbol TokenKind Nonterminal)

/-- A token of this kind, in a sentential form. -/
abbrev tok (k : TokenKind) : Symbol TokenKind Nonterminal := .terminal k

/-- A phrase, in a sentential form. -/
abbrev phrase (N : Nonterminal) : Symbol TokenKind Nonterminal := .nonterminal N

/-- The levels of expressions. -/
def levels : List Level :=
  [.assignment, .disjunction, .conjunction, .equality, .order, .sum, .product, .unary, .call,
    .primary]

/-- The operators of each level that stand between two operands. -/
def joiners : Level → List TokenKind
  | .disjunction => [.or]
  | .conjunction => [.and]
  | .equality => [.eq, .ne]
  | .order => [.lt, .gt, .le, .ge]
  | .sum => [.plus, .minus]
  | .product => [.star, .slash, .percent]
  | .assignment | .unary | .call | .primary => []

/-- The rules of a level over the next tighter one: an operand of that one, and a tail. -/
def levelRules (ℓ : Level) : List (ContextFreeRule TokenKind Nonterminal) :=
  ⟨.tail ℓ, []⟩ :: match ℓ.next? with
    | none => []
    | some m => ⟨.level ℓ, [phrase (.level m), phrase (.tail ℓ)]⟩ ::
      (joiners ℓ).map fun k => ⟨.tail ℓ, [tok k, phrase (.level m), phrase (.tail ℓ)]⟩

/-- The rules of expressions. -/
def expressionRules : List (ContextFreeRule TokenKind Nonterminal) := levels.flatMap levelRules ++ [
  ⟨.tail .assignment, [tok .assign, phrase .expression]⟩,
  ⟨.level .unary, [tok .not, phrase (.level .unary)]⟩,
  ⟨.level .unary, [tok .minus, phrase (.level .unary)]⟩,
  ⟨.tail .call, [phrase .arguments, phrase (.tail .call)]⟩,
  ⟨.level .primary, [tok .number]⟩,
  ⟨.level .primary, [tok .string]⟩,
  ⟨.level .primary, [tok .boolean]⟩,
  ⟨.level .primary, [tok .null]⟩,
  ⟨.level .primary, [tok .identifier]⟩,
  ⟨.level .primary, [tok .lparen, phrase .expression, tok .rparen]⟩,
  ⟨.level .primary, [tok .call, phrase .arguments]⟩,
  ⟨.arguments, [tok .lparen, phrase .list, tok .rparen]⟩,
  ⟨.list, []⟩,
  ⟨.list, [phrase .expressions]⟩,
  ⟨.expressions, [phrase .expression, phrase .moreExpressions]⟩,
  ⟨.moreExpressions, []⟩,
  ⟨.moreExpressions, [tok .comma, phrase .expressions]⟩,
  ⟨.option, []⟩,
  ⟨.option, [phrase .expression]⟩]

/-- The rules of statements. -/
def statementRules : List (ContextFreeRule TokenKind Nonterminal) := [
  ⟨.statements, []⟩,
  ⟨.statements, [phrase .statement, phrase .statements]⟩,
  ⟨.statement, [phrase .property]⟩,
  ⟨.statement, [phrase .body]⟩,
  ⟨.statement, [phrase .function]⟩,
  ⟨.statement, [phrase .declaration]⟩,
  ⟨.statement, [phrase .conditional]⟩,
  ⟨.statement, [tok .while, phrase .test, phrase .block]⟩,
  ⟨.statement, [tok .for, tok .lparen, phrase .init, phrase .option, tok .semicolon, phrase .option,
    tok .rparen, phrase .block]⟩,
  ⟨.statement, [tok .return, phrase .option, tok .semicolon]⟩,
  ⟨.statement, [tok .break, tok .semicolon]⟩,
  ⟨.statement, [tok .continue, tok .semicolon]⟩,
  ⟨.statement, [phrase .block]⟩,
  ⟨.statement, [phrase .expression, tok .semicolon]⟩,
  ⟨.property, [tok .nameAppMini, phrase .arguments, tok .semicolon]⟩,
  ⟨.property, [tok .webPackageMini, phrase .arguments, tok .semicolon]⟩,
  ⟨.property, [tok .webMiniVersion, phrase .arguments, tok .semicolon]⟩,
  ⟨.property, [tok .miniVersion, phrase .arguments, tok .semicolon]⟩,
  ⟨.property, [tok .miniAppIcon, phrase .arguments, tok .semicolon]⟩,
  ⟨.body, [tok .body, tok .at, tok .lparen, tok .style, tok .colon, phrase .style, tok .rparen,
    phrase .statements, tok .slash, tok .body, phrase .ending]⟩,
  ⟨.style, [tok .string]⟩,
  ⟨.style, [tok .identifier]⟩,
  ⟨.ending, []⟩,
  ⟨.ending, [tok .semicolon]⟩,
  ⟨.function, [tok .func, tok .identifier, tok .lparen, phrase .parameters, tok .rparen,
    phrase .block]⟩,
  ⟨.parameters, []⟩,
  ⟨.parameters, [phrase .names]⟩,
  ⟨.names, [tok .identifier, phrase .moreNames]⟩,
  ⟨.moreNames, []⟩,
  ⟨.moreNames, [tok .comma, phrase .names]⟩,
  ⟨.declaration, [tok .let, tok .identifier, phrase .initializer, tok .semicolon]⟩,
  ⟨.declaration, [tok .const, tok .identifier, tok .assign, phrase .expression, tok .semicolon]⟩,
  ⟨.initializer, []⟩,
  ⟨.initializer, [tok .assign, phrase .expression]⟩,
  ⟨.test, [tok .lparen, phrase .expression, tok .rparen]⟩,
  ⟨.block, [tok .lbrace, phrase .statements, tok .rbrace]⟩,
  ⟨.conditional, [tok .if, phrase .test, phrase .block, phrase .alternate]⟩,
  ⟨.alternate, []⟩,
  ⟨.alternate, [tok .else, phrase .otherwise]⟩,
  ⟨.otherwise, [phrase .block]⟩,
  ⟨.otherwise, [phrase .conditional]⟩,
  ⟨.init, [tok .semicolon]⟩,
  ⟨.init, [phrase .declaration]⟩,
  ⟨.init, [phrase .expression, tok .semicolon]⟩]

/-- The rules of the grammar. -/
def productions : List (ContextFreeRule TokenKind Nonterminal) := expressionRules ++ statementRules

/-- The grammar of lists of statements. -/
def contextFree : ContextFreeGrammar TokenKind where
  NT := Nonterminal
  initial := .statements
  rules := productions.toFinset

/-- The kinds of tokens `ks` are derived from a sentential form. -/
def Generates (φ : Form) (ks : List TokenKind) : Prop := contextFree.Derives φ (ks.map .terminal)

/-- The kinds of tokens `ks` begin something that is derived from a sentential form. -/
def Begins (φ : Form) (ks : List TokenKind) : Prop := ∃ ls, Generates φ (ks ++ ls)

variable {φ ψ : Form} {N : Nonterminal} {ks ls : List TokenKind} {k : TokenKind}

theorem mem_language_iff_generates :
    ks ∈ contextFree.language ↔ Generates [phrase .statements] ks := Iff.rfl

theorem Generates.nil : Generates [] [] := .refl _

theorem Generates.append (h : Generates φ ks) (h' : Generates ψ ls) :
    Generates (φ ++ ψ) (ks ++ ls) := by
  rw [Generates, List.map_append]
  exact (ContextFreeGrammar.Derives.append_right h ψ).trans
    (ContextFreeGrammar.Derives.append_left h' _)

theorem Generates.tok (k : TokenKind) : Generates [tok k] [k] := .refl _

theorem Generates.expand {χ : Form} (hmem : ⟨N, χ⟩ ∈ productions) (h : Generates (χ ++ ψ) ks) :
    Generates (phrase N :: ψ) ks := by
  have hmem' : (⟨N, χ⟩ : ContextFreeRule TokenKind Nonterminal) ∈ productions.toFinset :=
    List.mem_toFinset.mpr hmem
  have hproduces : contextFree.Produces (phrase N :: ψ) (χ ++ ψ) := ⟨_, hmem', .head ψ⟩
  exact hproduces.single.trans h

theorem Generates.rule (hmem : ⟨N, φ⟩ ∈ productions) (h : Generates φ ks) :
    Generates [phrase N] ks :=
  .expand hmem (by rwa [List.append_nil])

/-! ## The rules of expressions, by level -/

theorem tail_nil_mem (ℓ : Level) : ⟨.tail ℓ, []⟩ ∈ productions := by
  cases ℓ <;> decide

theorem level_mem {ℓ m : Level} (h : ℓ.next? = some m) :
    ⟨.level ℓ, [phrase (.level m), phrase (.tail ℓ)]⟩ ∈ productions := by
  cases ℓ <;> cases h <;> decide

theorem tail_mem {ℓ m : Level} {join : Position → Expr → Expr → Expr} (h : ℓ.next? = some m)
    (hjoins : Joins ℓ k join) :
    ⟨.tail ℓ, [tok k, phrase (.level m), phrase (.tail ℓ)]⟩ ∈ productions := by
  cases hjoins <;> cases h <;> decide

/-! ## Every phrase derives something -/

theorem Generates.cons {X : Symbol TokenKind Nonterminal} (h : Generates [X] ks)
    (h' : Generates ψ ls) : Generates (X :: ψ) (ks ++ ls) :=
  h.append h'

/-- A form all of whose phrases derive something derives something. -/
theorem exists_generates_of_forall (h : ∀ N, phrase N ∈ φ → ∃ ks, Generates [phrase N] ks) :
    ∃ ks, Generates φ ks := by
  induction φ with
  | nil => exact ⟨[], .nil⟩
  | cons X φ ih =>
    obtain ⟨ls, hls⟩ := ih fun N hN => h N (List.mem_cons_of_mem X hN)
    cases X with
    | terminal k => exact ⟨_, (Generates.tok k).cons hls⟩
    | nonterminal N =>
      obtain ⟨ks, hks⟩ := h N List.mem_cons_self
      exact ⟨_, hks.cons hls⟩

theorem exists_generates_of_rule (φ : Form) (hmem : ⟨N, φ⟩ ∈ productions)
    (h : ∀ M, phrase M ∈ φ → ∃ ks, Generates [phrase M] ks) : ∃ ks, Generates [phrase N] ks := by
  obtain ⟨ks, hks⟩ := exists_generates_of_forall h
  exact ⟨ks, hks.rule hmem⟩

/-- A name is an expression of every level. -/
theorem generates_level (ℓ : Level) : Generates [phrase (.level ℓ)] [.identifier] := by
  have hnext {ℓ m : Level} (h : ℓ.next? = some m)
      (hm : Generates [phrase (.level m)] [.identifier]) :
      Generates [phrase (.level ℓ)] [.identifier] :=
    .rule (level_mem h) (hm.cons (.rule (tail_nil_mem ℓ) .nil))
  have hprimary : Generates [phrase (.level .primary)] [.identifier] := .rule (by decide) (.tok _)
  have hcall := hnext (ℓ := .call) rfl hprimary
  have hunary := hnext (ℓ := .unary) rfl hcall
  have hproduct := hnext (ℓ := .product) rfl hunary
  have hsum := hnext (ℓ := .sum) rfl hproduct
  have horder := hnext (ℓ := .order) rfl hsum
  have hequality := hnext (ℓ := .equality) rfl horder
  have hconjunction := hnext (ℓ := .conjunction) rfl hequality
  have hdisjunction := hnext (ℓ := .disjunction) rfl hconjunction
  cases ℓ with
  | assignment => exact hnext rfl hdisjunction
  | _ => assumption

/-- Every phrase derives something. -/
theorem exists_generates_phrase (N : Nonterminal) : ∃ ks, Generates [phrase N] ks := by
  -- empty phrases and names first, then what is made of them
  have hlevel (ℓ : Level) : ∃ ks, Generates [phrase (.level ℓ)] ks := ⟨_, generates_level ℓ⟩
  have hlist : ∃ ks, Generates [phrase .list] ks := ⟨[], .rule (by decide) .nil⟩
  have hmore : ∃ ks, Generates [phrase .moreExpressions] ks := ⟨[], .rule (by decide) .nil⟩
  have hmoreNames : ∃ ks, Generates [phrase .moreNames] ks := ⟨[], .rule (by decide) .nil⟩
  have hparameters : ∃ ks, Generates [phrase .parameters] ks := ⟨[], .rule (by decide) .nil⟩
  have hinitializer : ∃ ks, Generates [phrase .initializer] ks := ⟨[], .rule (by decide) .nil⟩
  have hstatements : ∃ ks, Generates [phrase .statements] ks := ⟨[], .rule (by decide) .nil⟩
  have halternate : ∃ ks, Generates [phrase .alternate] ks := ⟨[], .rule (by decide) .nil⟩
  have hending : ∃ ks, Generates [phrase .ending] ks := ⟨[], .rule (by decide) .nil⟩
  have hstyle : ∃ ks, Generates [phrase .style] ks := ⟨_, .rule (by decide) (.tok .string)⟩
  have harguments : ∃ ks, Generates [phrase .arguments] ks :=
    exists_generates_of_rule [tok .lparen, phrase .list, tok .rparen] (by decide)
      (by simpa using hlist)
  have hblock : ∃ ks, Generates [phrase .block] ks :=
    exists_generates_of_rule [tok .lbrace, phrase .statements, tok .rbrace] (by decide)
      (by simpa using hstatements)
  have htest : ∃ ks, Generates [phrase .test] ks :=
    exists_generates_of_rule [tok .lparen, phrase .expression, tok .rparen] (by decide)
      (by simpa using hlevel _)
  cases N with
  | level ℓ => exact hlevel ℓ
  | tail ℓ => exact ⟨[], .rule (tail_nil_mem ℓ) .nil⟩
  | option => exact ⟨[], .rule (by decide) .nil⟩
  | init => exact ⟨_, .rule (by decide) (.tok .semicolon)⟩
  | expressions =>
    exact exists_generates_of_rule [phrase .expression, phrase .moreExpressions] (by decide)
      (by simpa using ⟨hlevel _, hmore⟩)
  | names =>
    exact exists_generates_of_rule [tok .identifier, phrase .moreNames] (by decide)
      (by simpa using hmoreNames)
  | property =>
    exact exists_generates_of_rule [tok .webPackageMini, phrase .arguments, tok .semicolon]
      (by decide) (by simpa using harguments)
  | body =>
    exact exists_generates_of_rule [tok .body, tok .at, tok .lparen, tok .style, tok .colon,
      phrase .style, tok .rparen, phrase .statements, tok .slash, tok .body, phrase .ending]
      (by decide) (by simpa using ⟨hstyle, hstatements, hending⟩)
  | function =>
    exact exists_generates_of_rule [tok .func, tok .identifier, tok .lparen, phrase .parameters,
      tok .rparen, phrase .block] (by decide) (by simpa using ⟨hparameters, hblock⟩)
  | declaration =>
    exact exists_generates_of_rule [tok .let, tok .identifier, phrase .initializer, tok .semicolon]
      (by decide) (by simpa using hinitializer)
  | conditional =>
    exact exists_generates_of_rule [tok .if, phrase .test, phrase .block, phrase .alternate]
      (by decide) (by simpa using ⟨htest, hblock, halternate⟩)
  | statement | otherwise =>
    exact exists_generates_of_rule [phrase .block] (by decide) (by simpa using hblock)
  | _ => assumption

/-- Every sentential form derives something. -/
theorem exists_generates (φ : Form) : ∃ ks, Generates φ ks :=
  exists_generates_of_forall fun N _ => exists_generates_phrase N

/-! ## Beginnings -/

theorem Begins.nil (φ : Form) : Begins φ [] := exists_generates φ

/-- What begins the first part of a form begins the form. -/
theorem Begins.append_right (h : Begins φ ks) (ψ : Form) : Begins (φ ++ ψ) ks := by
  obtain ⟨ls, hls⟩ := h
  obtain ⟨ms, hms⟩ := exists_generates ψ
  exact ⟨ls ++ ms, by simpa using hls.append hms⟩

/-- To begin a form, derive its first part and begin the other one. -/
theorem Generates.append_begins (h : Generates φ ks) (h' : Begins ψ ls) :
    Begins (φ ++ ψ) (ks ++ ls) := by
  obtain ⟨ms, hms⟩ := h'
  exact ⟨ms, by simpa using h.append hms⟩

theorem Begins.mono (h : Begins φ ks) (himp : ∀ ls, Generates φ ls → Generates ψ ls) :
    Begins ψ ks := by
  obtain ⟨ls, hls⟩ := h
  exact ⟨ls, himp _ hls⟩

end MiniApp.Grammar
