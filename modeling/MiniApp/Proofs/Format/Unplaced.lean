import MiniApp.Syntax.Print

/-!
# Trees without places

Two trees are the same but for places exactly if they agree once all places are forgotten. Canonical
texts see no more of a tree than that.

## Main definitions

* `Expr.unplaced`, `Stmt.unplaced`, `Program.unplaced`: trees without places

## Main results

* `Program.format_unplaced`: canonical texts do not depend on places
-/

namespace MiniApp

mutual

/-- An expression without places. -/
def Expr.unplaced : Expr → Expr
  | .ident _ name => .ident .start name
  | .number _ value raw => .number .start value raw
  | .string _ value => .string .start value
  | .bool _ value => .bool .start value
  | .null _ => .null .start
  | .binary _ op l r => .binary .start op l.unplaced r.unplaced
  | .logical _ op l r => .logical .start op l.unplaced r.unplaced
  | .unary _ op e => .unary .start op e.unplaced
  | .assign _ target e => .assign .start target e.unplaced
  | .call _ callee arguments => .call .start callee.unplaced (Expr.unplacedAll arguments)
  | .content _ arguments => .content .start (Expr.unplacedAll arguments)

/-- Expressions without places. -/
def Expr.unplacedAll : List Expr → List Expr
  | [] => []
  | e :: es => e.unplaced :: Expr.unplacedAll es

end

/-- What a `for` statement starts with, without places. -/
def ForInit.unplaced : ForInit → ForInit
  | .none => .none
  | .declare _ kind name init => .declare .start kind name (init.map Expr.unplaced)
  | .expr _ e => .expr .start e.unplaced

mutual

/-- A statement without places. -/
def Stmt.unplaced : Stmt → Stmt
  | .block b => .block b.unplaced
  | .declare _ kind name init => .declare .start kind name (init.map Expr.unplaced)
  | .func _ name parameters b => .func .start name parameters b.unplaced
  | .property _ kind argument => .property .start kind (argument.map Expr.unplaced)
  | .body _ style content => .body .start style.unplaced (Stmt.unplacedAll content)
  | .ifElse _ test b rest => .ifElse .start test.unplaced b.unplaced rest.unplaced
  | .while _ test b => .while .start test.unplaced b.unplaced
  | .for _ init test update b =>
    .for .start init.unplaced (test.map Expr.unplaced) (update.map Expr.unplaced) b.unplaced
  | .return _ value => .return .start (value.map Expr.unplaced)
  | .break _ => .break .start
  | .continue _ => .continue .start
  | .expr _ e => .expr .start e.unplaced

/-- What follows the block of an `if`, without places. -/
def Else.unplaced : Else → Else
  | .none => .none
  | .block b => .block b.unplaced
  | .elseIf _ test b rest => .elseIf .start test.unplaced b.unplaced rest.unplaced

/-- A block without places. -/
def Block.unplaced : Block → Block
  | .mk _ body => .mk .start (Stmt.unplacedAll body)

/-- Statements without places. -/
def Stmt.unplacedAll : List Stmt → List Stmt
  | [] => []
  | s :: ss => s.unplaced :: Stmt.unplacedAll ss

end

/-- A program without places. -/
def Program.unplaced (p : Program) : Program := ⟨.start, Stmt.unplacedAll p.body⟩

theorem Expr.unplacedAll_eq_map (es : List Expr) : Expr.unplacedAll es = es.map Expr.unplaced := by
  induction es with
  | nil => rfl
  | cons e es ih => rw [Expr.unplacedAll, ih, List.map_cons]

theorem Stmt.unplacedAll_eq_map (ss : List Stmt) : Stmt.unplacedAll ss = ss.map Stmt.unplaced := by
  induction ss with
  | nil => rfl
  | cons s ss ih => rw [Stmt.unplacedAll, ih, List.map_cons]

theorem Expr.isCompound_unplaced (e : Expr) : e.unplaced.isCompound = e.isCompound := by
  cases e <;> rfl

mutual

theorem Expr.text_unplaced : ∀ e : Expr, e.unplaced.text = e.text
  | .ident .. | .number .. | .string .. | .bool .. | .null .. => rfl
  | .binary _ op l r => by
    simp only [Expr.unplaced, Expr.text, isCompound_unplaced, l.text_unplaced, r.text_unplaced]
  | .logical _ op l r => by
    simp only [Expr.unplaced, Expr.text, isCompound_unplaced, l.text_unplaced, r.text_unplaced]
  | .unary _ op e => by
    simp only [Expr.unplaced, Expr.text, isCompound_unplaced, e.text_unplaced]
  | .assign _ target e => by
    simp only [Expr.unplaced, Expr.text, isCompound_unplaced, e.text_unplaced]
  | .call _ callee arguments => by
    simp only [Expr.unplaced, Expr.text, isCompound_unplaced, callee.text_unplaced,
      Expr.texts_unplaced arguments]
  | .content _ arguments => by
    simp only [Expr.unplaced, Expr.text, Expr.texts_unplaced arguments]

theorem Expr.texts_unplaced : ∀ es : List Expr, Expr.texts (Expr.unplacedAll es) = Expr.texts es
  | [] => rfl
  | e :: es => by
    simp only [Expr.unplacedAll, Expr.texts, e.text_unplaced, Expr.texts_unplaced es]

end

theorem optionalText_unplaced (lead : String) (e : Option Expr) :
    optionalText lead (e.map Expr.unplaced) = optionalText lead e := by
  cases e with
  | none => rfl
  | some e => simp only [Option.map_some, optionalText, e.text_unplaced]

theorem ForInit.text_unplaced (init : ForInit) : init.unplaced.text = init.text := by
  cases init with
  | none => rfl
  | declare _ kind name init =>
    simp only [unplaced, text, declarationText, optionalText_unplaced]
  | expr _ e => simp only [unplaced, text, e.text_unplaced]

section Lines

variable (unit : String)

mutual

theorem Stmt.lines_unplaced : ∀ (depth : Nat) (s : Stmt),
    s.unplaced.lines unit depth = s.lines unit depth
  | depth, .block b => by
    simp only [Stmt.unplaced, Stmt.lines, Block.inner_unplaced depth b]
  | depth, .declare _ kind name init => by
    simp only [Stmt.unplaced, Stmt.lines, declarationText, optionalText_unplaced]
  | depth, .func _ name parameters b => by
    simp only [Stmt.unplaced, Stmt.lines, Block.inner_unplaced depth b]
  | depth, .property _ kind argument => by
    simp only [Stmt.unplaced, Stmt.lines, optionalText_unplaced]
  | depth, .body _ style content => by
    simp only [Stmt.unplaced, Stmt.lines, style.text_unplaced,
      Stmt.listLines_unplaced (depth + 1) content]
  | depth, .ifElse _ test b rest => by
    simp only [Stmt.unplaced, Stmt.lines, ifHead, test.text_unplaced, Block.inner_unplaced depth b,
      Else.lines_unplaced depth rest]
  | depth, .while _ test b => by
    simp only [Stmt.unplaced, Stmt.lines, test.text_unplaced, Block.inner_unplaced depth b]
  | depth, .for _ init test update b => by
    simp only [Stmt.unplaced, Stmt.lines, init.text_unplaced, optionalText_unplaced,
      Block.inner_unplaced depth b]
  | depth, .return _ value => by
    simp only [Stmt.unplaced, Stmt.lines, optionalText_unplaced]
  | depth, .break _ => rfl
  | depth, .continue _ => rfl
  | depth, .expr _ e => by simp only [Stmt.unplaced, Stmt.lines, e.text_unplaced]

theorem Else.lines_unplaced : ∀ (depth : Nat) (e : Else),
    e.unplaced.lines unit depth = e.lines unit depth
  | depth, .none => rfl
  | depth, .block b => by
    simp only [Else.unplaced, Else.lines, Block.inner_unplaced depth b]
  | depth, .elseIf _ test b rest => by
    simp only [Else.unplaced, Else.lines, ifHead, test.text_unplaced, Block.inner_unplaced depth b,
      Else.lines_unplaced depth rest]

theorem Block.inner_unplaced : ∀ (depth : Nat) (b : Block),
    b.unplaced.inner unit depth = b.inner unit depth
  | depth, .mk _ body => by
    simp only [Block.unplaced, Block.inner, Stmt.listLines_unplaced (depth + 1) body]

theorem Stmt.listLines_unplaced : ∀ (depth : Nat) (ss : List Stmt),
    Stmt.listLines unit depth (Stmt.unplacedAll ss) = Stmt.listLines unit depth ss
  | depth, [] => rfl
  | depth, s :: ss => by
    simp only [Stmt.unplacedAll, Stmt.listLines, Stmt.lines_unplaced depth s,
      Stmt.listLines_unplaced depth ss]

end

/-- Canonical texts do not depend on places. -/
theorem Program.format_unplaced (p : Program) : p.unplaced.format unit = p.format unit := by
  simp only [unplaced, format, Stmt.listLines_unplaced]

end Lines

end MiniApp
