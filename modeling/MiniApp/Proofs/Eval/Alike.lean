import Mathlib.Data.List.Forall2
import Mathlib.Data.Option.Basic
import MiniApp.Eval.Evaluate

/-!
# Trees that are alike

Two trees are alike if they differ at most where some leeway allows it: in places and in the spelling
of numbers. A run sees both only to report places.

## Main definitions

* `Leeway`, `Leeway.Rigid`: which places and spellings may stand for one another, if for others than
  themselves at all
* `Expr.Alike`, `Stmt.Alike`, `Block.Alike`: trees that are alike

## Main results

* `Expr.Alike.eq`, `Stmt.Alike.eq`, `Node.Alike.eq`: under a rigid leeway, trees that are alike are
  equal
* `Expr.Alike.binarySpine`, `Expr.Alike.logicalSpine`: spines of expressions that are alike
-/

namespace MiniApp

/-- Which places, and which spellings of numbers, may stand for one another. -/
structure Leeway where
  place : Position → Position → Prop
  spelling : String → String → Prop

namespace Leeway

/-- No leeway at all. -/
def exact : Leeway := ⟨(· = ·), (· = ·)⟩

/-- Nothing may stand for anything but itself. -/
structure Rigid (ℓ : Leeway) : Prop where
  place {p q : Position} : ℓ.place p q → p = q
  spelling {r s : String} : ℓ.spelling r s → r = s

theorem rigid_exact : exact.Rigid := ⟨id, id⟩

end Leeway

/-- Expressions that are alike. -/
inductive Expr.Alike (ℓ : Leeway) : Expr → Expr → Prop
  | ident {p q : Position} {name : String} :
      ℓ.place p q → Alike ℓ (.ident p name) (.ident q name)
  | number {p q : Position} {n : Number} {r s : String} :
      ℓ.place p q → ℓ.spelling r s → Alike ℓ (.number p n r) (.number q n s)
  | string {p q : Position} {s : String} : ℓ.place p q → Alike ℓ (.string p s) (.string q s)
  | bool {p q : Position} {b : Bool} : ℓ.place p q → Alike ℓ (.bool p b) (.bool q b)
  | null {p q : Position} : ℓ.place p q → Alike ℓ (.null p) (.null q)
  | binary {p q : Position} {op : BinaryOp} {l l' r r' : Expr} :
      ℓ.place p q → Alike ℓ l l' → Alike ℓ r r' → Alike ℓ (.binary p op l r) (.binary q op l' r')
  | logical {p q : Position} {op : LogicalOp} {l l' r r' : Expr} :
      ℓ.place p q → Alike ℓ l l' → Alike ℓ r r' → Alike ℓ (.logical p op l r) (.logical q op l' r')
  | unary {p q : Position} {op : UnaryOp} {e e' : Expr} :
      ℓ.place p q → Alike ℓ e e' → Alike ℓ (.unary p op e) (.unary q op e')
  | assign {p q : Position} {target : String} {e e' : Expr} :
      ℓ.place p q → Alike ℓ e e' → Alike ℓ (.assign p target e) (.assign q target e')
  | call {p q : Position} {f f' : Expr} {es es' : List Expr} :
      ℓ.place p q → Alike ℓ f f' → List.Forall₂ (Alike ℓ) es es' →
      Alike ℓ (.call p f es) (.call q f' es')
  | content {p q : Position} {es es' : List Expr} :
      ℓ.place p q → List.Forall₂ (Alike ℓ) es es' → Alike ℓ (.content p es) (.content q es')

/-- Beginnings of `for` statements that are alike. -/
inductive ForInit.Alike (ℓ : Leeway) : ForInit → ForInit → Prop
  | none : Alike ℓ .none .none
  | declare {p q : Position} {kind : DeclarationKind} {name : String} {e e' : Option Expr} :
      ℓ.place p q → Option.Rel (Expr.Alike ℓ) e e' →
      Alike ℓ (.declare p kind name e) (.declare q kind name e')
  | expr {p q : Position} {e e' : Expr} :
      ℓ.place p q → e.Alike ℓ e' → Alike ℓ (.expr p e) (.expr q e')

mutual

/-- Statements that are alike. -/
inductive Stmt.Alike (ℓ : Leeway) : Stmt → Stmt → Prop
  | block {b b' : Block} : Block.Alike ℓ b b' → Stmt.Alike ℓ (.block b) (.block b')
  | declare {p q : Position} {kind : DeclarationKind} {name : String} {e e' : Option Expr} :
      ℓ.place p q → Option.Rel (Expr.Alike ℓ) e e' →
      Stmt.Alike ℓ (.declare p kind name e) (.declare q kind name e')
  | func {p q : Position} {name : String} {parameters : List String} {b b' : Block} :
      ℓ.place p q → Block.Alike ℓ b b' →
      Stmt.Alike ℓ (.func p name parameters b) (.func q name parameters b')
  | property {p q : Position} {kind : Property} {e e' : Option Expr} :
      ℓ.place p q → Option.Rel (Expr.Alike ℓ) e e' →
      Stmt.Alike ℓ (.property p kind e) (.property q kind e')
  | body {p q : Position} {style style' : Expr} {content content' : List Stmt} :
      ℓ.place p q → style.Alike ℓ style' → List.Forall₂ (Stmt.Alike ℓ) content content' →
      Stmt.Alike ℓ (.body p style content) (.body q style' content')
  | ifElse {p q : Position} {e e' : Expr} {b b' : Block} {rest rest' : Else} :
      ℓ.place p q → e.Alike ℓ e' → Block.Alike ℓ b b' → Else.Alike ℓ rest rest' →
      Stmt.Alike ℓ (.ifElse p e b rest) (.ifElse q e' b' rest')
  | while {p q : Position} {e e' : Expr} {b b' : Block} :
      ℓ.place p q → e.Alike ℓ e' → Block.Alike ℓ b b' →
      Stmt.Alike ℓ (.while p e b) (.while q e' b')
  | for {p q : Position} {init init' : ForInit} {test test' update update' : Option Expr}
      {b b' : Block} :
      ℓ.place p q → init.Alike ℓ init' → Option.Rel (Expr.Alike ℓ) test test' →
      Option.Rel (Expr.Alike ℓ) update update' → Block.Alike ℓ b b' →
      Stmt.Alike ℓ (.for p init test update b) (.for q init' test' update' b')
  | return {p q : Position} {e e' : Option Expr} :
      ℓ.place p q → Option.Rel (Expr.Alike ℓ) e e' → Stmt.Alike ℓ (.return p e) (.return q e')
  | break {p q : Position} : ℓ.place p q → Stmt.Alike ℓ (.break p) (.break q)
  | continue {p q : Position} : ℓ.place p q → Stmt.Alike ℓ (.continue p) (.continue q)
  | expr {p q : Position} {e e' : Expr} :
      ℓ.place p q → e.Alike ℓ e' → Stmt.Alike ℓ (.expr p e) (.expr q e')

/-- What follows the blocks of `if` statements that are alike. -/
inductive Else.Alike (ℓ : Leeway) : Else → Else → Prop
  | none : Else.Alike ℓ .none .none
  | block {b b' : Block} : Block.Alike ℓ b b' → Else.Alike ℓ (.block b) (.block b')
  | elseIf {p q : Position} {e e' : Expr} {b b' : Block} {rest rest' : Else} :
      ℓ.place p q → e.Alike ℓ e' → Block.Alike ℓ b b' → Else.Alike ℓ rest rest' →
      Else.Alike ℓ (.elseIf p e b rest) (.elseIf q e' b' rest')

/-- Blocks that are alike. -/
inductive Block.Alike (ℓ : Leeway) : Block → Block → Prop
  | mk {p q : Position} {ss ss' : List Stmt} :
      ℓ.place p q → List.Forall₂ (Stmt.Alike ℓ) ss ss' → Block.Alike ℓ (.mk p ss) (.mk q ss')

end

/-- Programs that are alike. -/
structure Program.Alike (ℓ : Leeway) (p q : Program) : Prop where
  place : ℓ.place p.pos q.pos
  body : List.Forall₂ (Stmt.Alike ℓ) p.body q.body

/-- Nodes that are alike. -/
inductive Node.Alike (ℓ : Leeway) : Node → Node → Prop
  | program {p q : Program} : p.Alike ℓ q → Alike ℓ (.program p) (.program q)
  | stmt {s t : Stmt} : s.Alike ℓ t → Alike ℓ (.stmt s) (.stmt t)
  | expr {e e' : Expr} : e.Alike ℓ e' → Alike ℓ (.expr e) (.expr e')

/-! ## Without leeway -/

mutual

theorem Expr.Alike.refl : ∀ e : Expr, e.Alike .exact e
  | .ident .. => .ident rfl
  | .number .. => .number rfl rfl
  | .string .. => .string rfl
  | .bool .. => .bool rfl
  | .null .. => .null rfl
  | .binary _ _ l r => .binary rfl (refl l) (refl r)
  | .logical _ _ l r => .logical rfl (refl l) (refl r)
  | .unary _ _ e => .unary rfl (refl e)
  | .assign _ _ e => .assign rfl (refl e)
  | .call _ f es => .call rfl (refl f) (reflAll es)
  | .content _ es => .content rfl (reflAll es)

theorem Expr.Alike.reflAll : ∀ es : List Expr, List.Forall₂ (Expr.Alike .exact) es es
  | [] => .nil
  | e :: es => .cons (refl e) (reflAll es)

end

theorem Expr.Alike.reflOption : ∀ e : Option Expr, Option.Rel (Expr.Alike .exact) e e
  | none => .none
  | some e => .some (refl e)

theorem ForInit.Alike.refl : ∀ init : ForInit, init.Alike .exact init
  | .none => .none
  | .declare _ _ _ e => .declare rfl (Expr.Alike.reflOption e)
  | .expr _ e => .expr rfl (Expr.Alike.refl e)

mutual

theorem Stmt.Alike.refl : ∀ s : Stmt, s.Alike .exact s
  | .block b => .block (Block.Alike.refl b)
  | .declare _ _ _ e => .declare rfl (Expr.Alike.reflOption e)
  | .func _ _ _ b => .func rfl (Block.Alike.refl b)
  | .property _ _ e => .property rfl (Expr.Alike.reflOption e)
  | .body _ style ss =>
    .body rfl (Expr.Alike.refl style) (Stmt.Alike.reflAll ss)
  | .ifElse _ e b rest =>
    .ifElse rfl (Expr.Alike.refl e) (Block.Alike.refl b)
      (Else.Alike.refl rest)
  | .while _ e b => .while rfl (Expr.Alike.refl e) (Block.Alike.refl b)
  | .for _ init test update b =>
    .for rfl (ForInit.Alike.refl init) (Expr.Alike.reflOption test)
      (Expr.Alike.reflOption update) (Block.Alike.refl b)
  | .return _ e => .return rfl (Expr.Alike.reflOption e)
  | .break _ => .break rfl
  | .continue _ => .continue rfl
  | .expr _ e => .expr rfl (Expr.Alike.refl e)

theorem Else.Alike.refl : ∀ rest : Else, rest.Alike .exact rest
  | .none => .none
  | .block b => .block (Block.Alike.refl b)
  | .elseIf _ e b rest =>
    .elseIf rfl (Expr.Alike.refl e) (Block.Alike.refl b)
      (Else.Alike.refl rest)

theorem Block.Alike.refl : ∀ b : Block, b.Alike .exact b
  | .mk _ ss => .mk rfl (Stmt.Alike.reflAll ss)

theorem Stmt.Alike.reflAll : ∀ ss : List Stmt, List.Forall₂ (Stmt.Alike .exact) ss ss
  | [] => .nil
  | s :: ss => .cons (Stmt.Alike.refl s) (Stmt.Alike.reflAll ss)

end

theorem Program.Alike.refl (p : Program) : p.Alike .exact p :=
  ⟨rfl, Stmt.Alike.reflAll p.body⟩

/-! ## Equal trees -/

variable {ℓ : Leeway}

mutual

theorem Expr.Alike.eq (hℓ : ℓ.Rigid) : ∀ {e e' : Expr}, e.Alike ℓ e' → e = e'
  | .ident .., _, .ident hp => by rw [hℓ.place hp]
  | .number .., _, .number hp hs => by rw [hℓ.place hp, hℓ.spelling hs]
  | .string .., _, .string hp => by rw [hℓ.place hp]
  | .bool .., _, .bool hp => by rw [hℓ.place hp]
  | .null .., _, .null hp => by rw [hℓ.place hp]
  | .binary .., _, .binary hp hl hr => by rw [hℓ.place hp, hl.eq hℓ, hr.eq hℓ]
  | .logical .., _, .logical hp hl hr => by rw [hℓ.place hp, hl.eq hℓ, hr.eq hℓ]
  | .unary .., _, .unary hp h => by rw [hℓ.place hp, h.eq hℓ]
  | .assign .., _, .assign hp h => by rw [hℓ.place hp, h.eq hℓ]
  | .call .., _, .call hp hf hes => by rw [hℓ.place hp, hf.eq hℓ, Expr.Alike.eqAll hℓ hes]
  | .content .., _, .content hp hes => by rw [hℓ.place hp, Expr.Alike.eqAll hℓ hes]

theorem Expr.Alike.eqAll (hℓ : ℓ.Rigid) : ∀ {es es' : List Expr},
    List.Forall₂ (Expr.Alike ℓ) es es' → es = es'
  | [], _, .nil => rfl
  | _ :: _, _, .cons h hs => by rw [h.eq hℓ, Expr.Alike.eqAll hℓ hs]

end

theorem Expr.Alike.eqOption {e e' : Option Expr} (hℓ : ℓ.Rigid)
    (h : Option.Rel (Expr.Alike ℓ) e e') : e = e' := by
  cases h with
  | none => rfl
  | some h => rw [h.eq hℓ]

theorem ForInit.Alike.eq {init init' : ForInit} (hℓ : ℓ.Rigid) (h : init.Alike ℓ init') :
    init = init' := by
  cases h with
  | none => rfl
  | declare hp he => rw [hℓ.place hp, Expr.Alike.eqOption hℓ he]
  | expr hp he => rw [hℓ.place hp, he.eq hℓ]

mutual

theorem Stmt.Alike.eq (hℓ : ℓ.Rigid) : ∀ {s s' : Stmt}, s.Alike ℓ s' → s = s'
  | .block .., _, .block h => by rw [h.eq hℓ]
  | .declare .., _, .declare hp h => by rw [hℓ.place hp, Expr.Alike.eqOption hℓ h]
  | .func .., _, .func hp h => by rw [hℓ.place hp, h.eq hℓ]
  | .property .., _, .property hp h => by rw [hℓ.place hp, Expr.Alike.eqOption hℓ h]
  | .body .., _, .body hp he hs => by rw [hℓ.place hp, he.eq hℓ, Stmt.Alike.eqAll hℓ hs]
  | .ifElse .., _, .ifElse hp he hb hr => by rw [hℓ.place hp, he.eq hℓ, hb.eq hℓ, hr.eq hℓ]
  | .while .., _, .while hp he hb => by rw [hℓ.place hp, he.eq hℓ, hb.eq hℓ]
  | .for .., _, .for hp hi ht hu hb => by
    rw [hℓ.place hp, hi.eq hℓ, Expr.Alike.eqOption hℓ ht, Expr.Alike.eqOption hℓ hu, hb.eq hℓ]
  | .return .., _, .return hp h => by rw [hℓ.place hp, Expr.Alike.eqOption hℓ h]
  | .break .., _, .break hp => by rw [hℓ.place hp]
  | .continue .., _, .continue hp => by rw [hℓ.place hp]
  | .expr .., _, .expr hp h => by rw [hℓ.place hp, h.eq hℓ]

theorem Else.Alike.eq (hℓ : ℓ.Rigid) : ∀ {rest rest' : Else}, rest.Alike ℓ rest' → rest = rest'
  | .none, _, .none => rfl
  | .block .., _, .block h => by rw [h.eq hℓ]
  | .elseIf .., _, .elseIf hp he hb hr => by rw [hℓ.place hp, he.eq hℓ, hb.eq hℓ, hr.eq hℓ]

theorem Block.Alike.eq (hℓ : ℓ.Rigid) : ∀ {b b' : Block}, b.Alike ℓ b' → b = b'
  | .mk .., _, .mk hp h => by rw [hℓ.place hp, Stmt.Alike.eqAll hℓ h]

theorem Stmt.Alike.eqAll (hℓ : ℓ.Rigid) : ∀ {ss ss' : List Stmt},
    List.Forall₂ (Stmt.Alike ℓ) ss ss' → ss = ss'
  | [], _, .nil => rfl
  | _ :: _, _, .cons h hs => by rw [h.eq hℓ, Stmt.Alike.eqAll hℓ hs]

end

theorem Program.Alike.eq (hℓ : ℓ.Rigid) {p q : Program} (h : p.Alike ℓ q) : p = q :=
  congrArg₂ Program.mk (hℓ.place h.place) (Stmt.Alike.eqAll hℓ h.body)

theorem Node.Alike.eq (hℓ : ℓ.Rigid) {n m : Node} (h : n.Alike ℓ m) : n = m := by
  cases h with
  | program h => rw [h.eq hℓ]
  | stmt h => rw [h.eq hℓ]
  | expr h => rw [h.eq hℓ]

/-! ## What a run reads off a tree -/

theorem Expr.Alike.place {e e' : Expr} (h : e.Alike ℓ e') : ℓ.place e.pos e'.pos := by
  cases h <;> assumption

theorem Block.Alike.place {b b' : Block} (h : b.Alike ℓ b') : ℓ.place b.pos b'.pos := by
  cases h with
  | mk hp _ => exact hp

theorem Block.Alike.body {b b' : Block} (h : b.Alike ℓ b') :
    List.Forall₂ (Stmt.Alike ℓ) b.body b'.body := by
  cases h with
  | mk _ hs => exact hs

theorem Stmt.Alike.place {s s' : Stmt} (h : s.Alike ℓ s') : ℓ.place s.pos s'.pos := by
  cases h with
  -- a block has no place of its own as a statement
  | block h => exact h.place
  | _ => assumption

theorem Expr.Alike.isStringLiteral {e e' : Expr} (h : e.Alike ℓ e') :
    e.isStringLiteral = e'.isStringLiteral := by
  cases h <;> rfl

/-- Steps along the spines of binary expressions that are alike. -/
structure BinaryStep.Alike (ℓ : Leeway) (s t : BinaryStep) : Prop where
  place : ℓ.place s.pos t.pos
  op : s.op = t.op
  right : s.right.Alike ℓ t.right

/-- Steps along the spines of logical expressions that are alike. -/
structure LogicalStep.Alike (ℓ : Leeway) (s t : LogicalStep) : Prop where
  op : s.op = t.op
  right : s.right.Alike ℓ t.right

theorem Expr.Alike.binarySpine : ∀ {e e' : Expr}, e.Alike ℓ e' →
    e.binarySpine.1.Alike ℓ e'.binarySpine.1 ∧
      List.Forall₂ (BinaryStep.Alike ℓ) e.binarySpine.2 e'.binarySpine.2
  -- the spine of the left operand, and one step more
  | _, _, .binary hp hl hr =>
    ⟨hl.binarySpine.1, List.rel_append hl.binarySpine.2 (.cons ⟨hp, rfl, hr⟩ .nil)⟩
  | _, _, .ident hp => ⟨.ident hp, .nil⟩
  | _, _, .number hp hs => ⟨.number hp hs, .nil⟩
  | _, _, .string hp => ⟨.string hp, .nil⟩
  | _, _, .bool hp => ⟨.bool hp, .nil⟩
  | _, _, .null hp => ⟨.null hp, .nil⟩
  | _, _, .logical hp hl hr => ⟨.logical hp hl hr, .nil⟩
  | _, _, .unary hp h => ⟨.unary hp h, .nil⟩
  | _, _, .assign hp h => ⟨.assign hp h, .nil⟩
  | _, _, .call hp hf hes => ⟨.call hp hf hes, .nil⟩
  | _, _, .content hp hes => ⟨.content hp hes, .nil⟩

theorem Expr.Alike.logicalSpine : ∀ {e e' : Expr}, e.Alike ℓ e' →
    e.logicalSpine.1.Alike ℓ e'.logicalSpine.1 ∧
      List.Forall₂ (LogicalStep.Alike ℓ) e.logicalSpine.2 e'.logicalSpine.2
  | _, _, .logical _ hl hr =>
    ⟨hl.logicalSpine.1, List.rel_append hl.logicalSpine.2 (.cons ⟨rfl, hr⟩ .nil)⟩
  | _, _, .ident hp => ⟨.ident hp, .nil⟩
  | _, _, .number hp hs => ⟨.number hp hs, .nil⟩
  | _, _, .string hp => ⟨.string hp, .nil⟩
  | _, _, .bool hp => ⟨.bool hp, .nil⟩
  | _, _, .null hp => ⟨.null hp, .nil⟩
  | _, _, .binary hp hl hr => ⟨.binary hp hl hr, .nil⟩
  | _, _, .unary hp h => ⟨.unary hp h, .nil⟩
  | _, _, .assign hp h => ⟨.assign hp h, .nil⟩
  | _, _, .call hp hf hes => ⟨.call hp hf hes, .nil⟩
  | _, _, .content hp hes => ⟨.content hp hes, .nil⟩

end MiniApp
