import Mathlib.Data.List.Forall2
import MiniApp.Eval.Session

/-!
# Lexical scopes

Where names may be declared is a matter of the syntax tree alone. Every node of a program lies in a
list of *layers*, innermost first: blocks, functions, loops with clauses, the contents of body
sections, then the program and the builtin functions. A layer declares the names that are declared
directly in it, and no others.

## Main definitions

* `Layer`, `Layer.declares`: a lexical scope and the names it declares
* `Visit.Scoped`: a visit that finds one frame for every layer
* `Node.parts`: the nodes directly below a node, each with the layers that it lies in beyond those
  of the node
* `Node.Below`: the nodes at or below a node
* `Occurs`: the nodes of a program, with their layers

## Main results

* `Occurs.declares`: what a statement of a program declares is declared by the innermost layer
-/

namespace MiniApp

/-- The name that a statement declares, if it declares one. -/
def Stmt.declared : Stmt → List String
  | .declare _ _ name _ | .func _ name _ _ => [name]
  | _ => []

/-- What a `for` starts with, as statements. -/
def ForInit.stmts : ForInit → List Stmt
  | .none => []
  | .declare pos kind name init => [.declare pos kind name init]
  | .expr pos e => [.expr pos e]

/-- What follows the block of an `if`, as statements. -/
def Else.stmts : Else → List Stmt
  | .none => []
  | .block b => [.block b]
  | .elseIf pos test b rest => [.ifElse pos test b rest]

/-- A lexical scope. The parameters of a function and the statements of its body share one; that of
a `for` covers its clauses and its block, which has another one of its own. -/
inductive Layer where
  | builtins
  | program (body : List Stmt)
  | func (parameters : List String) (body : List Stmt)
  | block (body : List Stmt)
  | loop (init : ForInit)
  | content (body : List Stmt)

/-- The names that a layer declares directly. -/
def Layer.declares : Layer → List String
  | .builtins => ["print", "len"]
  | .func parameters body => parameters ++ body.flatMap Stmt.declared
  | .program body | .block body | .content body => body.flatMap Stmt.declared
  | .loop init => init.stmts.flatMap Stmt.declared

/-- The innermost of some layers declares a name. -/
def Layer.DeclaredIn (layers : List Layer) (name : String) : Prop :=
  ∃ l ∈ layers.head?, name ∈ l.declares

/-- A frame that binds only names which a layer declares. -/
def Frame.Within {α : Type} (f : Frame α) (l : Layer) : Prop := ∀ x ∈ f.names, x ∈ l.declares

/-- A visit whose chain of frames has one frame for each of some layers, innermost first, and in each
frame only names which its layer declares. -/
def Visit.Scoped (layers : List Layer) (v : Visit) : Prop :=
  ∃ frames, v.arena.chain? v.scope = some frames ∧ List.Forall₂ Frame.Within frames layers

/-- The expressions directly below an expression. -/
def Expr.operands : Expr → List Expr
  | .binary _ _ l r | .logical _ _ l r => [l, r]
  | .unary _ _ e | .assign _ _ e => [e]
  | .call _ f es => f :: es
  | .content _ es => es
  | _ => []

namespace Node

/-- Statements in further layers. -/
def stmtsIn (layers : List Layer) (ss : List Stmt) : List (List Layer × Node) :=
  ss.map fun s => (layers, .stmt s)

/-- Expressions in further layers. -/
def exprsIn (layers : List Layer) (es : List Expr) : List (List Layer × Node) :=
  es.map fun e => (layers, .expr e)

/-- The nodes directly below a statement, in the order of the text. -/
def partsOfStmt : Stmt → List (List Layer × Node)
  | .block b => stmtsIn [.block b.body] b.body
  | .declare _ _ _ e | .property _ _ e | .return _ e => exprsIn [] e.toList
  | .func _ _ parameters b => stmtsIn [.func parameters b.body] b.body
  | .body _ style content => exprsIn [] [style] ++ stmtsIn [.content content] content
  | .ifElse _ test b rest => exprsIn [] [test] ++ stmtsIn [] (.block b :: rest.stmts)
  | .while _ test b => exprsIn [] [test] ++ stmtsIn [] [.block b]
  | .for _ init test update b =>
    stmtsIn [.loop init] init.stmts ++ exprsIn [.loop init] test.toList ++
      exprsIn [.loop init] update.toList ++ stmtsIn [.loop init] [.block b]
  | .break _ | .continue _ => []
  | .expr _ e => exprsIn [] [e]

/-- The nodes directly below a node, in the order of the text, each with the layers that it lies in
beyond those of the node. -/
def parts : Node → List (List Layer × Node)
  | .program p => stmtsIn [] p.body
  | .stmt s => partsOfStmt s
  | .expr e => exprsIn [] e.operands

/-- `n.Below layers m`: the node `m` is `n`, or lies below it in further layers. -/
inductive Below (n : Node) : List Layer → Node → Prop
  | self : Below n [] n
  | part {layers further : List Layer} {m k : Node} :
      Below n layers m → (further, k) ∈ m.parts → Below n (further ++ layers) k

@[simp]
theorem mem_stmtsIn {layers further : List Layer} {ss : List Stmt} {n : Node} :
    (further, n) ∈ stmtsIn layers ss ↔ further = layers ∧ ∃ s ∈ ss, n = .stmt s := by
  simp only [stmtsIn, List.mem_map, Prod.mk.injEq]
  constructor
  · rintro ⟨s, hs, rfl, rfl⟩
    exact ⟨rfl, s, hs, rfl⟩
  · rintro ⟨rfl, s, hs, rfl⟩
    exact ⟨s, hs, rfl, rfl⟩

@[simp]
theorem mem_exprsIn {layers further : List Layer} {es : List Expr} {n : Node} :
    (further, n) ∈ exprsIn layers es ↔ further = layers ∧ ∃ e ∈ es, n = .expr e := by
  simp only [exprsIn, List.mem_map, Prod.mk.injEq]
  constructor
  · rintro ⟨e, he, rfl, rfl⟩
    exact ⟨rfl, e, he, rfl⟩
  · rintro ⟨rfl, e, he, rfl⟩
    exact ⟨e, he, rfl, rfl⟩

/-- No program lies below a node. -/
theorem program_not_mem_parts {n : Node} {layers : List Layer} {p : Program} :
    (layers, .program p) ∉ n.parts := by
  cases n with
  | program q => simp [parts]
  | expr e => simp [parts]
  | stmt s => cases s <;> simp [parts, partsOfStmt]

/-- A statement directly below another one that declares a name lies in a layer of its own, and that
layer declares the name. -/
theorem declares_of_mem_partsOfStmt {s t : Stmt} {layers : List Layer} {name : String}
    (h : (layers, .stmt s) ∈ partsOfStmt t) (hname : name ∈ s.declared) :
    ∃ l : Layer, layers = [l] ∧ name ∈ l.declares := by
  cases t with
  | block b =>
    obtain ⟨rfl, hs⟩ : layers = _ ∧ s ∈ b.body := by simpa [partsOfStmt] using h
    exact ⟨_, rfl, List.mem_flatMap.mpr ⟨s, hs, hname⟩⟩
  | func pos name parameters b =>
    obtain ⟨rfl, hs⟩ : layers = _ ∧ s ∈ b.body := by simpa [partsOfStmt] using h
    exact ⟨_, rfl, List.mem_append_right _ (List.mem_flatMap.mpr ⟨s, hs, hname⟩)⟩
  | body pos style content =>
    obtain ⟨rfl, hs⟩ : layers = _ ∧ s ∈ content := by simpa [partsOfStmt] using h
    exact ⟨_, rfl, List.mem_flatMap.mpr ⟨s, hs, hname⟩⟩
  | «for» pos init test update b =>
    have hs : (layers = [.loop init] ∧ s ∈ init.stmts) ∨ layers = [.loop init] ∧ s = .block b := by
      simpa [partsOfStmt] using h
    rcases hs with ⟨rfl, hs⟩ | ⟨-, rfl⟩
    · exact ⟨_, rfl, List.mem_flatMap.mpr ⟨s, hs, hname⟩⟩
    · cases hname
  | ifElse pos test b rest =>
    -- neither a block nor another `if` declares anything
    have hs : s = .block b ∨ s ∈ rest.stmts := by
      have h : layers = [] ∧ (s = .block b ∨ s ∈ rest.stmts) := by simpa [partsOfStmt] using h
      exact h.2
    rcases hs with rfl | hs
    · cases hname
    · cases rest with
      | none => cases hs
      | block b =>
        obtain rfl := List.mem_singleton.mp hs
        cases hname
      | elseIf pos test b rest =>
        obtain rfl := List.mem_singleton.mp hs
        cases hname
  | «while» pos test b =>
    obtain ⟨-, rfl⟩ : layers = [] ∧ s = .block b := by simpa [partsOfStmt] using h
    cases hname
  | declare | property | «return» | «break» | «continue» | expr => simp [partsOfStmt] at h

end Node

/-- The layers of a program's own statements. -/
def Program.layers (p : Program) : List Layer := [.program p.body, .builtins]

/-- `Occurs p layers n`: the program contains the node in the given layers. -/
def Occurs (p : Program) (layers : List Layer) (n : Node) : Prop :=
  ∃ further, (Node.program p).Below further n ∧ layers = further ++ p.layers

namespace Occurs

variable {p : Program} {layers further : List Layer} {n m : Node}

theorem root : Occurs p p.layers (.program p) := ⟨[], .self, rfl⟩

theorem part (h : Occurs p layers n) (hm : (further, m) ∈ n.parts) :
    Occurs p (further ++ layers) m := by
  obtain ⟨above, hbelow, rfl⟩ := h
  exact ⟨further ++ above, .part hbelow hm, (List.append_assoc ..).symm⟩

/-- What a statement of a program declares is declared by the innermost layer. -/
theorem declares {s : Stmt} {name : String} (h : Occurs p layers (.stmt s))
    (hname : name ∈ s.declared) : Layer.DeclaredIn layers name := by
  obtain ⟨above, hbelow, rfl⟩ := h
  generalize hn : Node.stmt s = n at hbelow
  cases hbelow with
  | self => cases hn
  | @part above further m k hbelow hm =>
    subst hn
    cases m with
    | program q =>
      -- only the root is a program, so the statement is one of the program's own
      cases hbelow with
      | part _ hq => exact absurd hq Node.program_not_mem_parts
      | self =>
        obtain ⟨rfl, hs⟩ : further = [] ∧ s ∈ p.body := by simpa [Node.parts] using hm
        exact ⟨_, rfl, List.mem_flatMap.mpr ⟨s, hs, hname⟩⟩
    | expr e => simp [Node.parts] at hm
    | stmt t =>
      obtain ⟨l, rfl, hl⟩ := Node.declares_of_mem_partsOfStmt hm hname
      exact ⟨l, rfl, hl⟩

end Occurs

/-- What is known of a node in its layers is known of its parts, and of the names it declares. -/
structure KnowsParts (known : List Layer → Node → Prop) : Prop where
  part {layers further : List Layer} {n m : Node} :
    known layers n → (further, m) ∈ n.parts → known (further ++ layers) m
  declares {layers : List Layer} {s : Stmt} {name : String} :
    known layers (.stmt s) → name ∈ s.declared → Layer.DeclaredIn layers name

namespace KnowsParts

variable {known : List Layer → Node → Prop} (h : KnowsParts known)
variable {layers further : List Layer} {n : Node}
include h

/-- What is known of a node is known of the statements among its parts. -/
theorem stmt {ss : List Stmt} {s : Stmt} (hn : known layers n)
    (hparts : Node.stmtsIn further ss ⊆ n.parts) (hs : s ∈ ss) :
    known (further ++ layers) (.stmt s) :=
  h.part hn (hparts (Node.mem_stmtsIn.mpr ⟨rfl, s, hs, rfl⟩))

/-- What is known of a node is known of the expressions among its parts. -/
theorem expr {es : List Expr} {e : Expr} (hn : known layers n)
    (hparts : Node.exprsIn further es ⊆ n.parts) (he : e ∈ es) :
    known (further ++ layers) (.expr e) :=
  h.part hn (hparts (Node.mem_exprsIn.mpr ⟨rfl, e, he, rfl⟩))

/-- The operands of a known expression are known in the same layers. -/
theorem operand {c d : Expr} (hc : known layers (.expr c)) (hd : d ∈ c.operands) :
    known layers (.expr d) :=
  h.expr hc (List.Subset.refl _) hd

/-- An expression that a statement may leave out is known if it is there. -/
theorem optional {s : Stmt} {c : Option Expr} {e : Expr} (hs : known layers (.stmt s))
    (hparts : (Node.stmt s).parts = Node.exprsIn [] c.toList) (he : e ∈ c) :
    known layers (.expr e) :=
  h.expr hs (fun _ hm => hparts ▸ hm) (Option.mem_toList.mpr he)

end KnowsParts

theorem Occurs.knowsParts (p : Program) : KnowsParts (Occurs p) := ⟨part, declares⟩

end MiniApp
