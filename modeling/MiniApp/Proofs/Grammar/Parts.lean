import MiniApp.Proofs.Eval.Scoping
import MiniApp.Proofs.Grammar.Decision

/-!
# Parts of derived trees

The grammar derives a statement from derived statements, and nothing is put between them in the tree:
whatever statement occurs in a derived program is derived itself, from some of its tokens. So the
side conditions of the grammar hold for every statement of a program that was parsed, at any depth.

## Main definitions

* `Node.Derived`: programs and statements that some tokens derive

## Main results

* `Node.Derived.part`: the statements directly below a derived node are derived
* `Occurs.derived`: the statements of a program that was parsed
-/

namespace MiniApp

open Grammar

namespace Node

variable {layers further : List Layer} {ss : List Stmt} {s : Stmt} {es : List Expr}

theorem stmt_mem_stmtsIn : (further, .stmt s) ∈ stmtsIn layers ss ↔ further = layers ∧ s ∈ ss := by
  simp

theorem stmt_not_mem_exprsIn : (further, .stmt s) ∉ exprsIn layers es := by simp

end Node

namespace Grammar

variable {ts : List Token} {ss : List Stmt} {s : Stmt}

/-- A statement that some tokens derive. -/
def Derivable (s : Stmt) : Prop := ∃ ts, DerivesStmt ts s

theorem DerivesStmts.derivable (h : DerivesStmts ts ss) : ∀ s ∈ ss, Derivable s := by
  induction ss generalizing ts with
  | nil => exact fun _ hs => absurd hs List.not_mem_nil
  | cons s ss ih =>
    cases h with
    | cons hs hss => exact List.forall_mem_cons.mpr ⟨⟨_, hs⟩, ih hss⟩

theorem DerivesBlock.derivable {b : Block} (h : DerivesBlock ts b) : Derivable (.block b) :=
  ⟨ts, .block h⟩

theorem DerivesBlock.body_derivable {b : Block} (h : DerivesBlock ts b) :
    ∀ s ∈ b.body, Derivable s := by
  cases h with
  | mk _ hs _ => exact hs.derivable

theorem DerivesElse.derivable {rest : Else} (h : DerivesElse ts rest) :
    ∀ s ∈ rest.stmts, Derivable s := by
  cases h with
  | none => exact fun _ hs => absurd hs List.not_mem_nil
  | block _ hb => exact List.forall_mem_singleton.mpr hb.derivable
  -- the second `if` begins with its own keyword, the `else` before it is dropped
  | elseIf _ hi htest hb hrest =>
    exact List.forall_mem_singleton.mpr ⟨_, .ifElse hi htest hb hrest⟩

theorem DerivesInit.derivable {init : ForInit} (h : DerivesInit ts init) :
    ∀ s ∈ init.stmts, Derivable s := by
  cases h with
  | none => exact fun _ hs => absurd hs List.not_mem_nil
  | declare hd => exact List.forall_mem_singleton.mpr ⟨_, .declare hd⟩
  | expr he hs => exact List.forall_mem_singleton.mpr ⟨_, .expr he hs⟩

/-- The statements directly below a derived statement are derived. -/
theorem DerivesStmt.derivable_parts (h : DerivesStmt ts s) {layers : List Layer} {t : Stmt}
    (ht : (layers, .stmt t) ∈ Node.partsOfStmt s) : Derivable t := by
  simp only [Node.partsOfStmt] at ht
  cases h with
  | body _ _ _ _ _ _ _ hs _ _ _ _ =>
    have ht := (List.mem_append.mp ht).resolve_left (by simp)
    exact hs.derivable t (Node.stmt_mem_stmtsIn.mp ht).2
  | func _ _ _ hb => exact hb.body_derivable t (Node.stmt_mem_stmtsIn.mp ht).2
  | block hb => exact hb.body_derivable t (Node.stmt_mem_stmtsIn.mp ht).2
  | ifElse _ _ hb hrest =>
    have ht := (List.mem_append.mp ht).resolve_left (by simp)
    rcases List.mem_cons.mp (Node.stmt_mem_stmtsIn.mp ht).2 with rfl | ht
    · exact hb.derivable
    · exact hrest.derivable t ht
  | «while» _ _ hb =>
    have ht := (List.mem_append.mp ht).resolve_left (by simp)
    obtain rfl := List.mem_singleton.mp (Node.stmt_mem_stmtsIn.mp ht).2
    exact hb.derivable
  | «for» _ _ hinit _ _ _ _ hb =>
    -- the two clauses between the first one and the block are expressions
    simp only [List.mem_append, Node.stmt_mem_stmtsIn, Node.stmt_not_mem_exprsIn, or_false] at ht
    rcases ht with ⟨-, ht⟩ | ⟨-, ht⟩
    · exact hinit.derivable t ht
    · obtain rfl := List.mem_singleton.mp ht
      exact hb.derivable
  | _ => simp at ht

end Grammar

/-- Programs and statements that some tokens derive. -/
def Node.Derived : Node → Prop
  | .program p => ∃ tokens, DerivesProgram tokens p
  | .stmt s => Derivable s
  | .expr _ => True

theorem Node.Derived.part {n k : Node} {layers : List Layer} (h : n.Derived)
    (hk : (layers, k) ∈ n.parts) : k.Derived := by
  cases k with
  | program p => exact absurd hk program_not_mem_parts
  | expr e => trivial
  | stmt t =>
    cases n with
    | program p =>
      obtain ⟨tokens, ⟨hs, _, _⟩⟩ := h
      obtain ⟨-, _, ht, heq⟩ := mem_stmtsIn.mp hk
      obtain rfl := Node.stmt.inj heq
      exact hs.derivable t ht
    | stmt s =>
      obtain ⟨ts, hs⟩ := h
      exact hs.derivable_parts hk
    | expr e => simp [parts] at hk

theorem Node.Below.derived {n m : Node} {layers : List Layer} (h : n.Below layers m)
    (hn : n.Derived) : m.Derived := by
  induction h with
  | self => exact hn
  | part _ hk ih => exact ih.part hk

/-- Whatever statement occurs in a program that was parsed is derived. -/
theorem Occurs.derived {allowance : Nat} {path source : String} {p : Program}
    (hparse : Program.parseWithin allowance path source = .ok p) {layers : List Layer} {s : Stmt}
    (h : Occurs p layers (.stmt s)) : Derivable s := by
  obtain ⟨tokens, hscan, hparse⟩ := Program.exists_tokens_of_parseWithin hparse
  have hderives := Program.derives_of_parseTokensWithin (Token.scanned_scan hscan) hparse
  obtain ⟨_, hbelow, _⟩ := h
  exact hbelow.derived (n := .program p) ⟨tokens, hderives⟩

end MiniApp
