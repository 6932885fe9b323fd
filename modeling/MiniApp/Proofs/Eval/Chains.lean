import MiniApp.Proofs.Eval.Nesting

/-!
# Chains of operators

However many binary or logical operators stand in a row, they are evaluated in one loop along the
left spine of the expression. The loop does what recursion would: evaluate the left operand, and
then, unless that decides a logical operator, the right one.

## Main definitions

* `Run.binaryOf`, `Run.logicalOf`: what an operator makes of the evaluations of its operands
* `Run.recurse`: one level of recursive evaluation
* `Run.recurseLeft`: recursive evaluation of a whole left spine
* `Run.ChainFolds`: an expression is evaluated as recursion says

## Main results

* `Run.evaluate_chain`: all binary and logical expressions are evaluated as recursion says
-/

namespace MiniApp

/-- Whether a logical operator is decided by the value of its left operand. -/
def LogicalOp.decides : LogicalOp → Value → Bool
  | .and, v => !v.isTruthy
  | .or, v => v.isTruthy

namespace Expr

def isBinary : Expr → Bool
  | .binary .. => true
  | _ => false

def isLogical : Expr → Bool
  | .logical .. => true
  | _ => false

end Expr

namespace Run

/-! ## Recursive evaluation -/

/-- A binary operator applied to the values of its operands, the left one first. -/
def binaryOf (pos : Position) (op : BinaryOp) (left right : Run Value) : Run Value := do
  let v ← left
  let w ← right
  ofOperation (Operation.binary pos op v w)

/-- The value of the left operand if that decides the operator, and that of the right one if not. -/
def logicalOf (op : LogicalOp) (left right : Run Value) : Run Value := do
  let v ← left
  if op.decides v then return v else right

/-- One level of recursive evaluation: an operator applied to the evaluations of its operands. -/
def recurse (evaluate : Expr → Run Value) : Expr → Run Value
  | .binary pos op l r => binaryOf pos op (evaluate l) (evaluate r)
  | .logical _ op l r => logicalOf op (evaluate l) (evaluate r)
  | e => evaluate e

/-- Recursive evaluation of a left spine: a left operand of the same kind is evaluated in the same
way, and all others are evaluated as given. -/
def recurseLeft (evaluate : Expr → Run Value) : Expr → Run Value
  | .binary pos op l r =>
    binaryOf pos op (if l.isBinary then recurseLeft evaluate l else evaluate l) (evaluate r)
  | .logical _ op l r =>
    logicalOf op (if l.isLogical then recurseLeft evaluate l else evaluate l) (evaluate r)
  | e => evaluate e

section Folds

variable (evaluate : Expr → Run Value)

theorem foldBinary_append (v : Value) (ss ts : List BinaryStep) :
    foldBinary evaluate v (ss ++ ts) =
      foldBinary evaluate v ss >>= fun w => foldBinary evaluate w ts := by
  induction ss generalizing v with
  | nil => rfl
  | cons s ss ih => simp only [List.cons_append, foldBinary, bind_assoc, ih]

theorem foldLogical_cons (v : Value) (s : LogicalStep) (ss : List LogicalStep) :
    foldLogical evaluate v (s :: ss) =
      if s.op.decides v then foldLogical evaluate v ss
      else evaluate s.right >>= fun w => foldLogical evaluate w ss := by
  rw [foldLogical]
  cases s.op <;> rfl

theorem foldLogical_append (v : Value) (ss ts : List LogicalStep) :
    foldLogical evaluate v (ss ++ ts) =
      foldLogical evaluate v ss >>= fun w => foldLogical evaluate w ts := by
  induction ss generalizing v with
  | nil => rfl
  | cons s ss ih =>
    rw [List.cons_append, foldLogical_cons, foldLogical_cons]
    by_cases hdecided : s.op.decides v
    · rw [if_pos hdecided, if_pos hdecided, ih]
    · rw [if_neg hdecided, if_neg hdecided, bind_assoc]
      simp only [ih]

theorem foldBinary_singleton (v : Value) (s : BinaryStep) :
    foldBinary evaluate v [s] =
      (do
        let w ← evaluate s.right
        ofOperation (Operation.binary s.pos s.op v w)) := by
  simp only [foldBinary, bind_pure]

theorem foldLogical_singleton (v : Value) (s : LogicalStep) :
    foldLogical evaluate v [s] = if s.op.decides v then return v else evaluate s.right := by
  rw [foldLogical_cons]
  simp only [foldLogical, bind_pure]

/-- Folding along the spine of a binary expression is recursion along it. -/
theorem foldBinary_binarySpine : ∀ e : Expr,
    (do let v ← evaluate e.binarySpine.1; foldBinary evaluate v e.binarySpine.2) =
      if e.isBinary then recurseLeft evaluate e else evaluate e
  | .binary pos op l r => by
    rw [Expr.isBinary, if_pos rfl, recurseLeft, binaryOf, ← foldBinary_binarySpine l, bind_assoc]
    simp only [Expr.binarySpine, foldBinary_append, foldBinary_singleton]
  | .ident .. | .number .. | .string .. | .bool .. | .null .. | .logical .. | .unary ..
  | .assign .. | .call .. | .content .. => bind_pure _

/-- Folding along the spine of a logical expression is recursion along it. -/
theorem foldLogical_logicalSpine : ∀ e : Expr,
    (do let v ← evaluate e.logicalSpine.1; foldLogical evaluate v e.logicalSpine.2) =
      if e.isLogical then recurseLeft evaluate e else evaluate e
  | .logical pos op l r => by
    rw [Expr.isLogical, if_pos rfl, recurseLeft, logicalOf, ← foldLogical_logicalSpine l,
      bind_assoc]
    simp only [Expr.logicalSpine, foldLogical_append, foldLogical_singleton]
  | .ident .. | .number .. | .string .. | .bool .. | .null .. | .binary .. | .unary ..
  | .assign .. | .call .. | .content .. => bind_pure _

end Folds

/-! ## Chains in the evaluator -/

/-- The loop along the left spine is recursion along it; the other operands are one level deeper. -/
theorem evaluate_succ (cx : Context) (allowance scope : Nat) {e : Expr}
    (he : e.isBinary ∨ e.isLogical) :
    evaluate cx (allowance + 1) scope e =
      (do
        visit cx scope (.expr e)
        recurseLeft (evaluate cx allowance scope) e) := by
  cases e with
  | binary pos op l r =>
    rw [evaluate]
    dsimp only
    rw [foldBinary_binarySpine]
    rfl
  | logical pos op l r =>
    rw [evaluate]
    dsimp only
    rw [foldLogical_logicalSpine]
    rfl
  | _ => simp [Expr.isBinary, Expr.isLogical] at he

/-- An expression is evaluated as recursion says. With the same operands the loop and recursion
along the left spine are one action. Recursion at every level spends more of the allowance than the
loop does, and the recursive evaluator would come to more nodes; so, with nodes not recorded,
evaluation and one level of recursion do the same wherever the one that spends more is not nested
too deeply. -/
structure ChainFolds (cx : Context) (allowance scope : Nat) (e : Expr) : Prop where
  loop : evaluate cx (allowance + 1) scope e =
    (do
      visit cx scope (.expr e)
      recurseLeft (evaluate cx allowance scope) e)
  unfolds : let plain := evaluate { cx with recording := false }
    (plain allowance scope e).Deepens (recurse (plain allowance scope) e)
  folds : let plain := evaluate { cx with recording := false }
    (recurse (plain allowance scope) e).Deepens (plain (allowance + 1) scope e)

section Unrecorded

variable {cx : Context} (hquiet : ¬ cx.recording) (allowance scope : Nat) {e : Expr}
include hquiet

theorem evaluate_succ_unrecorded (he : e.isBinary ∨ e.isLogical) :
    evaluate cx (allowance + 1) scope e = recurseLeft (evaluate cx allowance scope) e := by
  have hvisit : visit cx scope (.expr e) = pure () := by
    funext s
    change EStateM.Result.ok () (if cx.recording then _ else s) = .ok () s
    rw [if_neg hquiet]
  rw [evaluate_succ cx allowance scope he, hvisit]
  rfl

variable {kind : Expr → Bool} (hkind : ∀ l, kind l → l.isBinary ∨ l.isLogical) (l : Expr)
include hkind

/-- Recursion into a left operand goes no deeper than evaluating it with one more level allowed. -/
theorem recurseLeft_deepens :
    (if kind l then recurseLeft (evaluate cx allowance scope) l
      else evaluate cx allowance scope l).Deepens (evaluate cx (allowance + 1) scope l) := by
  by_cases hl : kind l
  · rw [if_pos hl, evaluate_succ_unrecorded hquiet allowance scope (hkind l hl)]
    exact .refl _
  · rw [if_neg hl]
    exact evaluate_deepens cx allowance.le_succ scope l

theorem deepens_recurseLeft :
    (evaluate cx allowance scope l).Deepens
      (if kind l then recurseLeft (evaluate cx allowance scope) l
        else evaluate cx allowance scope l) := by
  by_cases hl : kind l
  · rw [if_pos hl, ← evaluate_succ_unrecorded hquiet allowance scope (hkind l hl)]
    exact evaluate_deepens cx allowance.le_succ scope l
  · rw [if_neg hl]
    exact .refl _

end Unrecorded

/-- It is enough that the operator itself deepens with its operands. -/
theorem chainFolds_of {kind : Expr → Bool} (hkind : ∀ l, kind l → l.isBinary ∨ l.isLogical)
    {e l r : Expr} (he : e.isBinary ∨ e.isLogical) {apply : Run Value → Run Value → Run Value}
    (hrecurse : ∀ evaluate, recurse evaluate e = apply (evaluate l) (evaluate r))
    (hrecurseLeft : ∀ evaluate, recurseLeft evaluate e =
      apply (if kind l then recurseLeft evaluate l else evaluate l) (evaluate r))
    (happly : ∀ {x x' y y'}, Deepens x x' → Deepens y y' → (apply x y).Deepens (apply x' y'))
    (cx : Context) (allowance scope : Nat) : ChainFolds cx allowance scope e := by
  have hquiet : ¬ ({ cx with recording := false } : Context).recording := Bool.false_ne_true
  refine ⟨evaluate_succ cx allowance scope he, ?_, ?_⟩
  · cases allowance with
    | zero =>
      -- without an allowance everything is nested too deeply
      intro plain s
      refine .inl ⟨s, ?_⟩
      change evaluate _ 0 scope e s = _
      rw [evaluate.eq_def]
      rfl
    | succ n =>
      dsimp only
      rw [evaluate_succ_unrecorded hquiet n scope he, hrecurse, hrecurseLeft]
      exact happly (recurseLeft_deepens hquiet n scope hkind l)
        (evaluate_deepens _ n.le_succ scope r)
  · dsimp only
    rw [evaluate_succ_unrecorded hquiet allowance scope he, hrecurse, hrecurseLeft]
    exact happly (deepens_recurseLeft hquiet allowance scope hkind l) (.refl _)

section Operators

variable {x x' y y' : Run Value}

theorem binaryOf_deepens (pos : Position) (op : BinaryOp) (hx : x.Deepens x')
    (hy : y.Deepens y') : (binaryOf pos op x y).Deepens (binaryOf pos op x' y') :=
  hx.bind fun _ => hy.bind fun _ => .refl _

theorem logicalOf_deepens (op : LogicalOp) (hx : x.Deepens x') (hy : y.Deepens y') :
    (logicalOf op x y).Deepens (logicalOf op x' y') := by
  refine hx.bind fun v => ?_
  -- the right operands are asked only where the left one does not decide
  by_cases hdecided : op.decides v
  · rw [if_pos hdecided, if_pos hdecided]
    exact .refl _
  · rw [if_neg hdecided, if_neg hdecided]
    exact hy

end Operators

/-- All binary and logical expressions are evaluated as recursion says: in every scope and session
the loop along the left spine gives the same value or failure and leaves the same session as
evaluating the left operand, and then, unless that decides a logical operator, the right one. -/
theorem evaluate_chain (cx : Context) (allowance scope : Nat) (pos : Position) (l r : Expr) :
    (∀ op : BinaryOp, ChainFolds cx allowance scope (.binary pos op l r)) ∧
      ∀ op : LogicalOp, ChainFolds cx allowance scope (.logical pos op l r) := by
  constructor
  · intro op
    exact chainFolds_of (fun _ => .inl) (.inl rfl) (fun _ => rfl) (fun _ => rfl)
      (binaryOf_deepens pos op) cx allowance scope
  · intro op
    exact chainFolds_of (fun _ => .inr) (.inr rfl) (fun _ => rfl) (fun _ => rfl)
      (logicalOf_deepens op) cx allowance scope

end Run

end MiniApp
