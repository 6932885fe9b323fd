import MiniApp.Syntax.Basic

/-!
# Equality of syntax trees

Two trees are the same when they agree in structure, names and literal values. Places and the
spelling of numbers do not count, and numbers are compared by value.
-/

namespace MiniApp

mutual

/-- The same expression, wherever it stands. -/
def Expr.same : Expr → Expr → Bool
  | .ident _ a, .ident _ b => a == b
  | .number _ a _, .number _ b _ => a.equal b
  | .string _ a, .string _ b => a == b
  | .bool _ a, .bool _ b => a == b
  | .null _, .null _ => true
  | .binary _ o a b, .binary _ p c d => o == p && a.same c && b.same d
  | .logical _ o a b, .logical _ p c d => o == p && a.same c && b.same d
  | .unary _ o a, .unary _ p b => o == p && a.same b
  | .assign _ x a, .assign _ y b => x == y && a.same b
  | .call _ a as, .call _ b bs => a.same b && Expr.sameList as bs
  | .content _ as, .content _ bs => Expr.sameList as bs
  | _, _ => false

/-- The same expressions one by one. -/
def Expr.sameList : List Expr → List Expr → Bool
  | [], [] => true
  | a :: as, b :: bs => a.same b && Expr.sameList as bs
  | _, _ => false

end

/-- Both absent, or the same expression. -/
def Expr.sameOption : Option Expr → Option Expr → Bool
  | none, none => true
  | some a, some b => a.same b
  | _, _ => false

/-- The same start of a `for` statement. -/
def ForInit.same : ForInit → ForInit → Bool
  | .none, .none => true
  | .declare _ k x a, .declare _ l y b => k == l && x == y && Expr.sameOption a b
  | .expr _ a, .expr _ b => a.same b
  | _, _ => false

mutual

/-- The same statement, wherever it stands. -/
def Stmt.same : Stmt → Stmt → Bool
  | .block a, .block b => a.same b
  | .declare _ k x a, .declare _ l y b => k == l && x == y && Expr.sameOption a b
  | .func _ f ps a, .func _ g qs b => f == g && ps == qs && a.same b
  | .property _ k a, .property _ l b => k == l && Expr.sameOption a b
  | .body _ s as, .body _ t bs => s.same t && Stmt.sameList as bs
  | .ifElse _ s a e, .ifElse _ t b f => s.same t && a.same b && e.same f
  | .while _ s a, .while _ t b => s.same t && a.same b
  | .for _ i s u a, .for _ j t v b =>
    i.same j && Expr.sameOption s t && Expr.sameOption u v && a.same b
  | .return _ a, .return _ b => Expr.sameOption a b
  | .break _, .break _ => true
  | .continue _, .continue _ => true
  | .expr _ a, .expr _ b => a.same b
  | _, _ => false

/-- The same continuation of an `if`. -/
def Else.same : Else → Else → Bool
  | .none, .none => true
  | .block a, .block b => a.same b
  | .elseIf _ s a e, .elseIf _ t b f => s.same t && a.same b && e.same f
  | _, _ => false

/-- The same block. -/
def Block.same : Block → Block → Bool
  | .mk _ as, .mk _ bs => Stmt.sameList as bs

/-- The same statements one by one. -/
def Stmt.sameList : List Stmt → List Stmt → Bool
  | [], [] => true
  | a :: as, b :: bs => a.same b && Stmt.sameList as bs
  | _, _ => false

end

/-- The same program, whatever its layout. -/
def Program.same (p q : Program) : Bool := Stmt.sameList p.body q.body

end MiniApp
