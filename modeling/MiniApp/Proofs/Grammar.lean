import MiniApp.Syntax.Basic
import MiniApp.Token.Basic

/-!
# The grammar

Which token lists derive which trees, stated rule by rule and without a parser. Expressions are
stratified: a level is made of operands of the next tighter level, operators of one level associate
to the left, and assignment, the loosest level, to the right. Every node of a derived tree carries
its place: a compound expression stands where its left part stands, anything else where its first
token stands.

What is not context free is a side condition of the rule it belongs to: the number of arguments of a
property, the value of a constant, distinct parameters, a name as the target of an assignment, and
no body section directly inside another one.

## Main definitions

* `Grammar.Level`, `Grammar.Joins`: the levels of expressions and the operators of each level
* `Grammar.DerivesExpr`, `Grammar.DerivesArgs`: expressions and argument lists
* `Grammar.DerivesStmt`, `Grammar.DerivesStmts`, `Grammar.DerivesBlock`: statements
* `Grammar.DerivesProgram`: token lists, the end marker included, and programs
-/

namespace MiniApp

/-- Body sections. -/
def Stmt.isBody : Stmt → Bool
  | .body .. => true
  | _ => false

namespace Grammar

/-! ## Expressions -/

/-- The levels of expressions, from the loosest to the tightest. -/
inductive Level where
  | assignment | disjunction | conjunction | equality | order | sum | product | unary | call
  | primary
  deriving DecidableEq, Repr

/-- The next tighter level. -/
def Level.next? : Level → Option Level
  | .assignment => some .disjunction
  | .disjunction => some .conjunction
  | .conjunction => some .equality
  | .equality => some .order
  | .order => some .sum
  | .sum => some .product
  | .product => some .unary
  | .unary => some .call
  | .call => some .primary
  | .primary => none

/-- The operators of each level that stand between two operands, with the nodes they make. -/
inductive Joins : Level → TokenKind → (Position → Expr → Expr → Expr) → Prop
  | or : Joins .disjunction .or (.logical · .or)
  | and : Joins .conjunction .and (.logical · .and)
  | eq : Joins .equality .eq (.binary · .eq)
  | ne : Joins .equality .ne (.binary · .ne)
  | lt : Joins .order .lt (.binary · .lt)
  | gt : Joins .order .gt (.binary · .gt)
  | le : Joins .order .le (.binary · .le)
  | ge : Joins .order .ge (.binary · .ge)
  | add : Joins .sum .plus (.binary · .add)
  | sub : Joins .sum .minus (.binary · .sub)
  | mul : Joins .product .star (.binary · .mul)
  | div : Joins .product .slash (.binary · .div)
  | mod : Joins .product .percent (.binary · .mod)

/-- The operators that stand before their operand. -/
inductive Leads : TokenKind → UnaryOp → Prop
  | not : Leads .not .not
  | minus : Leads .minus .minus

mutual

/-- `DerivesExpr ℓ ts e`: the tokens `ts` derive `e` at level `ℓ`. -/
inductive DerivesExpr : Level → List Token → Expr → Prop
  | tighter {ℓ m : Level} {ts : List Token} {e : Expr} :
      ℓ.next? = some m → DerivesExpr m ts e → DerivesExpr ℓ ts e
  | assign {o : Token} {ts us : List Token} {pos : Position} {name : String} {e : Expr} :
      DerivesExpr .disjunction ts (.ident pos name) → o.kind = .assign →
      DerivesExpr .assignment us e → DerivesExpr .assignment (ts ++ o :: us) (.assign pos name e)
  | joined {ℓ m : Level} {o : Token} {join : Position → Expr → Expr → Expr}
      {ts us : List Token} {l r : Expr} :
      ℓ.next? = some m → Joins ℓ o.kind join → DerivesExpr ℓ ts l → DerivesExpr m us r →
      DerivesExpr ℓ (ts ++ o :: us) (join l.pos l r)
  | led {o : Token} {op : UnaryOp} {ts : List Token} {e : Expr} :
      Leads o.kind op → DerivesExpr .unary ts e → DerivesExpr .unary (o :: ts) (.unary o.pos op e)
  | call {ts us : List Token} {f : Expr} {es : List Expr} :
      DerivesExpr .call ts f → DerivesArgs us es → DerivesExpr .call (ts ++ us) (.call f.pos f es)
  | number {t : Token} {n : Number} :
      t.kind = .number → Number.read t.text = .ok n →
      DerivesExpr .primary [t] (.number t.pos n t.text)
  | string {t : Token} : t.kind = .string → DerivesExpr .primary [t] (.string t.pos t.text)
  | bool {t : Token} :
      t.kind = .boolean → DerivesExpr .primary [t] (.bool t.pos (t.text == "true"))
  | null {t : Token} : t.kind = .null → DerivesExpr .primary [t] (.null t.pos)
  | ident {t : Token} : t.kind = .identifier → DerivesExpr .primary [t] (.ident t.pos t.text)
  | parens {o c : Token} {ts : List Token} {e : Expr} :
      o.kind = .lparen → DerivesExpr .assignment ts e → c.kind = .rparen →
      DerivesExpr .primary (o :: ts ++ [c]) e
  | content {t : Token} {ts : List Token} {es : List Expr} :
      t.kind = .call → DerivesArgs ts es → DerivesExpr .primary (t :: ts) (.content t.pos es)

/-- Arguments between parentheses. -/
inductive DerivesArgs : List Token → List Expr → Prop
  | none {o c : Token} : o.kind = .lparen → c.kind = .rparen → DerivesArgs [o, c] []
  | some {o c : Token} {ts : List Token} {es : List Expr} :
      o.kind = .lparen → DerivesList ts es → c.kind = .rparen → DerivesArgs (o :: ts ++ [c]) es

/-- One or more expressions with commas between them. -/
inductive DerivesList : List Token → List Expr → Prop
  | one {ts : List Token} {e : Expr} : DerivesExpr .assignment ts e → DerivesList ts [e]
  | more {o : Token} {ts us : List Token} {e : Expr} {es : List Expr} :
      DerivesExpr .assignment ts e → o.kind = .comma → DerivesList us es →
      DerivesList (ts ++ o :: us) (e :: es)

end

/-- An expression that may be missing. -/
inductive DerivesOption : List Token → Option Expr → Prop
  | none : DerivesOption [] none
  | some {ts : List Token} {e : Expr} :
      DerivesExpr .assignment ts e → DerivesOption ts (some e)

/-! ## Statements -/

/-- The keyword of each property. -/
inductive Declares : TokenKind → Property → Prop
  | appName : Declares .nameAppMini .appName
  | webPackage : Declares .webPackageMini .webPackage
  | webVersion : Declares .webMiniVersion .webVersion
  | miniVersion : Declares .miniVersion .miniVersion
  | appIcon : Declares .miniAppIcon .appIcon

/-- The keyword of each way to declare a name. -/
inductive Binds : TokenKind → DeclarationKind → Prop
  | let : Binds .let .let
  | const : Binds .const .const

/-- The style of a body section: a string or a name. -/
inductive DerivesStyle : Token → Expr → Prop
  | string {t : Token} : t.kind = .string → DerivesStyle t (.string t.pos t.text)
  | ident {t : Token} : t.kind = .identifier → DerivesStyle t (.ident t.pos t.text)

/-- One or more names with commas between them. -/
inductive DerivesNames : List Token → List String → Prop
  | one {t : Token} : t.kind = .identifier → DerivesNames [t] [t.text]
  | more {t o : Token} {ts : List Token} {names : List String} :
      t.kind = .identifier → o.kind = .comma → DerivesNames ts names →
      DerivesNames (t :: o :: ts) (t.text :: names)

/-- Parameters between parentheses: distinct names. -/
inductive DerivesParams : List Token → List String → Prop
  | none {o c : Token} : o.kind = .lparen → c.kind = .rparen → DerivesParams [o, c] []
  | some {o c : Token} {ts : List Token} {names : List String} :
      o.kind = .lparen → DerivesNames ts names → names.Nodup → c.kind = .rparen →
      DerivesParams (o :: ts ++ [c]) names

/-- A declaration with its semicolon. A constant has a value. -/
inductive DerivesDecl : List Token → Position → DeclarationKind → String → Option Expr → Prop
  | plain {k t s : Token} :
      Binds k.kind .let → t.kind = .identifier → s.kind = .semicolon →
      DerivesDecl [k, t, s] k.pos .let t.text none
  | init {k t o s : Token} {kind : DeclarationKind} {ts : List Token} {e : Expr} :
      Binds k.kind kind → t.kind = .identifier → o.kind = .assign →
      DerivesExpr .assignment ts e → s.kind = .semicolon →
      DerivesDecl (k :: t :: o :: ts ++ [s]) k.pos kind t.text (some e)

/-- An expression between parentheses. -/
inductive DerivesTest : List Token → Expr → Prop
  | mk {o c : Token} {ts : List Token} {e : Expr} :
      o.kind = .lparen → DerivesExpr .assignment ts e → c.kind = .rparen →
      DerivesTest (o :: ts ++ [c]) e

/-- What a `for` statement starts with, its semicolon included. -/
inductive DerivesInit : List Token → ForInit → Prop
  | none {s : Token} : s.kind = .semicolon → DerivesInit [s] .none
  | declare {ts : List Token} {pos : Position} {kind : DeclarationKind} {name : String}
      {init : Option Expr} :
      DerivesDecl ts pos kind name init → DerivesInit ts (.declare pos kind name init)
  | expr {t s : Token} {ts : List Token} {e : Expr} :
      DerivesExpr .assignment (t :: ts) e → s.kind = .semicolon →
      DerivesInit (t :: ts ++ [s]) (.expr t.pos e)

/-- A token that may be missing. -/
inductive Perhaps (kind : TokenKind) : List Token → Prop
  | none : Perhaps kind []
  | some {t : Token} : t.kind = kind → Perhaps kind [t]

mutual

/-- `DerivesStmt ts s`: the tokens `ts` derive the statement `s`. -/
inductive DerivesStmt : List Token → Stmt → Prop
  | property {k s : Token} {p : Property} {ts : List Token} {es : List Expr} :
      Declares k.kind p → DerivesArgs ts es → p.minArity ≤ es.length → es.length ≤ p.maxArity →
      s.kind = .semicolon → DerivesStmt (k :: ts ++ [s]) (.property k.pos p es.head?)
  | body {k a o y i t c d b : Token} {style : Expr} {ts us : List Token} {content : List Stmt} :
      k.kind = .body → a.kind = .at → o.kind = .lparen → y.kind = .style → i.kind = .colon →
      DerivesStyle t style → c.kind = .rparen → DerivesStmts ts content →
      (∀ s ∈ content, s.isBody = false) → d.kind = .slash → b.kind = .body →
      Perhaps .semicolon us →
      DerivesStmt (k :: a :: o :: y :: i :: t :: c :: ts ++ d :: b :: us) (.body k.pos style content)
  | func {k t : Token} {ts us : List Token} {names : List String} {b : Block} :
      k.kind = .func → t.kind = .identifier → DerivesParams ts names → DerivesBlock us b →
      DerivesStmt (k :: t :: ts ++ us) (.func k.pos t.text names b)
  | declare {ts : List Token} {pos : Position} {kind : DeclarationKind} {name : String}
      {init : Option Expr} :
      DerivesDecl ts pos kind name init → DerivesStmt ts (.declare pos kind name init)
  | ifElse {k : Token} {ts us vs : List Token} {test : Expr} {b : Block} {rest : Else} :
      k.kind = .if → DerivesTest ts test → DerivesBlock us b → DerivesElse vs rest →
      DerivesStmt (k :: ts ++ us ++ vs) (.ifElse k.pos test b rest)
  | while {k : Token} {ts us : List Token} {test : Expr} {b : Block} :
      k.kind = .while → DerivesTest ts test → DerivesBlock us b →
      DerivesStmt (k :: ts ++ us) (.while k.pos test b)
  | for {k o s c : Token} {ts us vs ws : List Token} {init : ForInit} {test update : Option Expr}
      {b : Block} :
      k.kind = .for → o.kind = .lparen → DerivesInit ts init → DerivesOption us test →
      s.kind = .semicolon → DerivesOption vs update → c.kind = .rparen → DerivesBlock ws b →
      DerivesStmt (k :: o :: ts ++ us ++ s :: vs ++ c :: ws) (.for k.pos init test update b)
  | return {k s : Token} {ts : List Token} {value : Option Expr} :
      k.kind = .return → DerivesOption ts value → s.kind = .semicolon →
      DerivesStmt (k :: ts ++ [s]) (.return k.pos value)
  | break {k s : Token} : k.kind = .break → s.kind = .semicolon → DerivesStmt [k, s] (.break k.pos)
  | continue {k s : Token} :
      k.kind = .continue → s.kind = .semicolon → DerivesStmt [k, s] (.continue k.pos)
  | block {ts : List Token} {b : Block} : DerivesBlock ts b → DerivesStmt ts (.block b)
  | expr {t s : Token} {ts : List Token} {e : Expr} :
      DerivesExpr .assignment (t :: ts) e → s.kind = .semicolon →
      DerivesStmt (t :: ts ++ [s]) (.expr t.pos e)

/-- What follows the block of an `if`. -/
inductive DerivesElse : List Token → Else → Prop
  | none : DerivesElse [] .none
  | block {k : Token} {ts : List Token} {b : Block} :
      k.kind = .else → DerivesBlock ts b → DerivesElse (k :: ts) (.block b)
  | elseIf {k i : Token} {ts us vs : List Token} {test : Expr} {b : Block} {rest : Else} :
      k.kind = .else → i.kind = .if → DerivesTest ts test → DerivesBlock us b →
      DerivesElse vs rest → DerivesElse (k :: i :: ts ++ us ++ vs) (.elseIf i.pos test b rest)

/-- Statements between braces. -/
inductive DerivesBlock : List Token → Block → Prop
  | mk {o c : Token} {ts : List Token} {ss : List Stmt} :
      o.kind = .lbrace → DerivesStmts ts ss → c.kind = .rbrace →
      DerivesBlock (o :: ts ++ [c]) (.mk o.pos ss)

/-- Statements one after another. -/
inductive DerivesStmts : List Token → List Stmt → Prop
  | nil : DerivesStmts [] []
  | cons {ts us : List Token} {s : Stmt} {ss : List Stmt} :
      DerivesStmt ts s → DerivesStmts us ss → DerivesStmts (ts ++ us) (s :: ss)

end

/-- `DerivesProgram tokens p`: the tokens, with the end marker behind them, derive the program `p`,
which stands where the first token stands. -/
inductive DerivesProgram : List Token → Program → Prop
  | mk {ts : List Token} {first stop : Token} {ss : List Stmt} :
      DerivesStmts ts ss → stop.kind = .eof → (ts ++ [stop]).head? = some first →
      DerivesProgram (ts ++ [stop]) ⟨first.pos, ss⟩

end Grammar

end MiniApp
