import MiniApp.Proofs.Eval.Alike
import MiniApp.Proofs.Grammar

/-!
# The places of derived trees

All places in a derived tree are places of the tokens that it was derived from. This includes the
places that are never looked at, such as that of the braces around the body of a function. It is
said with a leeway: one under which the place of every token may stand for itself admits the whole
tree.

## Main definitions

* `Leeway.Admits`: leeways under which the places of some tokens may stand for themselves

## Main results

* `Grammar.DerivesExpr.alike`, `Grammar.DerivesStmt.alike`: derived trees are alike themselves
* `Grammar.DerivesProgram.alike`: derived programs
-/

namespace MiniApp

/-- Every spelling may stand for itself, and so may the places of some tokens. -/
structure Leeway.Admits (ℓ : Leeway) (ts : List Token) : Prop where
  spelling (s : String) : ℓ.spelling s s
  place : ∀ t ∈ ts, ℓ.place t.pos t.pos

namespace Leeway

variable {ℓ : Leeway} {t : Token} {ts us : List Token}

theorem admits_append : ℓ.Admits (ts ++ us) ↔ ℓ.Admits ts ∧ ℓ.Admits us := by
  constructor
  · intro h
    obtain ⟨hts, hus⟩ := List.forall_mem_append.mp h.place
    exact ⟨⟨h.spelling, hts⟩, ⟨h.spelling, hus⟩⟩
  · rintro ⟨h, h'⟩
    exact ⟨h.spelling, List.forall_mem_append.mpr ⟨h.place, h'.place⟩⟩

theorem admits_cons : ℓ.Admits (t :: ts) ↔ ℓ.place t.pos t.pos ∧ ℓ.Admits ts := by
  constructor
  · intro h
    obtain ⟨ht, hts⟩ := List.forall_mem_cons.mp h.place
    exact ⟨ht, ⟨h.spelling, hts⟩⟩
  · rintro ⟨ht, h⟩
    exact ⟨h.spelling, List.forall_mem_cons.mpr ⟨ht, h.place⟩⟩

end Leeway

namespace Grammar

open Leeway

variable {ℓ : Leeway}

theorem Joins.alike {level : Level} {kind : TokenKind} {join : Position → Expr → Expr → Expr}
    (h : Joins level kind join) {p : Position} {l r : Expr} (hp : ℓ.place p p) (hl : l.Alike ℓ l)
    (hr : r.Alike ℓ r) : (join p l r).Alike ℓ (join p l r) := by
  cases h with
  | or | and => exact .logical hp hl hr
  | _ => exact .binary hp hl hr

mutual

theorem DerivesExpr.alike : ∀ {level : Level} {ts : List Token} {e : Expr},
    DerivesExpr level ts e → ℓ.Admits ts → e.Alike ℓ e
  | _, _, _, .tighter _ h, hts => h.alike hts
  | _, _, _, .assign ht _ hu, hts => by
    simp only [admits_append, admits_cons] at hts
    exact .assign (ht.alike hts.1).place (hu.alike hts.2.2)
  | _, _, _, @DerivesExpr.joined _ _ _ _ _ _ _ _ _ hjoin hl hr, hts => by
    simp only [admits_append, admits_cons] at hts
    have hleft := hl.alike hts.1
    exact hjoin.alike hleft.place hleft (hr.alike hts.2.2)
  | _, _, _, .led _ h, hts => by
    simp only [admits_cons] at hts
    exact .unary hts.1 (h.alike hts.2)
  | _, _, _, .call hf hes, hts => by
    simp only [admits_append] at hts
    have hcallee := hf.alike hts.1
    exact .call hcallee.place hcallee (hes.alike hts.2)
  | _, _, _, .number _ _, hts => .number (admits_cons.mp hts).1 (hts.spelling _)
  | _, _, _, .string _, hts => .string (admits_cons.mp hts).1
  | _, _, _, .bool _, hts => .bool (admits_cons.mp hts).1
  | _, _, _, .null _, hts => .null (admits_cons.mp hts).1
  | _, _, _, .ident _, hts => .ident (admits_cons.mp hts).1
  | _, _, _, .parens _ h _, hts => by
    simp only [List.cons_append, admits_append, admits_cons] at hts
    exact h.alike hts.2.1
  | _, _, _, .content _ hes, hts => by
    simp only [admits_cons] at hts
    exact .content hts.1 (hes.alike hts.2)

theorem DerivesArgs.alike : ∀ {ts : List Token} {es : List Expr},
    DerivesArgs ts es → ℓ.Admits ts → List.Forall₂ (Expr.Alike ℓ) es es
  | _, _, .none _ _, _ => .nil
  | _, _, .some _ h _, hts => by
    simp only [List.cons_append, admits_append, admits_cons] at hts
    exact h.alike hts.2.1

theorem DerivesList.alike : ∀ {ts : List Token} {es : List Expr},
    DerivesList ts es → ℓ.Admits ts → List.Forall₂ (Expr.Alike ℓ) es es
  | _, _, .one h, hts => .cons (h.alike hts) .nil
  | _, _, .more h _ hs, hts => by
    simp only [admits_append, admits_cons] at hts
    exact .cons (h.alike hts.1) (hs.alike hts.2.2)

end

theorem DerivesOption.alike {ts : List Token} {e : Option Expr} (h : DerivesOption ts e)
    (hts : ℓ.Admits ts) : Option.Rel (Expr.Alike ℓ) e e := by
  cases h with
  | none => exact .none
  | some h => exact .some (h.alike hts)

theorem DerivesStyle.alike {t : Token} {e : Expr} (h : DerivesStyle t e)
    (ht : ℓ.place t.pos t.pos) : e.Alike ℓ e := by
  cases h with
  | string _ => exact .string ht
  | ident _ => exact .ident ht

theorem DerivesDecl.alike {ts : List Token} {pos : Position} {kind : DeclarationKind}
    {name : String} {e : Option Expr} (h : DerivesDecl ts pos kind name e) (hts : ℓ.Admits ts) :
    ℓ.place pos pos ∧ Option.Rel (Expr.Alike ℓ) e e := by
  cases h with
  | plain _ _ _ => exact ⟨(admits_cons.mp hts).1, .none⟩
  | init _ _ _ he _ =>
    simp only [List.cons_append, admits_append, admits_cons] at hts
    exact ⟨hts.1, .some (he.alike hts.2.2.2.1)⟩

theorem DerivesTest.alike {ts : List Token} {e : Expr} (h : DerivesTest ts e)
    (hts : ℓ.Admits ts) : e.Alike ℓ e := by
  cases h with
  | mk _ he _ =>
    simp only [List.cons_append, admits_append, admits_cons] at hts
    exact he.alike hts.2.1

theorem DerivesInit.alike {ts : List Token} {init : ForInit} (h : DerivesInit ts init)
    (hts : ℓ.Admits ts) : init.Alike ℓ init := by
  cases h with
  | none _ => exact .none
  | declare h =>
    obtain ⟨hpos, he⟩ := h.alike hts
    exact .declare hpos he
  | expr he _ =>
    have hexpr := (admits_append.mp hts).1
    exact .expr (admits_cons.mp hexpr).1 (he.alike hexpr)

mutual

theorem DerivesStmt.alike : ∀ {ts : List Token} {s : Stmt},
    DerivesStmt ts s → ℓ.Admits ts → s.Alike ℓ s
  | _, _, @DerivesStmt.property _ _ _ _ es _ hes _ _ _, hts => by
    simp only [List.cons_append, admits_append, admits_cons] at hts
    -- only the first argument of a property is kept in the tree
    have hhead : Option.Rel (Expr.Alike ℓ) es.head? es.head? := by
      have hall := hes.alike hts.2.1
      cases hall with
      | nil => exact .none
      | cons he _ => exact .some he
    exact .property hts.1 hhead
  | _, _, .body _ _ _ _ _ hstyle _ hs _ _ _ _, hts => by
    simp only [List.cons_append, admits_append, admits_cons] at hts
    obtain ⟨hkeyword, -, -, -, -, hplace, -, hcontent, -⟩ := hts
    exact .body hkeyword (hstyle.alike hplace) (hs.alike hcontent)
  | _, _, .func _ _ _ hb, hts => by
    simp only [List.cons_append, admits_append, admits_cons] at hts
    exact .func hts.1 (hb.alike hts.2.2.2)
  | _, _, .declare h, hts => by
    obtain ⟨hpos, he⟩ := h.alike hts
    exact .declare hpos he
  | _, _, .ifElse _ ht hb hr, hts => by
    simp only [List.cons_append, List.append_assoc, admits_append, admits_cons] at hts
    obtain ⟨hkeyword, htest, hblock, hrest⟩ := hts
    exact .ifElse hkeyword (ht.alike htest) (hb.alike hblock) (hr.alike hrest)
  | _, _, .while _ ht hb, hts => by
    simp only [List.cons_append, admits_append, admits_cons] at hts
    obtain ⟨hkeyword, htest, hblock⟩ := hts
    exact .while hkeyword (ht.alike htest) (hb.alike hblock)
  | _, _, .for _ _ hi ht _ hu _ hb, hts => by
    simp only [List.cons_append, List.append_assoc, admits_append, admits_cons] at hts
    obtain ⟨hkeyword, -, hinit, htest, -, hupdate, -, hblock⟩ := hts
    exact .for hkeyword (hi.alike hinit) (ht.alike htest) (hu.alike hupdate) (hb.alike hblock)
  | _, _, .return _ h _, hts => by
    simp only [List.cons_append, admits_append, admits_cons] at hts
    exact .return hts.1 (h.alike hts.2.1)
  | _, _, .break _ _, hts => .break (admits_cons.mp hts).1
  | _, _, .continue _ _, hts => .continue (admits_cons.mp hts).1
  | _, _, .block h, hts => .block (h.alike hts)
  | _, _, .expr he _, hts => by
    have hexpr := (admits_append.mp hts).1
    exact .expr (admits_cons.mp hexpr).1 (he.alike hexpr)

theorem DerivesElse.alike : ∀ {ts : List Token} {rest : Else},
    DerivesElse ts rest → ℓ.Admits ts → rest.Alike ℓ rest
  | _, _, .none, _ => .none
  | _, _, .block _ hb, hts => .block (hb.alike (admits_cons.mp hts).2)
  | _, _, .elseIf _ _ ht hb hr, hts => by
    simp only [List.cons_append, List.append_assoc, admits_append, admits_cons] at hts
    obtain ⟨-, hkeyword, htest, hblock, hrest⟩ := hts
    exact .elseIf hkeyword (ht.alike htest) (hb.alike hblock) (hr.alike hrest)

theorem DerivesBlock.alike : ∀ {ts : List Token} {b : Block},
    DerivesBlock ts b → ℓ.Admits ts → b.Alike ℓ b
  | _, _, .mk _ hs _, hts => by
    simp only [List.cons_append, admits_append, admits_cons] at hts
    exact .mk hts.1 (hs.alike hts.2.1)

theorem DerivesStmts.alike : ∀ {ts : List Token} {ss : List Stmt},
    DerivesStmts ts ss → ℓ.Admits ts → List.Forall₂ (Stmt.Alike ℓ) ss ss
  | _, _, .nil, _ => .nil
  | _, _, .cons h hs, hts => by
    obtain ⟨hfirst, hrest⟩ := admits_append.mp hts
    exact .cons (h.alike hfirst) (hs.alike hrest)

end

/-- A derived program is alike itself under a leeway that admits its tokens. -/
theorem DerivesProgram.alike {tokens : List Token} {p : Program} (h : DerivesProgram tokens p)
    (htokens : ℓ.Admits tokens) : p.Alike ℓ p := by
  cases h with
  | mk hs _ hfirst =>
    exact ⟨htokens.place _ (List.mem_of_head? hfirst), hs.alike (admits_append.mp htokens).1⟩

end Grammar

end MiniApp
