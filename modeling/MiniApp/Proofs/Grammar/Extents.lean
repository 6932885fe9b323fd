import MiniApp.Proofs.Eval.Scoping
import MiniApp.Proofs.Grammar.Decision

/-!
# Extents

The nodes of a tree that was derived from tokens stand on stretches of these tokens: a node at one of
its tokens, and the parts of a node on stretches that follow one another. No two tokens of a text
have the same place. Hence no node occurs twice in a program that was parsed, and the layers that it
lies in are determined by the node alone.

## Main definitions

* `Node.Stands`, `Node.StandAll`: a node, or several one after another, on a stretch of places

## Main results

* `Node.Stands.below_unique`: on distinct places, a node determines where it lies
* `Grammar.DerivesProgram.stands`: derived programs stand on their tokens
* `Occurs.unique`: in a parsed program, a node determines its layers
-/

namespace MiniApp

namespace Node

/-- The place of a node. -/
def pos : Node → Position
  | .program p => p.pos
  | .stmt s => s.pos
  | .expr e => e.pos

mutual

/-- `Stands ps n`: the node stands at one of the places, and its parts on stretches of them. -/
inductive Stands : List Position → Node → Prop
  | mk {ps : List Position} {n : Node} : n.pos ∈ ps → StandAll ps n.parts → Stands ps n

/-- Nodes that stand on stretches which follow one another. -/
inductive StandAll : List Position → List (List Layer × Node) → Prop
  | nil {ps : List Position} : StandAll ps []
  | skip {p : Position} {ps : List Position} {ns : List (List Layer × Node)} :
      StandAll ps ns → StandAll (p :: ps) ns
  | cons {ps qs : List Position} {layers : List Layer} {n : Node}
      {ns : List (List Layer × Node)} :
      Stands ps n → StandAll qs ns → StandAll (ps ++ qs) ((layers, n) :: ns)

end

variable {ps qs : List Position} {ns ms : List (List Layer × Node)} {n m k : Node}
variable {layers layers' further : List Layer}

theorem StandAll.skips (h : StandAll qs ns) : StandAll (ps ++ qs) ns := by
  induction ps with
  | nil => exact h
  | cons p ps ih => exact .skip ih

theorem StandAll.append : ∀ {ps : List Position} {ns : List (List Layer × Node)},
    StandAll ps ns → StandAll qs ms → StandAll (ps ++ qs) (ns ++ ms)
  | _, _, .nil, h' => h'.skips
  | _, _, .skip h, h' => .skip (h.append h')
  | _, _, .cons hn h, h' => by
    rw [List.append_assoc]
    exact .cons hn (h.append h')

theorem StandAll.widen (h : StandAll ps ns) : StandAll (ps ++ qs) ns := by
  have happend := h.append (.nil : StandAll qs [])
  rwa [List.append_nil] at happend

theorem Stands.pos_mem (h : Stands ps n) : n.pos ∈ ps := by
  cases h with
  | mk hpos _ => exact hpos

theorem Stands.parts (h : Stands ps n) : StandAll ps n.parts := by
  cases h with
  | mk _ hparts => exact hparts

theorem Stands.skip {p : Position} (h : Stands ps n) : Stands (p :: ps) n :=
  .mk (List.mem_cons_of_mem _ h.pos_mem) (.skip h.parts)

theorem Stands.widen (h : Stands ps n) : Stands (ps ++ qs) n :=
  .mk (List.mem_append_left _ h.pos_mem) h.parts.widen

theorem Stands.single (h : Stands ps n) : StandAll ps [(layers, n)] := by
  have hcons : StandAll (ps ++ []) [(layers, n)] := .cons h .nil
  rwa [List.append_nil] at hcons

/-! ## A node determines where it lies -/

/-- A node below another one is that node, or it lies at or below one of its parts. -/
theorem Below.head (h : n.Below layers m) :
    (layers = [] ∧ m = n) ∨
      ∃ further k above, (further, k) ∈ n.parts ∧ k.Below above m ∧ layers = above ++ further := by
  -- a path to the node grows at its lower end, the first step from above has to be carried along
  induction h with
  | self => exact .inl ⟨rfl, rfl⟩
  | @part layers further m k _ hk ih =>
    rcases ih with ⟨rfl, rfl⟩ | ⟨first, l, above, hl, hbelow, rfl⟩
    · exact .inr ⟨further, k, [], hk, .self, by simp⟩
    · exact .inr ⟨first, l, further ++ above, hl, .part hbelow hk, by simp⟩

/-- The node lies properly below itself. -/
def Cyclic (n : Node) : Prop := ∃ further k above, (further, k) ∈ n.parts ∧ k.Below above n

/-- A cycle through a node goes through one of its parts. -/
theorem cyclic_part (hk : (further, k) ∈ n.parts) (h : k.Below layers n) : k.Cyclic := by
  rcases h.head with ⟨-, rfl⟩ | ⟨first, l, above, hl, hbelow, -⟩
  · exact ⟨further, n, [], hk, .self⟩
  · exact ⟨first, l, further ++ above, hl, .part hbelow hk⟩

-- Where a node stands is no argument against a cycle, since a node and its first part may share a
-- place; but a derivation that it stands somewhere contains one for each of its parts.
mutual

theorem Stands.not_cyclic : ∀ {ps : List Position} {n : Node}, Stands ps n → ¬ n.Cyclic
  | _, _, .mk _ hparts => fun ⟨_, _, _, hk, hbelow⟩ =>
    hparts.not_cyclic _ hk (cyclic_part hk hbelow)

theorem StandAll.not_cyclic : ∀ {ps : List Position} {ns : List (List Layer × Node)},
    StandAll ps ns → ∀ x ∈ ns, ¬ x.2.Cyclic
  | _, _, .nil => fun _ hx => absurd hx List.not_mem_nil
  | _, _, .skip h => h.not_cyclic
  | _, _, .cons hn h => List.forall_mem_cons.mpr ⟨hn.not_cyclic, h.not_cyclic⟩

end

mutual

theorem Stands.below_pos_mem : ∀ {ps : List Position} {n : Node}, Stands ps n →
    ∀ layers m, n.Below layers m → m.pos ∈ ps
  | _, _, .mk hpos hparts => fun layers m hbelow => by
    rcases hbelow.head with ⟨-, rfl⟩ | ⟨_, _, _, hk, hbelow, -⟩
    · exact hpos
    · exact hparts.below_pos_mem _ hk _ _ hbelow

theorem StandAll.below_pos_mem : ∀ {ps : List Position} {ns : List (List Layer × Node)},
    StandAll ps ns → ∀ x ∈ ns, ∀ layers m, x.2.Below layers m → m.pos ∈ ps
  | _, _, .nil => fun _ hx => absurd hx List.not_mem_nil
  | _, _, .skip h => fun x hx layers m hbelow =>
    List.mem_cons_of_mem _ (h.below_pos_mem x hx layers m hbelow)
  | _, _, .cons hn h => List.forall_mem_cons.mpr
    ⟨fun layers m hbelow => List.mem_append_left _ (hn.below_pos_mem layers m hbelow),
      fun x hx layers m hbelow => List.mem_append_right _ (h.below_pos_mem x hx layers m hbelow)⟩

end

mutual

/-- On distinct places, a node determines the layers in which it lies below another one. -/
theorem Stands.below_unique : ∀ {ps : List Position} {n : Node}, Stands ps n → ps.Nodup →
    ∀ layers layers' m, n.Below layers m → n.Below layers' m → layers = layers'
  | _, _, .mk hpos hparts => fun hnodup layers layers' m h h' => by
    have hunique := hparts.below_unique hnodup
    have hacyclic := (Stands.mk hpos hparts).not_cyclic
    rcases h.head with ⟨rfl, rfl⟩ | ⟨further, k, above, hk, hbelow, rfl⟩ <;>
    rcases h'.head with ⟨rfl, hself⟩ | ⟨further', k', above', hk', hbelow', rfl⟩
    · rfl
    -- the node itself does not occur below itself
    · exact absurd ⟨_, _, _, hk', hbelow'⟩ hacyclic
    · exact absurd ⟨_, _, _, hk, hself ▸ hbelow⟩ hacyclic
    · exact hunique _ hk _ hk' _ _ _ hbelow hbelow'

theorem StandAll.below_unique : ∀ {ps : List Position} {ns : List (List Layer × Node)},
    StandAll ps ns → ps.Nodup → ∀ x ∈ ns, ∀ y ∈ ns, ∀ above above' m,
      x.2.Below above m → y.2.Below above' m → above ++ x.1 = above' ++ y.1
  | _, _, .nil => fun _ _ hx => absurd hx List.not_mem_nil
  | _, _, .skip h => fun hnodup => h.below_unique (List.nodup_cons.mp hnodup).2
  | _, _, .cons hn h => fun hnodup x hx y hy above above' m hbelow hbelow' => by
    obtain ⟨hps, hqs, hdisjoint⟩ := List.nodup_append.mp hnodup
    have hhead := hn.below_unique hps
    have htail := h.below_unique hqs
    rcases List.mem_cons.mp hx with rfl | hx' <;> rcases List.mem_cons.mp hy with rfl | hy'
    · rw [hhead _ _ m hbelow hbelow']
    · -- the same place would be on two stretches
      exact absurd rfl (hdisjoint _ (hn.below_pos_mem _ _ hbelow) _
        (h.below_pos_mem _ hy' _ _ hbelow'))
    · exact absurd rfl (hdisjoint _ (hn.below_pos_mem _ _ hbelow') _
        (h.below_pos_mem _ hx' _ _ hbelow))
    · exact htail x hx' y hy' above above' m hbelow hbelow'

end

theorem StandAll.first : ∀ {ps : List Position} {ns : List (List Layer × Node)},
    StandAll ps ns → StandAll ps (ns.take 1)
  | _, _, .nil => .nil
  | _, _, .skip h => .skip h.first
  | _, _, .cons hn _ => hn.single.widen

end Node

/-! ## Derived trees stand on their tokens -/

namespace Grammar

open Node

theorem Joins.pos_operands {ℓ : Level} {kind : TokenKind} {join : Position → Expr → Expr → Expr}
    (h : Joins ℓ kind join) (p : Position) (l r : Expr) :
    (join p l r).pos = p ∧ (join p l r).operands = [l, r] := by
  cases h <;> exact ⟨rfl, rfl⟩

mutual

theorem DerivesExpr.stands : ∀ {ℓ : Level} {ts : List Token} {e : Expr}, DerivesExpr ℓ ts e →
    Stands (ts.map Token.pos) (.expr e)
  | _, _, _, .tighter _ h => h.stands
  | _, _, _, .assign ht _ hu => by
    -- the target is kept as a name only, but the assignment has its place
    have htarget := ht.stands.pos_mem
    rw [List.map_append]
    exact .mk (List.mem_append_left _ htarget) (.skips (.skip hu.stands.single))
  | _, _, _, @DerivesExpr.joined _ _ _ _ _ _ _ _ _ hjoin hl hr => by
    have hleft := hl.stands
    have hright := hr.stands
    obtain ⟨hpos, hoperands⟩ := hjoin.pos_operands _ _ _
    rw [List.map_append]
    refine .mk (List.mem_append_left _ ?_) ?_
    · rw [Node.pos, hpos]
      exact hleft.pos_mem
    · rw [Node.parts, hoperands]
      exact .cons hleft (.skip hright.single)
  | _, _, _, .led _ h => .mk List.mem_cons_self (.skip h.stands.single)
  | _, _, _, .call hf hes => by
    have hcallee := hf.stands
    have hargs := hes.stands []
    rw [List.map_append]
    exact .mk (List.mem_append_left _ hcallee.pos_mem) (.cons hcallee hargs)
  | _, _, _, .number _ _ => .mk List.mem_cons_self .nil
  | _, _, _, .string _ => .mk List.mem_cons_self .nil
  | _, _, _, .bool _ => .mk List.mem_cons_self .nil
  | _, _, _, .null _ => .mk List.mem_cons_self .nil
  | _, _, _, .ident _ => .mk List.mem_cons_self .nil
  | _, _, _, .parens _ h _ => by
    rw [List.cons_append, List.map_cons, List.map_append]
    exact .skip h.stands.widen
  | _, _, _, .content _ hes => .mk List.mem_cons_self (.skip (hes.stands []))

theorem DerivesArgs.stands : ∀ {ts : List Token} {es : List Expr}, DerivesArgs ts es →
    ∀ layers, StandAll (ts.map Token.pos) (exprsIn layers es)
  | _, _, .none _ _ => fun _ => .nil
  | _, _, .some _ h _ => fun layers => by
    rw [List.cons_append, List.map_cons, List.map_append]
    exact .skip (h.stands layers).widen

theorem DerivesList.stands : ∀ {ts : List Token} {es : List Expr}, DerivesList ts es →
    ∀ layers, StandAll (ts.map Token.pos) (exprsIn layers es)
  | _, _, .one h => fun _ => h.stands.single
  | _, _, .more h _ hs => fun layers => by
    have hfirst := h.stands
    have hrest := hs.stands layers
    rw [List.map_append]
    exact .cons hfirst (.skip hrest)

end

theorem DerivesOption.stands {ts : List Token} {e : Option Expr} (h : DerivesOption ts e)
    (layers : List Layer) : StandAll (ts.map Token.pos) (exprsIn layers e.toList) := by
  cases h with
  | none => exact .nil
  | some h => exact h.stands.single

theorem DerivesStyle.stands {t : Token} {e : Expr} (h : DerivesStyle t e) :
    Stands [t.pos] (.expr e) := by
  cases h <;> exact .mk List.mem_cons_self .nil

theorem DerivesDecl.stands {ts : List Token} {pos : Position} {kind : DeclarationKind}
    {name : String} {e : Option Expr} (h : DerivesDecl ts pos kind name e) :
    Stands (ts.map Token.pos) (.stmt (.declare pos kind name e)) := by
  cases h with
  | plain => exact .mk List.mem_cons_self .nil
  | init _ _ _ he _ =>
    simp only [List.cons_append, List.map_cons, List.map_append]
    exact .mk List.mem_cons_self (.skip (.skip (.skip he.stands.single.widen)))

theorem DerivesTest.stands {ts : List Token} {e : Expr} (h : DerivesTest ts e)
    (layers : List Layer) : StandAll (ts.map Token.pos) (exprsIn layers [e]) := by
  cases h with
  | mk _ he _ =>
    rw [List.cons_append, List.map_cons, List.map_append]
    exact .skip he.stands.single.widen

theorem DerivesInit.stands {ts : List Token} {init : ForInit} (h : DerivesInit ts init)
    (layers : List Layer) : StandAll (ts.map Token.pos) (stmtsIn layers init.stmts) := by
  cases h with
  | none => exact .nil
  | declare h => exact h.stands.single
  | expr he _ =>
    rw [List.map_append]
    exact Stands.single (.widen (.mk List.mem_cons_self he.stands.single))

mutual

theorem DerivesStmt.stands : ∀ {ts : List Token} {s : Stmt}, DerivesStmt ts s →
    Stands (ts.map Token.pos) (.stmt s)
  | _, _, @DerivesStmt.property _ _ _ _ es _ hes _ _ _ => by
    -- only the first argument of a property is kept in the tree
    have hparts : exprsIn [] es.head?.toList = (exprsIn [] es).take 1 := by cases es <;> rfl
    simp only [List.cons_append, List.map_cons, List.map_append]
    refine .mk List.mem_cons_self (.skip ?_)
    rw [Node.parts, partsOfStmt, hparts]
    exact (hes.stands []).first.widen
  | _, _, .body _ _ _ _ _ hstyle _ hs _ _ _ _ => by
    have hcontent := hs.stands
    simp only [List.cons_append, List.map_cons, List.map_append]
    refine .mk List.mem_cons_self (.skip (.skip (.skip (.skip (.skip ?_)))))
    exact .cons hstyle.stands (.skip (hcontent _).widen)
  | _, _, .func _ _ _ hb => by
    -- the statements of the body lie in the function's layer, not in one of a block
    have hbody := hb.stands_body
    simp only [List.cons_append, List.map_cons, List.map_append]
    exact .mk List.mem_cons_self (.skip (.skip (.skips (hbody _))))
  | _, _, .declare h => h.stands
  | _, _, .ifElse _ ht hb hr => by
    have hblock := hb.stands
    have hrest := hr.stands []
    simp only [List.cons_append, List.map_cons, List.map_append, List.append_assoc]
    exact .mk List.mem_cons_self (.skip ((ht.stands []).append (.cons hblock hrest)))
  | _, _, .while _ ht hb => by
    have hblock := hb.stands
    simp only [List.cons_append, List.map_cons, List.map_append]
    exact .mk List.mem_cons_self (.skip ((ht.stands []).append hblock.single))
  | _, _, .for _ _ hi ht _ hu _ hb => by
    have hblock := hb.stands
    simp only [List.cons_append, List.map_cons, List.map_append]
    refine .mk List.mem_cons_self (.skip (.skip ?_))
    exact (((hi.stands _).append (ht.stands _)).append (.skip (hu.stands _))).append
      (.skip hblock.single)
  | _, _, .return _ h _ => by
    simp only [List.cons_append, List.map_cons, List.map_append]
    exact .mk List.mem_cons_self (.skip (h.stands []).widen)
  | _, _, .break _ _ => .mk List.mem_cons_self .nil
  | _, _, .continue _ _ => .mk List.mem_cons_self .nil
  | _, _, .block h => h.stands
  | _, _, .expr he _ => by
    rw [List.map_append]
    exact .widen (.mk List.mem_cons_self he.stands.single)

theorem DerivesElse.stands : ∀ {ts : List Token} {rest : Else}, DerivesElse ts rest →
    ∀ layers, StandAll (ts.map Token.pos) (stmtsIn layers rest.stmts)
  | _, _, .none => fun _ => .nil
  | _, _, .block _ hb => fun _ => .skip hb.stands.single
  | _, _, .elseIf _ _ ht hb hr => fun _ => by
    have hblock := hb.stands
    have hrest := hr.stands []
    simp only [List.cons_append, List.map_cons, List.map_append, List.append_assoc]
    refine .skip (Stands.single ?_)
    exact .mk List.mem_cons_self (.skip ((ht.stands []).append (.cons hblock hrest)))

theorem DerivesBlock.stands : ∀ {ts : List Token} {b : Block}, DerivesBlock ts b →
    Stands (ts.map Token.pos) (.stmt (.block b))
  | _, _, .mk _ hs _ => by
    have hbody := hs.stands
    simp only [List.cons_append, List.map_cons, List.map_append]
    exact .mk List.mem_cons_self (.skip (hbody _).widen)

theorem DerivesBlock.stands_body : ∀ {ts : List Token} {b : Block}, DerivesBlock ts b →
    ∀ layers, StandAll (ts.map Token.pos) (stmtsIn layers b.body)
  | _, _, .mk _ hs _ => fun layers => by
    have hbody := hs.stands layers
    simp only [List.cons_append, List.map_cons, List.map_append]
    exact .skip hbody.widen

theorem DerivesStmts.stands : ∀ {ts : List Token} {ss : List Stmt}, DerivesStmts ts ss →
    ∀ layers, StandAll (ts.map Token.pos) (stmtsIn layers ss)
  | _, _, .nil => fun _ => .nil
  | _, _, .cons h hs => fun layers => by
    have hfirst := h.stands
    have hrest := hs.stands layers
    rw [List.map_append]
    exact .cons hfirst hrest

end

/-- A derived program stands on its tokens. -/
theorem DerivesProgram.stands {tokens : List Token} {p : Program} (h : DerivesProgram tokens p) :
    Stands (tokens.map Token.pos) (.program p) := by
  cases h with
  | mk hs _ hfirst =>
    refine .mk (List.mem_map_of_mem (List.mem_of_head? hfirst)) ?_
    rw [List.map_append]
    exact (hs.stands []).widen

end Grammar

/-- In a program that was parsed, a node determines the layers that it lies in. -/
theorem Occurs.unique {allowance : Nat} {path source : String} {p : Program}
    (hparse : Program.parseWithin allowance path source = .ok p) {layers layers' : List Layer}
    {n : Node} (h : Occurs p layers n) (h' : Occurs p layers' n) : layers = layers' := by
  -- the program is derived from its tokens, and these are at increasing places
  obtain ⟨tokens, hscan, hparse⟩ := Program.exists_tokens_of_parseWithin hparse
  have hscanned := Token.scanned_scan hscan
  have hstands := (Program.derives_of_parseTokensWithin hscanned hparse).stands
  have hnodup : (tokens.map Token.pos).Nodup :=
    List.pairwise_map.mpr (hscanned.ordered.imp Position.Before.ne)
  obtain ⟨further, hbelow, rfl⟩ := h
  obtain ⟨further', hbelow', rfl⟩ := h'
  rw [hstands.below_unique hnodup _ _ _ hbelow hbelow']

end MiniApp
