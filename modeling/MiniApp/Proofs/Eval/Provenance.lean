import MiniApp.Proofs.Eval.Restoration
import MiniApp.Proofs.Eval.Scoping

/-!
# Statements of a program

Which statements a program contains, and which of them lie in the body of a loop, is a matter of its
text. Statements are also kept in functions, and functions are bound in frames. A run begins in two
frames of its own and resolves names from there outward, so the functions that it finds have been
declared by its own program: an arena *knows* a program from one frame on if this is so for all
frames from that one on, and it goes on to do so while names are bound, scopes are entered and left.

## Main definitions

* `Program.Contains`: the statements of a program, and whether they lie in the body of a loop
* `Value.Known`, `Arena.Knows`: functions of a program, and arenas that bind no others

## Main results

* `Arena.Knows.lookup`: the values that are found are known
* `Arena.Knows.define`, `Arena.Knows.assign`, `Arena.Knows.allocate`, `Arena.Knows.release`
* `Session.knows_opened`: the scopes that a program is run in
-/

namespace MiniApp

/-- The statements directly below a statement, each with whether it lies in the body of a loop of its
own function, given whether the statement does. -/
def Stmt.inner (inLoop : Bool) : Stmt → List (Bool × Stmt)
  | .block b => b.body.map (inLoop, ·)
  | .func _ _ _ b => b.body.map (false, ·)
  | .body _ _ content => content.map (inLoop, ·)
  | .ifElse _ _ b rest => (.block b :: rest.stmts).map (inLoop, ·)
  | .while _ _ b => [(true, .block b)]
  | .for _ init _ _ b => init.stmts.map (inLoop, ·) ++ [(true, .block b)]
  | _ => []

/-- `p.Contains inLoop s`: the program contains the statement at a place that lies in the body of a
loop, or does not. Of the loops around it only those count that lie in the same function. -/
inductive Program.Contains (p : Program) : Bool → Stmt → Prop
  | own {s : Stmt} : s ∈ p.body → Contains p false s
  | inner {inLoop inLoop' : Bool} {s t : Stmt} :
      Contains p inLoop s → (inLoop', t) ∈ s.inner inLoop → Contains p inLoop' t

namespace Program.Contains

variable {p : Program} {inLoop : Bool} {s : Stmt}

theorem block {b : Block} (h : p.Contains inLoop (.block b)) (hs : s ∈ b.body) :
    p.Contains inLoop s :=
  .inner h (List.mem_map_of_mem hs)

theorem content {pos : Position} {reference : Expr} {ss : List Stmt}
    (h : p.Contains inLoop (.body pos reference ss)) (hs : s ∈ ss) : p.Contains inLoop s :=
  .inner h (List.mem_map_of_mem hs)

theorem consequent {pos : Position} {test : Expr} {b : Block} {rest : Else}
    (h : p.Contains inLoop (.ifElse pos test b rest)) : p.Contains inLoop (.block b) :=
  .inner h (List.mem_map_of_mem List.mem_cons_self)

theorem alternate {pos : Position} {test : Expr} {b : Block} {rest : Else}
    (h : p.Contains inLoop (.ifElse pos test b rest)) (hs : s ∈ rest.stmts) :
    p.Contains inLoop s :=
  .inner h (List.mem_map_of_mem (List.mem_cons_of_mem _ hs))

theorem func {pos : Position} {name : String} {parameters : List String} {b : Block}
    (h : p.Contains inLoop (.func pos name parameters b)) (hs : s ∈ b.body) :
    p.Contains false s :=
  .inner h (List.mem_map_of_mem hs)

theorem «while» {pos : Position} {test : Expr} {b : Block}
    (h : p.Contains inLoop (.while pos test b)) : p.Contains true (.block b) :=
  .inner h List.mem_cons_self

variable {pos : Position} {init : ForInit} {test update : Option Expr} {b : Block}
variable (h : p.Contains inLoop (.for pos init test update b))
include h

theorem «for» : p.Contains true (.block b) :=
  .inner h (List.mem_append_right _ (List.mem_singleton_self _))

theorem clause (hs : s ∈ init.stmts) : p.Contains inLoop s :=
  .inner h (List.mem_append_left _ (List.mem_map_of_mem hs))

end Program.Contains

/-- The statements directly below a statement are among the nodes directly below it. -/
theorem Stmt.mem_parts_of_mem_inner {inLoop inLoop' : Bool} {s t : Stmt}
    (h : (inLoop', t) ∈ s.inner inLoop) : ∃ layers, (layers, Node.stmt t) ∈ (Node.stmt s).parts := by
  cases s with
  | «for» pos init test update b =>
    -- what a loop is made of stands in the layer of the loop
    refine ⟨[.loop init], ?_⟩
    rcases List.mem_append.mp h with h | h
    · obtain ⟨_, hs, heq⟩ := List.mem_map.mp h
      cases heq
      simp [Node.parts, Node.partsOfStmt, hs]
    · cases List.mem_singleton.mp h
      simp [Node.parts, Node.partsOfStmt]
  | ifElse pos test b rest =>
    obtain ⟨_, hs, heq⟩ := List.mem_map.mp h
    cases heq
    exact ⟨[], by simpa [Node.parts, Node.partsOfStmt] using hs⟩
  | _ => simp_all [inner, Node.parts, Node.partsOfStmt]

/-- What a program contains occurs in it. -/
theorem Program.Contains.occurs {p : Program} {inLoop : Bool} {s : Stmt}
    (h : p.Contains inLoop s) : ∃ layers, Occurs p layers (.stmt s) := by
  induction h with
  | own hs => exact ⟨_, Occurs.root.part (Node.mem_stmtsIn.mpr ⟨rfl, _, hs, rfl⟩)⟩
  | inner _ ht ih =>
    obtain ⟨layers, hoccurs⟩ := ih
    obtain ⟨further, hpart⟩ := Stmt.mem_parts_of_mem_inner ht
    exact ⟨_, hoccurs.part hpart⟩

/-- Values that a program may have computed in the frames from one on: the statements of its functions
are contained in the program, and the functions were declared in one of these frames. -/
def Value.Known (p : Program) (root : Nat) : Value → Prop
  | .closure f => root ≤ f.frame ∧ ∀ s ∈ f.body.body, p.Contains false s
  | _ => True

/-- From the frame of the builtin functions on, only values of a program are bound, and parents are
not further out than that frame, which stays. -/
structure Arena.Knows (p : Program) (root : Nat) (a : Arena Value) : Prop where
  stays : ∃ f, a.frame? root = some f ∧ f.released = false
  parent {i : Nat} {f : Frame Value} :
    root ≤ i → a.frame? i = some f → ∀ k ∈ f.parent, root ≤ k
  value {i : Nat} {f : Frame Value} :
    root ≤ i → a.frame? i = some f → ∀ x ∈ f.bindings, x.2.value.Known p root

namespace Arena.Knows

variable {p : Program} {root i k : Nat} {a b : Arena Value} {name : String} {v : Value}
variable (h : a.Knows p root)
include h

theorem root_lt_size : root < a.size := by
  exact Open.lt_size h.stays

/-! ### What is found -/

theorem find? {f : Frame Value} {x : Binding Value} (hi : root ≤ i) (hf : a.frame? i = some f)
    (hx : f.find? name = some x) : x.value.Known p root :=
  h.value hi hf (name, x) (Frame.mem_bindings_of_find? hx)

theorem locateFrom {m : Nat} {q : Option Nat} {x : Binding Value} (hq : ∀ j ∈ q, root ≤ j)
    (hfound : a.locateFrom name m q = .bound k x) : x.value.Known p root := by
  induction m generalizing q with
  | zero => cases q <;> simp [Arena.locateFrom] at hfound
  | succ m ih =>
    cases q with
    | none => simp [Arena.locateFrom] at hfound
    | some i =>
      cases hf : a.frame? i with
      | none => simp [Arena.locateFrom, hf] at hfound
      | some f =>
        have hi : root ≤ i := hq i rfl
        rw [locateFrom_of_frame? m hf] at hfound
        split at hfound
        · next x' hx =>
          obtain ⟨-, rfl⟩ := Found.bound.inj hfound
          exact h.find? hi hf hx
        · exact ih (h.parent hi hf) hfound

/-- The values that are found are known. -/
theorem lookup {pos : Position} (hi : root ≤ i) (hv : a.lookup i name pos = .ok v) :
    v.Known p root := by
  rw [Arena.lookup] at hv
  split at hv
  · next k x hfound =>
    obtain rfl := Except.ok.inj hv
    refine h.locateFrom (fun j hj => ?_) hfound
    obtain rfl := Option.some.inj hj
    exact hi
  · cases hv
  · cases hv

/-! ### What changes arenas -/

theorem modify {g : Frame Value → Frame Value} (hparent : ∀ f, (g f).parent = f.parent)
    (hreleased : ∀ f, (g f).released = f.released)
    (hvalue : ∀ f, (∀ x ∈ f.bindings, x.2.value.Known p root) →
      ∀ x ∈ (g f).bindings, x.2.value.Known p root) : (a.modify k g).Knows p root := by
  constructor
  · exact Open.modify h.stays k hreleased
  · intro i f' hi hf'
    obtain ⟨f, hf, ⟨-, rfl⟩ | ⟨-, rfl⟩⟩ := frame?_of_modify hf'
    · rw [hparent]
      exact h.parent hi hf
    · exact h.parent hi hf
  · intro i f' hi hf'
    obtain ⟨f, hf, ⟨-, rfl⟩ | ⟨-, rfl⟩⟩ := frame?_of_modify hf'
    · exact hvalue f (h.value hi hf)
    · exact h.value hi hf

theorem define {x : Binding Value} (hx : x.value.Known p root) (hb : a.define i name x = .ok b) :
    b.Knows p root := by
  obtain rfl := define_eq_ok hb
  refine h.modify (fun _ => rfl) (fun _ => rfl) fun f hf y hy => ?_
  rcases List.mem_append.mp hy with hy | hy
  · exact hf y hy
  · obtain rfl := List.mem_singleton.mp hy
    exact hx

theorem assign {pos : Position} (hv : v.Known p root) (hb : a.assign i name v pos = .ok b) :
    b.Knows p root := by
  obtain ⟨owner, rfl⟩ := assign_eq_ok hb
  refine h.modify (fun _ => rfl) (fun _ => rfl) fun f hf y hy => ?_
  obtain ⟨x, hx, rfl⟩ := List.mem_map.mp hy
  split
  · exact hv
  · exact hf x hx

theorem capture : (a.capture i).Knows p root :=
  h.modify (fun _ => rfl) (fun _ => rfl) fun _ hf => hf

theorem allocate (hi : root ≤ i) : (a.allocate (some i)).Knows p root := by
  constructor
  · exact Open.allocate h.stays (some i)
  · intro j f hj hf
    obtain ⟨-, rfl⟩ | hf := frame?_of_allocate hf
    · intro k hk
      obtain rfl := Option.some.inj hk
      exact hi
    · exact h.parent hj hf
  · intro j f hj hf
    obtain ⟨-, rfl⟩ | hf := frame?_of_allocate hf
    · exact fun x hx => absurd hx List.not_mem_nil
    · exact h.value hj hf

/-- A scope further in may be left: the frame of the builtin functions is not reclaimed. -/
theorem release (policy : Reclamation) (hk : root < k) : (a.release policy k).Knows p root := by
  constructor
  · exact Open.release h.stays policy hk
  · intro i g hi hg
    obtain ⟨f, hf, rfl⟩ := frame?_of_release hg
    have hparent := h.parent hi hf
    split <;> exact hparent
  · intro i g hi hg
    obtain ⟨f, hf, rfl⟩ := frame?_of_release hg
    have hvalue := h.value hi hf
    split <;> exact hvalue

end Arena.Knows

/-- The scopes that a program is run in bind builtin functions only. -/
theorem Session.knows_opened (p : Program) (s : Session) :
    s.opened.arena.Knows p s.arena.size := by
  -- two frames are new: the built-in functions, and the one of the program below them
  have hframe : ∀ {i : Nat} {f : Frame Value}, s.arena.size ≤ i →
      s.opened.arena.frame? i = some f →
      f = .builtins s.nextId ∨ f = { parent := some s.arena.size } := by
    intro i f hi hf
    rw [frame?_opened] at hf
    split at hf
    · exact .inr (Option.some.inj hf).symm
    · split at hf
      · exact .inl (Option.some.inj hf).symm
      · exact absurd (Arena.lt_size_of_frame? hf) hi.not_gt
  constructor
  · refine ⟨.builtins s.nextId, ?_, rfl⟩
    rw [frame?_opened, if_neg (Nat.lt_succ_self _).ne, if_pos rfl]
  · intro i f hi hf k hk
    rcases hframe hi hf with rfl | rfl
    · cases hk
    · exact (Option.some.inj hk).le
  · intro i f hi hf x hx
    rcases hframe hi hf with rfl | rfl
    · rcases List.mem_pair.mp hx with rfl | rfl <;> trivial
    · cases hx

end MiniApp
