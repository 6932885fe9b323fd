import Mathlib
import MiniApp.Proofs.Eval.Shift

/-!
# Runs in one session

Many programs may be run in one session, one after another, and the arena grows with each of them.
But no run can tell what was run before it, except by its counters and by the properties that have
been declared: it neither changes nor reads the frames that it finds. Two sessions with the same
counters and the same declarations therefore let a program run alike, and the frames that it adds
are the same but for their place in the arena.

## Main definitions

* `Shift.index`, `Shift.frame`: where the frames of one run stand in the other one
* `Session.Cleared`: what a run leaves of the scopes that it opened

## Main results

* `Session.run_beside`: runs in sessions that look the same to programs
* `Session.run_isolated`: the history of a session does not matter
* `Session.execute_restores`: scopes and the body section are restored on every exit
-/

namespace MiniApp

/-! ## Frames of the left run as the right one has them -/

namespace Shift

variable (σ : Shift)

/-- The index on the right. What was there before the runs stays where it is. -/
def index (i : Nat) : Nat := if i < σ.left.size then i else i - σ.left.size + σ.right.size

/-- The identity on the right. -/
def ident (n : Nat) : Nat := if n < σ.leftId then n else n - σ.leftId + σ.rightId

/-- The value on the right: functions have their identities and refer to their frames there. -/
def value : Value → Value
  | .closure f => .closure { f with id := σ.ident f.id, frame := σ.index f.frame }
  | .builtin f => .builtin { f with id := σ.ident f.id }
  | v => v

/-- The binding on the right. -/
def binding (b : Binding Value) : Binding Value := { b with value := σ.value b.value }

/-- The frame on the right. -/
def frame (f : Frame Value) : Frame Value :=
  { f with
    parent := f.parent.map σ.index
    bindings := f.bindings.map fun entry => (entry.1, σ.binding entry.2) }

variable {σ} {known : List Layer → Node → Prop} {w : Arena Value} {i j : Nat}

theorem Index.eq_index (h : σ.Index i j) : j = σ.index i := by
  obtain ⟨k, rfl, rfl⟩ := h
  rw [index, if_neg (by omega)]
  omega

theorem Ident.eq_ident (h : σ.Ident i j) : j = σ.ident i := by
  obtain ⟨k, rfl, rfl⟩ := h
  rw [ident, if_neg (by omega)]
  omega

theorem value_of_values {v u : Value} (h : (σ.likeness known).Values w v u) : u = σ.value v := by
  cases h with
  | null | bool | number | str => rfl
  | @closure f g h =>
    obtain ⟨layers, hcaptured, -⟩ := h.frame
    obtain ⟨id, name, parameters, body, frame, pos⟩ := f
    obtain ⟨id', name', parameters', body', frame', pos'⟩ := g
    obtain rfl : name = name' := h.name
    obtain rfl : parameters = parameters' := h.parameters
    obtain rfl : body = body' := h.body.eq Leeway.rigid_exact
    obtain rfl : pos = pos' := h.place
    obtain rfl : id' = σ.ident id := Ident.eq_ident h.ident
    obtain rfl : frame' = σ.index frame := hcaptured.index.eq_index
    rfl
  | builtin name action h =>
    obtain rfl := Ident.eq_ident h
    rfl

theorem Bindings.eq {x y : String × Binding Value} (h : Bindings σ known w x y) :
    y = (x.1, σ.binding x.2) := by
  obtain ⟨name, v, kind, pos⟩ := x
  obtain ⟨name', u, kind', pos'⟩ := y
  obtain rfl : name = name' := h.name
  obtain rfl : kind = kind' := h.kind
  obtain rfl : pos = pos' := h.pos
  obtain rfl : u = σ.value v := value_of_values h.value
  rfl

theorem Parents.eq {p q : Option Nat} (h : Parents σ i p q) : q = p.map σ.index := by
  cases h with
  | root => rfl
  | inner _ h => exact congrArg some h.eq_index

/-- Frames that belong together are one frame, but for the shift. -/
theorem Matches.eq {f g : Frame Value} (h : Matches σ known w i f g) : g = σ.frame f := by
  obtain ⟨parent, bindings, captured, released⟩ := f
  obtain ⟨parent', bindings', captured', released'⟩ := g
  obtain rfl : captured = captured' := h.captured
  obtain rfl : released = released' := h.released
  obtain rfl : parent' = parent.map σ.index := h.parent.eq
  have hbindings : List.Forall₂ (· = ·) (bindings.map fun entry => (entry.1, σ.binding entry.2))
      bindings' := List.forall₂_map_left_iff.mpr (h.bindings.imp fun _ _ h => h.eq.symm)
  rw [List.forall₂_eq_eq_eq] at hbindings
  subst hbindings
  rfl

/-- The frames that were added on the right are those that were added on the left. -/
theorem Arenas.frame?_right {a b : Arena Value} (h : Arenas σ known a b) (k : Nat) :
    b.frame? (σ.right.size + k) = (a.frame? (σ.left.size + k)).map σ.frame := by
  have hindex : σ.Index (σ.left.size + k) (σ.right.size + k) := ⟨k, rfl, rfl⟩
  by_cases hk : σ.left.size + k < a.size
  · obtain ⟨f, g, hf, hg, hmatches⟩ := h.exists_frames hindex hk
    rw [hf, hg, Option.map_some, hmatches.eq]
  · have hk' : ¬ σ.right.size + k < b.size := (hindex.lt_iff h.size).not.mp hk
    rw [Arena.frame?, Arena.frame?, Array.getElem?_eq_none (not_lt.mp hk),
      Array.getElem?_eq_none (not_lt.mp hk'), Option.map_none]

end Shift

namespace Session

/-! ## Two sessions that look the same to programs -/

/-- The shift between runs that begin in two sessions. -/
def shift (s t : Session) : Shift := ⟨s.arena, t.arena, s.nextId, t.nextId⟩

variable {s t : Session} {known : List Layer → Node → Prop}

/-- The scopes that a program is run in are the same but for the shift. -/
theorem arenas_opened (s t : Session) (known : List Layer → Node → Prop) :
    Shift.Arenas (s.shift t) known s.opened.arena t.opened.arena where
  size := ⟨2, s.size_opened, t.size_opened⟩
  frames {i j f g} hij hf hg := by
    obtain ⟨k, rfl, rfl⟩ := hij
    simp only [shift] at hf hg
    rw [frame?_opened] at hf hg
    -- the frame of the builtin functions, that of the program, and no others
    match k with
    | 0 =>
      rw [if_neg (by omega), if_pos (by omega)] at hf hg
      cases hf
      cases hg
      exact ⟨rfl, rfl, .cons ⟨rfl, rfl, rfl, .builtin _ _ ⟨0, rfl, rfl⟩⟩
        (.cons ⟨rfl, rfl, rfl, .builtin _ _ ⟨1, rfl, rfl⟩⟩ .nil), .root⟩
    | 1 =>
      rw [if_pos (by omega)] at hf hg
      cases hf
      cases hg
      exact ⟨rfl, rfl, .nil, .inner (Nat.lt_succ_self _) (.base _)⟩
    | k + 2 =>
      rw [if_neg (by omega), if_neg (by omega)] at hf
      have := Arena.lt_size_of_frame? hf
      omega
  root := ⟨.builtins s.nextId, by
    simp only [shift]
    rw [frame?_opened, if_neg (by omega), if_pos rfl], rfl, rfl, rfl, rfl⟩
  left {i} hi := by
    simp only [shift] at hi ⊢
    rw [frame?_opened, if_neg (by omega), if_neg (by omega)]
  right {i} hi := by
    simp only [shift] at hi ⊢
    rw [frame?_opened, if_neg (by omega), if_neg (by omega)]

/-- A program runs alike in two sessions with the same counters and the same declarations. Nothing
else of what was there before is felt, nor whether visits are recorded. -/
theorem run_beside (left right : Context) (hsettings : left.settings = right.settings)
    (hpatience : left.patience = right.patience) (hleft : left.reclamation = .eager)
    (hright : right.reclamation = .eager) (allowance : Nat) (path : String) (p : Program)
    (hmeter : s.meter = t.meter) (hinBody : s.inBody = t.inBody)
    (happ : s.app.DeclaredAlike t.app) :
    (Session.run left allowance path p s).1 = (Session.run right allowance path p t).1 ∧
      ∃ w, Shift.Sessions (s.shift t) (Occurs p) w (Session.run left allowance path p s).2
        (Session.run right allowance path p t).2 := by
  have hopened : Shift.Sessions (s.shift t) (Occurs p) s.opened.arena
      (opened { s with trace := #[], visits := #[] })
      (opened { t with trace := #[], visits := #[] }) :=
    { world := rfl
      arena := arenas_opened s t _
      settled := settled_opened s
      app := happ
      meter := hmeter
      inBody := hinBody
      nextId := ⟨2, rfl, rfl⟩
      output := rfl }
  have hscope : (s.shift t).Scope s.opened.arena (s.arena.size + 1) (t.arena.size + 1) :=
    ⟨⟨1, rfl, rfl⟩, by rw [size_opened]; omega, Nat.lt_succ_self _⟩
  -- no more is asked of the two sessions, since names are resolved in these scopes
  have hlawful : (Shift.pairing (s.shift t) (Occurs p) left right).Lawful :=
    Shift.lawful_pairing (Occurs.knowsParts p) hsettings hpatience hleft hright
  have hends := hlawful.agree_program allowance hscope Occurs.root (.refl p) _ _ hopened
  rw [Session.run, Session.run, Run.start_eq, Run.start_eq]
  dsimp only
  change Pairing.Ends _ _ _ (Run.program left allowance p _ _)
    (Run.program right allowance p _ _) at hends
  generalize Run.program left allowance p _ _ = r, Run.program right allowance p _ _ = r' at hends
  cases hends with
  | ok _ hsessions _ => exact ⟨rfl, _, hsessions⟩
  | error _ hsessions hfailure => exact ⟨congrArg (some ·) (congrArg _ hfailure), _, hsessions⟩

/-- A run leaves the frames that it finds as they are. -/
theorem run_frame?_of_lt (cx : Context) (heager : cx.reclamation = .eager) (allowance : Nat)
    (path : String) (p : Program) (s : Session) {i : Nat} (hi : i < s.arena.size) :
    (Session.run cx allowance path p s).2.arena.frame? i = s.arena.frame? i := by
  obtain ⟨-, w, hsessions⟩ := run_beside (s := s) (t := s) cx cx rfl rfl heager heager allowance
    path p rfl rfl ⟨fun _ => rfl, rfl⟩
  exact hsessions.arena.left hi

/-! ## Histories -/

/-- Between runs the body section is declared like the properties, so declarations tell all. -/
theorem AtRest.declaredAlike {cx : Context} (hs : AtRest cx s) (ht : AtRest cx t)
    (h : ∀ field, s.app.declared.lookup field = t.app.declared.lookup field) :
    s.app.DeclaredAlike t.app where
  declared := h
  body := by
    have hbody : ∀ {a : App}, a.Coherent → a.body.isSome = (a.declared.lookup "body").isSome := by
      intro a ha
      have hbody : a.body.isSome = true ↔ "body" ∈ a.fields := ha
      rw [Bool.eq_iff_iff, hbody, List.lookup_isSome_iff, App.fields, List.mem_map]
      exact exists_congr fun x => and_congr_right fun _ => eq_comm.trans beq_iff_eq.symm
    rw [hbody hs.coherent, hbody ht.coherent, h]

/-- Runs in one session are isolated. A run leaves the frames that it finds as they are. And after
any two histories, each of them any programs run one after another, with failures or without, a
program runs alike if the counters are the same and the same properties and the body section have
been declared in the same places: it fails alike or succeeds, it prints the same, and the frames that
it adds are the same but for the shift from the one arena to the other. -/
theorem run_isolated (cx : Context) (allowance : Nat) (path : String) (p : Program) :
    let cx : Context := { cx with reclamation := .eager }
    (∀ s, AtRest cx s → ∀ i < s.arena.size,
      (Session.run cx allowance path p s).2.arena.frame? i = s.arena.frame? i) ∧
    ∀ s t, AtRest cx s → AtRest cx t → s.meter = t.meter →
      (∀ field, s.app.declared.lookup field = t.app.declared.lookup field) →
      let left := Session.run cx allowance path p s
      let right := Session.run cx allowance path p t
      left.1 = right.1 ∧ left.2.output = right.2.output ∧
        ∀ k, right.2.arena.frame? (t.arena.size + k) =
          (left.2.arena.frame? (s.arena.size + k)).map (s.shift t).frame := by
  intro cx
  refine ⟨fun s _ i hi => run_frame?_of_lt cx rfl allowance path p s hi, ?_⟩
  intro s t hs ht hmeter hdeclared left right
  obtain ⟨hfailure, w, hsessions⟩ := run_beside cx cx rfl rfl rfl rfl allowance path p hmeter
    (hs.inBody_eq.trans ht.inBody_eq.symm) (hs.declaredAlike ht hdeclared)
  exact ⟨hfailure, hsessions.output, hsessions.arena.frame?_right⟩

/-- Isolation of a program that declares and calls a function. One history has left two frames, the
other one three, but both have counted three steps. -/
theorem run_isolated_call :
    let cx : Context := { settings := {}, patience := 5 }
    ∃ a b p, let s := (Session.run cx 20 "" a {}).2
      let t := (Session.run cx 20 "" b {}).2
      let left := Session.run cx 20 "" p s
      let right := Session.run cx 20 "" p t
      (s.arena.size = 2 ∧ t.arena.size = 3 ∧ left.1 = none ∧ left.2.output = "hi\n") ∧
        (∀ i < s.arena.size, left.2.arena.frame? i = s.arena.frame? i) ∧
        left.1 = right.1 ∧ left.2.output = right.2.output ∧
        ∀ k, right.2.arena.frame? (t.arena.size + k) =
          (left.2.arena.frame? (s.arena.size + k)).map (s.shift t).frame := by
  intro cx
  obtain ⟨a, b, p, hmeter, hdeclared, hdeclared', hruns⟩ : ∃ a b p,
      let s := (Session.run cx 20 "" a {}).2
      let t := (Session.run cx 20 "" b {}).2
      let left := Session.run cx 20 "" p s
      s.meter = t.meter ∧ s.app.declared = [] ∧ t.app.declared = [] ∧
        s.arena.size = 2 ∧ t.arena.size = 3 ∧ left.1 = none ∧ left.2.output = "hi\n" := by
    refine ⟨⟨⟨1, 1⟩, [.declare ⟨1, 1⟩ .let "a" (some (.number ⟨1, 9⟩ (.int 1) "1")),
        .declare ⟨1, 12⟩ .let "b" (some (.number ⟨1, 20⟩ (.int 2) "2"))]⟩,
      ⟨⟨1, 1⟩, [.block (.mk ⟨1, 1⟩ [.func ⟨1, 3⟩ "h" [] (.mk ⟨1, 12⟩ [])])]⟩,
      ⟨⟨1, 1⟩, [.func ⟨1, 1⟩ "f" ["x"]
          (.mk ⟨1, 11⟩ [.return ⟨1, 13⟩ (some (.ident ⟨1, 20⟩ "x"))]),
        .expr ⟨1, 25⟩ (.call ⟨1, 25⟩ (.ident ⟨1, 25⟩ "print")
          [.call ⟨1, 31⟩ (.ident ⟨1, 31⟩ "f") [.string ⟨1, 33⟩ "hi"]])]⟩,
      ?_, ?_, ?_, ?_, ?_, ?_, ?_⟩ <;> cbv
  have hs : AtRest cx (Session.run cx 20 "" a {}).2 := .run 20 "" a .fresh
  have ht : AtRest cx (Session.run cx 20 "" b {}).2 := .run 20 "" b .fresh
  obtain ⟨hbefore, halike⟩ := run_isolated cx 20 "" p
  exact ⟨a, b, p, hruns, hbefore _ hs,
    halike _ _ hs ht hmeter fun field => by rw [hdeclared, hdeclared']⟩

/-! ## What a run leaves of the scopes that it opened -/

/-- Behind the frames that were there before, a run leaves the frame of its builtin functions, that
of its program, and beyond them only released frames, the last of which is captured. No body section
is being executed. -/
structure Cleared (s t : Session) : Prop where
  before {i : Nat} : i < s.arena.size → t.arena.frame? i = s.arena.frame? i
  builtins : ∃ f, t.arena.frame? s.arena.size = some f ∧ f.parent = none ∧
    f.names = ["print", "len"] ∧ f.released = false
  program : ∃ f, t.arena.frame? (s.arena.size + 1) = some f ∧ f.parent = some s.arena.size ∧
    f.released = false
  released {i : Nat} {f : Frame Value} :
    s.arena.size + 2 ≤ i → t.arena.frame? i = some f → f.released = true
  captured {f : Frame Value} : s.arena.size + 2 < t.arena.size →
    t.arena.frame? (t.arena.size - 1) = some f → f.captured = true
  active : t.active = none

/-- What was opened for a run is there afterwards, whether the run succeeds or fails. -/
theorem AtRest.cleared {cx : Context} (heager : cx.reclamation = .eager) (hs : AtRest cx s)
    (allowance : Nat) (path : String) (p : Program) :
    s.Cleared (Session.run cx allowance path p s).2 := by
  obtain ⟨f, hevolves, -⟩ := Session.run_evolves cx allowance path p s
  have hrestored := hevolves.restored heager (settled_opened _)
  obtain ⟨-, w, hsessions⟩ := run_beside (s := s) (t := s) cx cx rfl rfl heager heager allowance
    path p rfl rfl ⟨fun _ => rfl, rfl⟩
  have hsize : s.opened.arena.size = s.arena.size + 2 := s.size_opened
  constructor
  · exact fun hi => run_frame?_of_lt cx heager allowance path p s hi
  · obtain ⟨g, hg, hroot⟩ := hsessions.arena.root
    exact ⟨g, hg, hroot.parent, hroot.names, hroot.released⟩
  · obtain ⟨g, hg, hkept⟩ := hrestored.le (s.arena.size + 1) { parent := some s.arena.size }
      (by rw [frame?_opened]; exact if_pos rfl)
    exact ⟨g, hg, hkept.parent, hkept.released⟩
  · intro i g hi hg
    exact hrestored.released (hsize.trans_le hi) hg
  · intro g hlt hg
    exact hrestored.captured (hsize.trans_lt hlt) hg
  · exact hevolves.active_eq.trans hs.active_eq

/-- A run that declares functions in the scope of its program only leaves no further frames. Visits
are recorded to tell where functions were declared; that does not change the run. -/
theorem size_run (cx : Context) (heager : cx.reclamation = .eager) (allowance : Nat) (path : String)
    (p : Program) (s : Session)
    (h : ∀ v ∈ (Session.run { cx with recording := true } allowance path p s).2.visits,
      v.node.IsFunction → v.scope ≤ s.arena.size + 1) :
    (Session.run cx allowance path p s).2.arena.size = s.arena.size + 2 := by
  obtain ⟨-, w, hsessions⟩ := run_beside (s := s) (t := s) cx { cx with recording := true } rfl rfl
    heager heager allowance path p rfl rfl ⟨fun _ => rfl, rfl⟩
  obtain ⟨f, hevolves, -⟩ := Session.run_evolves { cx with recording := true } allowance path p s
  have heager' : ({ cx with recording := true } : Context).reclamation = .eager := heager
  have hrestored := hevolves.restored heager' (settled_opened _)
  have huncaptured := hevolves.uncaptured (n := s.arena.size + 2) rfl
    (fun v hv hfunction => Nat.lt_succ_of_le (h v hv hfunction)) fun i g hi hg => by
      have hlt := Arena.lt_size_of_frame? hg
      rw [size_opened] at hlt
      exact absurd hi hlt.not_ge
  generalize (Session.run { cx with recording := true } allowance path p s).2 = t at *
  -- a further frame would be captured on top, but none is
  have hsize : s.arena.size + 2 = t.arena.size := by
    rw [← s.size_opened]
    refine (Arena.size_le_of_le hrestored.le).antisymm (not_lt.mp fun hlt => ?_)
    obtain ⟨g, hg⟩ := Arena.exists_frame? (Nat.sub_lt (Nat.zero_lt_of_lt hlt) Nat.one_pos)
    have hcaptured := hrestored.captured hlt hg
    rw [huncaptured _ g (by rw [← s.size_opened]; exact Nat.le_sub_one_of_lt hlt) hg] at hcaptured
    cases hcaptured
  -- the run that is not recorded leaves as many
  obtain ⟨k, hleft, hright⟩ := hsessions.arena.size
  exact (hleft.trans hright.symm).trans hsize.symm

/-- Scopes and the body section are restored on every exit. Whatever statement is executed in a
session that runs come to, and whether it completes in whatever way or fails: the frames that were
there are there afterwards, with their parents and as released as they were, the frames that were
added are released, the last of them is captured, and the body section that was being executed is
being executed again: the same section, with nothing but content appended to it. So a run leaves its
two scopes and beyond them released frames only, and none at all if it declares functions in the scope
of its program only. -/
theorem execute_restores (cx : Context) :
    let cx : Context := { cx with reclamation := .eager }
    (∀ s, Reachable cx s → ∀ allowance scope stmt,
      let t := Run.sessionAfter (Run.execute cx allowance scope stmt s)
      s.arena.Restored t.arena ∧ t.active = s.active ∧
        ∀ x ∈ s.app.body, ∃ y ∈ t.app.body, y.id = x.id ∧ y.style = x.style ∧
          x.content.toList <+: y.content.toList) ∧
    ∀ s, AtRest cx s → ∀ allowance path p,
      let t := (Session.run cx allowance path p s).2
      s.Cleared t ∧
        ((∀ v ∈ (Session.run { cx with recording := true } allowance path p s).2.visits,
          v.node.IsFunction → v.scope ≤ s.arena.size + 1) → t.arena.size = s.arena.size + 2) := by
  intro cx
  refine ⟨fun s hs allowance scope stmt => ?_, fun s hs allowance path p => ?_⟩
  · have hfollows := (Run.Evolves.execute_evaluate cx allowance).1 s.inBody scope stmt s rfl
    obtain ⟨f, hevolves⟩ := hfollows.exists_evolves
    have hextends := (hevolves.extends hs.coherent).1.app
    refine ⟨hevolves.restored rfl (hs.settled rfl), hevolves.active_eq, fun x hx => ?_⟩
    obtain ⟨y, hy, hstyle, hcontent⟩ := hextends.body x hx
    exact ⟨y, hy, hextends.id x hx y hy, hstyle, hcontent⟩
  · exact ⟨hs.cleared rfl allowance path p, size_run cx rfl allowance path p s⟩

/-- A block that declares a function leaves a third frame, and a program with a block that calls one
leaves two. -/
theorem execute_restores_func :
    let cx : Context := { settings := {}, patience := 5 }
    ∃ stmt p, let s : Session := opened {}
      let t := Run.sessionAfter (Run.execute cx 20 1 stmt s)
      let u := (Session.run cx 20 "" p {}).2
      (Reachable cx s ∧ t.arena.size = 3 ∧ s.arena.Restored t.arena ∧ t.active = s.active) ∧
        Cleared {} u ∧ u.arena.size = 2 := by
  intro cx
  obtain ⟨stmt, hsize⟩ : ∃ stmt,
      (Run.sessionAfter (Run.execute cx 20 1 stmt (opened {}))).arena.size = 3 :=
    ⟨.block (.mk ⟨1, 1⟩ [.func ⟨1, 3⟩ "h" [] (.mk ⟨1, 12⟩ [])]), by cbv⟩
  obtain ⟨p, hvisits⟩ : ∃ p,
      ((Session.run { cx with recording := true } 20 "" p {}).2.visits.toList.map
        fun v => (v.scope, v.node.IsFunction)) =
        [(1, False), (1, True), (1, False), (2, False), (2, False), (2, False)] :=
    ⟨⟨⟨1, 1⟩, [.func ⟨1, 1⟩ "f" [] (.mk ⟨1, 10⟩ []),
      .block (.mk ⟨2, 1⟩ [.expr ⟨2, 3⟩ (.call ⟨2, 3⟩ (.ident ⟨2, 3⟩ "f") [])])]⟩, by cbv⟩
  have hreachable : Reachable cx (opened {}) := ⟨{}, [], .fresh, .here _⟩
  obtain ⟨hexecute, hrun⟩ := execute_restores cx
  obtain ⟨hrestored, hactive, -⟩ := hexecute _ hreachable 20 1 stmt
  obtain ⟨hcleared, hcount⟩ := hrun {} .fresh 20 "" p
  refine ⟨stmt, p, ⟨hreachable, hsize, hrestored, hactive⟩, hcleared, hcount fun v hv hfunction => ?_⟩
  have hmem := List.mem_map_of_mem (f := fun v : Visit => (v.scope, v.node.IsFunction))
    (Array.mem_toList_iff.mpr hv)
  rw [hvisits] at hmem
  -- the only function is declared in the scope of the program
  simp only [List.mem_cons, Prod.mk.injEq, List.not_mem_nil, or_false, eq_iff_iff, iff_false,
    hfunction, not_true_eq_false, and_false, and_true, false_or] at hmem
  exact hmem.le

end Session

end MiniApp
