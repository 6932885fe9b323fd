import Mathlib
import MiniApp.Proofs.Arena.Bindings

/-!
# Bindings in runs

A run works on its arena by the operations on arenas and by nothing else, and none of the frames
that it finds is missing at any moment. So what is known of the bindings in an arena on which
operations are performed holds throughout every run.

## Main definitions

* `Session.Operates`: sessions whose arena has come to be that of another one by operations
* `Session.BindsExactly`: what binding and assigning in a session change

## Main results

* `Session.Evolves.operates`: runs operate on their arenas
* `Session.run_bindings`: bindings are stable
-/

namespace MiniApp

open Arena (Step Trajectory)

theorem Arena.step_allocate {α : Type} (a : Arena α) (parent : Option Nat) :
    a.Step (a.allocate parent) := by
  cases parent with
  | none => exact ⟨.root, rfl⟩
  | some p => exact ⟨.child p, rfl⟩

namespace Session

variable {cx : Context} {s t u : Session} {f : Option RunFailure}

/-- The arena of a session has come to be that of another one by operations, and at every moment all
its frames were there. The nodes that were come to meanwhile, if they are recorded, were come to in
the arenas of these moments, one after another. -/
def Operates (s t : Session) : Prop :=
  ∃ moments visits, Trajectory s.arena moments t.arena ∧ (∀ a ∈ moments, s.arena ≤ a) ∧
    t.visits.toList = s.visits.toList ++ visits ∧ (visits.map Visit.arena).Sublist moments

namespace Operates

theorem le (h : s.Operates t) : s.arena ≤ t.arena := by
  obtain ⟨moments, visits, htrajectory, hle, -, -⟩ := h
  exact hle _ (List.mem_of_getLast? htrajectory.last)

theorem of_eq (harena : t.arena = s.arena) (hvisits : t.visits = s.visits) : s.Operates t :=
  ⟨[s.arena], [], harena ▸ .single _, fun _ ha => (List.mem_singleton.mp ha).ge,
    by rw [hvisits, List.append_nil], List.nil_sublist _⟩

/-- One operation that keeps the frames. -/
theorem of_step (hstep : s.arena.Step t.arena) (hle : s.arena ≤ t.arena)
    (hvisits : t.visits = s.visits) : s.Operates t := by
  refine ⟨[s.arena, t.arena], [], (Trajectory.single _).cons hstep, fun a ha => ?_,
    by rw [hvisits, List.append_nil], List.nil_sublist _⟩
  rcases List.mem_pair.mp ha with rfl | rfl
  · exact le_rfl
  · exact hle

theorem visited (s : Session) (node : Node) (scope : Nat) :
    s.Operates { s with visits := s.visits.push ⟨node, scope, s.arena⟩ } :=
  ⟨[s.arena], [⟨node, scope, s.arena⟩], .single _, fun _ ha => (List.mem_singleton.mp ha).ge,
    Array.toList_push, List.Sublist.refl _⟩

theorem trans (h : s.Operates t) (h' : t.Operates u) : s.Operates u := by
  have hst := h.le
  obtain ⟨ms, vs, htrajectory, hle, hvisits, hsublist⟩ := h
  obtain ⟨ns, ws, htrajectory', hle', hvisits', hsublist'⟩ := h'
  refine ⟨ms ++ ns, vs ++ ws, htrajectory.append htrajectory', fun a ha => ?_, ?_, ?_⟩
  · rcases List.mem_append.mp ha with ha | ha
    · exact hle a ha
    · exact hst.trans (hle' a ha)
  · rw [hvisits', hvisits, List.append_assoc]
  · rw [List.map_append]
    exact hsublist.append hsublist'

/-- A scope is opened and left again. The frames that there were are there all the while, since the
topmost of them is not garbage. -/
theorem scope {parent : Nat} (hsettled : s.arena.Settled) (h : t.Operates u)
    (harena : t.arena = s.arena.allocate (some parent)) (hvisits : t.visits = s.visits)
    {v : Session} (hleft : v.arena = u.arena.release .eager s.arena.size)
    (hvisits' : v.visits = u.visits) : s.Operates v := by
  have htu := h.le
  obtain ⟨ms, vs, htrajectory, hle, hrecord, hsublist⟩ := h
  rw [harena] at htu htrajectory hle
  have hopen := Arena.step_allocate s.arena (some parent)
  have hsize : s.arena.size < u.arena.size := by
    have hle := Arena.size_le_of_le htu
    rwa [Arena.size_allocate, Nat.add_one_le_iff] at hle
  have hclose : Trajectory u.arena [u.arena, v.arena] v.arena :=
    (Trajectory.single _).cons
      ⟨.release s.arena.size, by rw [Arena.Command.perform_release hsize, hleft]⟩
  refine ⟨s.arena :: (ms ++ [u.arena, v.arena]), vs, (htrajectory.append hclose).cons hopen, ?_,
    ?_, ?_⟩
  · intro a ha
    have hallocate := Arena.le_allocate s.arena (some parent)
    rcases List.mem_cons.mp ha with rfl | ha
    · exact le_rfl
    · rcases List.mem_append.mp ha with ha | ha
      · exact hallocate.trans (hle a ha)
      · rcases List.mem_pair.mp ha with rfl | rfl
        · exact hallocate.trans htu
        · rw [hleft]
          exact Arena.le_release hsettled htu
  · rw [hvisits', hrecord, hvisits]
  · exact (hsublist.trans (List.sublist_append_left _ _)).cons _

end Operates

theorem Change.operates (h : s.Change cx t) : s.Operates t := by
  have hle := h.restored.le
  cases h with
  | visited node scope => exact .visited s node scope
  | @defined scope name x arena hdefine =>
    exact .of_step (.of_result (c := .define scope name x) hdefine) hle rfl
  | @assigned scope name v pos arena hassign =>
    exact .of_step (.of_result (c := .assign scope name v pos) hassign) hle rfl
  | @captured scope hscope _ =>
    exact .of_step ⟨.capture scope, (Arena.Command.perform_capture hscope).symm⟩ hle rfl
  | counted _ | identified | printed _ _ | emitted _ _ | propertySet _ => exact .of_eq rfl rfl

/-- Runs operate on their arenas. -/
theorem Evolves.operates (heager : cx.reclamation = .eager) (hsettled : s.arena.Settled)
    (h : s.Evolves cx f t) : s.Operates t := by
  induction h with
  | refl _ | fail _ _ | refusedStep _ | refusedCall _ => exact .of_eq rfl rfl
  | change h => exact h.operates
  | trans h _ ih ih' =>
    exact (ih hsettled).trans (ih' ((h.restored heager hsettled).settled hsettled))
  | call _ _ ih => exact ih hsettled
  | scope _ ih =>
    refine (ih (Arena.settled_allocate _ _)).scope hsettled rfl rfl ?_ rfl
    rw [Session.closed, heager]
  | content _ _ ih =>
    refine (ih (Arena.settled_allocate _ _)).scope hsettled rfl rfl ?_ rfl
    rw [Session.closed, heager]

theorem operates_allocate (s : Session) (parent : Option Nat) :
    s.Operates { s with arena := s.arena.allocate parent } :=
  .of_step (Arena.step_allocate s.arena parent) (Arena.le_allocate s.arena parent) rfl

/-- A name is bound in the frame that was opened last. -/
theorem operates_push (s : Session) {frames : Array (Frame Value)} {f : Frame Value} {name : String}
    (x : Binding Value) (h : f.find? name = none) :
    Operates { s with arena := ⟨frames.push f⟩ }
      { s with arena := ⟨frames.push (f.bind name x)⟩ } := by
  have hdefine : Arena.define ⟨frames.push f⟩ frames.size name x = .ok _ := Arena.define_push x h
  refine .of_step (.of_result (c := .define frames.size name x) hdefine) ?_ rfl
  rw [Arena.define_eq_ok hdefine]
  exact Arena.le_modify _ _ (Arena.kept_bind name x)

/-- The scopes of a run are opened by operations. -/
theorem operates_opened (s : Session) : s.Operates s.opened := by
  let print : Binding Value := ⟨.builtin ⟨s.nextId, "print", .print⟩, .builtin, ⟨0, 0⟩⟩
  let len : Binding Value := ⟨.builtin ⟨s.nextId + 1, "len", .len⟩, .builtin, ⟨0, 0⟩⟩
  let root : Frame Value := { parent := none }
  have hroot : s.Operates { s with arena := ⟨s.arena.frames.push root⟩ } :=
    s.operates_allocate none
  have hprint : Operates _ { s with arena := ⟨s.arena.frames.push (root.bind "print" print)⟩ } :=
    s.operates_push print rfl
  have hlen : Operates _ { s with arena := ⟨s.arena.frames.push (.builtins s.nextId)⟩ } :=
    s.operates_push (f := root.bind "print" print) len rfl
  have hinner := operates_allocate
    { s with arena := ⟨s.arena.frames.push (.builtins s.nextId)⟩ } (some s.arena.size)
  -- the identities of the builtin functions are not in the arena
  exact (((hroot.trans hprint).trans hlen).trans hinner).trans (.of_eq rfl rfl)

/-! ## What is changed -/

/-- Binding a name in a session adds one binding, assigning to one changes one value, and neither
these nor looking up a name change anything if they fail. -/
structure BindsExactly (s : Session) : Prop where
  define {t : Session} {scope : Nat} {name : String} {v : Value} {kind : BindingKind}
    {pos : Position} : Run.define scope name v kind pos s = .ok () t →
    t = { s with arena := t.arena } ∧ s.arena.Defines scope name ⟨v, kind, pos⟩ t.arena
  assign {t : Session} {scope : Nat} {name : String} {v : Value} {pos : Position} :
    Run.assign scope name v pos s = .ok () t →
    t = { s with arena := t.arena } ∧ s.arena.Assigns scope name v t.arena
  define_error {t : Session} {e : RunFailure} {scope : Nat} {name : String} {v : Value}
    {kind : BindingKind} {pos : Position} : Run.define scope name v kind pos s = .error e t → t = s
  assign_error {t : Session} {e : RunFailure} {scope : Nat} {name : String} {v : Value}
    {pos : Position} : Run.assign scope name v pos s = .error e t → t = s
  lookup_error {t : Session} {e : RunFailure} {scope : Nat} {name : String} {pos : Position} :
    Run.lookup scope name pos s = .error e t → t = s

theorem bindsExactly (h : s.arena.Distinct) : s.BindsExactly := by
  -- what a definition and an assignment do, then what they and a lookup leave when they fail
  constructor
  · intro t scope name v kind pos hdefine
    rw [Run.define] at hdefine
    cases hresult : s.arena.define scope name ⟨v, kind, pos⟩ with
    | ok arena =>
      rw [hresult] at hdefine
      cases hdefine
      exact ⟨rfl, Arena.defines_of_define hresult⟩
    | error e =>
      rw [hresult] at hdefine
      cases hdefine
  · intro t scope name v pos hassign
    rw [Run.assign] at hassign
    cases hresult : s.arena.assign scope name v pos with
    | ok arena =>
      rw [hresult] at hassign
      cases hassign
      exact ⟨rfl, Arena.assigns_of_assign h hresult⟩
    | error e =>
      rw [hresult] at hassign
      cases hassign
  · intro t e scope name v kind pos hdefine
    rw [Run.define] at hdefine
    split at hdefine <;> cases hdefine
    rfl
  · intro t e scope name v pos hassign
    rw [Run.assign] at hassign
    split at hassign <;> cases hassign
    rfl
  · intro t e scope name pos hlookup
    rw [Run.lookup] at hlookup
    split at hlookup <;> cases hlookup
    rfl

/-! ## Runs -/

theorem run_operates (heager : cx.reclamation = .eager) (allowance : Nat) (path : String)
    (p : Program) (s : Session) :
    Operates { s with visits := #[] } (Session.run cx allowance path p s).2 := by
  obtain ⟨f, hevolves, -⟩ := Session.run_evolves cx allowance path p s
  have hopened :
      Operates { s with visits := #[] } (opened { s with trace := #[], visits := #[] }) :=
    operates_opened { s with trace := #[], visits := #[] }
  exact hopened.trans (hevolves.operates heager (settled_opened _))

theorem Operates.reaches (h : s.Operates t) : Relation.ReflTransGen Step s.arena t.arena := by
  obtain ⟨moments, visits, htrajectory, -⟩ := h
  exact htrajectory.reaches

theorem AtRest.reaches (heager : cx.reclamation = .eager) (h : AtRest cx s) :
    Relation.ReflTransGen Step {} s.arena := by
  induction h with
  | fresh => exact .refl
  | run allowance path p _ ih => exact ih.trans (run_operates heager allowance path p _).reaches

theorem ComesTo.reaches {names : List String} (heager : cx.reclamation = .eager)
    (h : ComesTo cx names s t) (hsettled : s.arena.Settled) :
    Relation.ReflTransGen Step s.arena t.arena := by
  induction h with
  | here _ => exact .refl
  | after h _ ih =>
    exact (h.operates heager hsettled).reaches.trans
      (ih ((h.restored heager hsettled).settled hsettled))
  | call _ _ ih => exact ih hsettled
  | scope _ ih | content _ _ ih =>
    exact .head (Arena.step_allocate _ _) (ih (Arena.settled_allocate _ _))

theorem Reachable.reaches (heager : cx.reclamation = .eager) (h : Reachable cx t) :
    Relation.ReflTransGen Step {} t.arena := by
  obtain ⟨s, names, hs, hcomes⟩ := h
  have hopened := (operates_opened { s with trace := #[], visits := #[] }).reaches
  exact ((hs.reaches heager).trans hopened).trans (hcomes.reaches heager (settled_opened _))

/-- Bindings are stable. Whatever operations have been performed on an arena: binding a name adds
one binding to one frame, assigning to a name changes the value of its innermost visible binding,
which is not constant, and whatever operations come next, as long as a frame is there each of its
bindings is there, with its kind and the place of its declaration, and with its value if it is
constant. Runs, and within them executing any statement and evaluating any expression, come about by
such operations, from which no frame goes missing that was there at the beginning; and where
binding, assigning or looking up a name fails, the session is unchanged. -/
theorem run_bindings (cx : Context) :
    let cx : Context := { cx with reclamation := .eager }
    (∀ (α : Type) (a : Arena α), Relation.ReflTransGen Step {} a →
      (∀ i name x b, a.define i name x = .ok b → a.Defines i name x b) ∧
      (∀ i name v pos b, a.assign i name v pos = .ok b → a.Assigns i name v b) ∧
      ∀ moments b, Trajectory a moments b → ∀ i, (∀ c ∈ moments, i < c.size) →
        moments.Pairwise (Arena.Stays i)) ∧
    (∀ s, AtRest cx s → ∀ allowance path p,
      Operates { s with visits := #[] } (Session.run cx allowance path p s).2) ∧
    ∀ s, Reachable cx s → Relation.ReflTransGen Step {} s.arena ∧ s.BindsExactly ∧
      ∀ allowance scope,
        (∀ stmt, s.Operates (Run.sessionAfter (Run.execute cx allowance scope stmt s))) ∧
        ∀ e, s.Operates (Run.sessionAfter (Run.evaluate cx allowance scope e s)) := by
  intro cx
  refine ⟨fun α a ha => ⟨?_, ?_, ?_⟩, ?_, fun s hs => ⟨hs.reaches rfl, ?_, ?_⟩⟩
  · exact fun i name x b h => Arena.defines_of_define h
  · exact fun i name v pos b h => Arena.assigns_of_assign (Arena.Distinct.empty.of_steps ha) h
  · exact fun moments b h i hi => h.stays hi
  · exact fun s _ allowance path p => run_operates rfl allowance path p s
  · exact bindsExactly (Arena.Distinct.empty.of_steps (hs.reaches rfl))
  · intro allowance scope
    obtain ⟨hexecute, hevaluate⟩ := Run.Evolves.execute_evaluate cx allowance
    constructor
    · intro stmt
      obtain ⟨f, hevolves⟩ := (hexecute s.inBody scope stmt s rfl).exists_evolves
      exact hevolves.operates rfl (hs.settled rfl)
    · intro e
      obtain ⟨f, hevolves⟩ := (hevaluate s.inBody scope e s rfl).exists_evolves
      exact hevolves.operates rfl (hs.settled rfl)

/-- A builtin function that is assigned to, and a block with a constant that a function captures. -/
theorem run_bindings_assign :
    let cx : Context := { settings := {}, patience := 5 }
    ∃ t stmt p, Run.assign 1 "len" (.number (.int 3)) ⟨1, 1⟩ (opened {}) = .ok () t ∧
      (opened {}).arena.Assigns 1 "len" (.number (.int 3)) t.arena ∧
      [(opened {}).arena, t.arena].Pairwise (Arena.Stays 0) ∧
      (Run.sessionAfter (Run.execute cx 20 1 stmt (opened {}))).arena.size = 3 ∧
      (opened {}).Operates (Run.sessionAfter (Run.execute cx 20 1 stmt (opened {}))) ∧
      (Session.run cx 20 "" p {}).2.arena.size = 3 ∧
      Operates {} (Session.run cx 20 "" p {}).2 := by
  intro cx
  obtain ⟨stmt, p, hexecute, hrun⟩ : ∃ stmt p,
      (Run.sessionAfter (Run.execute cx 20 1 stmt (opened {}))).arena.size = 3 ∧
      (Session.run cx 20 "" p {}).2.arena.size = 3 := by
    refine ⟨.block (.mk ⟨1, 1⟩
        [.declare ⟨1, 3⟩ .const "k" none, .func ⟨1, 12⟩ "f" [] (.mk ⟨1, 21⟩ [])]),
      ⟨⟨1, 1⟩, [.block (.mk ⟨1, 1⟩ [.func ⟨1, 3⟩ "f" [] (.mk ⟨1, 12⟩ [])])]⟩, ?_, ?_⟩
    · cbv
    · cbv
  obtain ⟨arena, harena, hsize⟩ : ∃ arena,
      (opened {}).arena.assign 1 "len" (.number (.int 3)) ⟨1, 1⟩ = .ok arena ∧ 0 < arena.size :=
    ⟨_, rfl, by decide⟩
  have hassign : Run.assign 1 "len" (.number (.int 3)) ⟨1, 1⟩ (opened {}) =
      .ok () { opened {} with arena } := by rw [Run.assign, harena]
  have hreachable : Reachable cx (opened {}) := ⟨{}, [], .fresh, .here _⟩
  obtain ⟨harenas, hruns, hsessions⟩ := run_bindings cx
  obtain ⟨hsteps, hbinds, hoperates⟩ := hsessions _ hreachable
  obtain ⟨-, hassigns⟩ := hbinds.assign hassign
  have hstep : Step (opened {}).arena arena :=
    .of_result (c := .assign 1 "len" (.number (.int 3)) ⟨1, 1⟩) harena
  have hpairwise := (harenas Value _ hsteps).2.2 _ _ ((Trajectory.single arena).cons hstep) 0
  refine ⟨_, stmt, p, hassign, hassigns, hpairwise fun c hc => ?_, hexecute,
    (hoperates 20 1).1 stmt, hrun, hruns {} .fresh 20 "" p⟩
  rcases List.mem_pair.mp hc with rfl | rfl
  · decide
  · exact hsize

end Session

end MiniApp
