import MiniApp.Proofs.Eval.Counters
import MiniApp.Proofs.Eval.Growth

/-!
# Scopes that are left are put back

A scope is released when it is left, whatever happened in it, and so runs put the arena back: what was
there before is there afterwards, and what stays of the rest is released. No frame that was added is
captured unless a function has been declared in it. The body section that is being executed is put
back too, and it is the application's own: a section is executed only from where it has been declared
until its content has been executed, and no section takes its place.

## Main definitions

* `Session.Uncaptured`: sessions without captured frames from an index on
* `App.Coherent`: records in which a body section has been declared if and only if there is one
* `Session.Owned`: the section that is being executed is the application's own
* `Session.AtRest`, `Session.Reachable`: sessions between runs and within them

## Main results

* `Session.Evolves.restored`: sessions that evolve
* `Session.Evolves.uncaptured`: no frame is captured unless a function is declared in it
* `Session.Evolves.extends`: nothing that was declared or emitted is taken back
* `Session.Reachable.owned`: at any moment of a run the section being executed is the application's
-/

namespace MiniApp

/-! ## Sessions that evolve -/

namespace Session

variable {cx : Context} {s t : Session} {f : Option RunFailure}

theorem Change.restored (h : s.Change cx t) : s.arena.Restored t.arena := by
  cases h with
  | defined hdefine =>
    rw [Arena.define_eq_ok hdefine]
    exact .modify _ _ (Arena.kept_bind _ _)
  | assigned hassign =>
    obtain ⟨owner, rfl⟩ := Arena.assign_eq_ok hassign
    exact .modify _ _ (Arena.kept_set _ _)
  | captured _ _ => exact .modify _ _ Arena.kept_capture
  | visited _ _ | counted _ | identified | printed _ _ | emitted _ _ | propertySet _ =>
    exact .refl _

/-- What runs do puts the arena back, whether it succeeds or fails. -/
theorem Evolves.restored (heager : cx.reclamation = .eager) (hsettled : s.arena.Settled)
    (h : s.Evolves cx f t) : s.arena.Restored t.arena := by
  have hleave : ∀ {s t : Session} {parent : Nat}, s.arena.Settled →
      (s.arena.allocate (some parent)).Restored t.arena →
      s.arena.Restored (t.arena.release cx.reclamation s.arena.size) := by
    intro s t parent hsettled h
    rw [heager]
    exact h.release hsettled
  induction h with
  | refl _ | fail _ _ | refusedStep _ | refusedCall _ => exact .refl _
  | change h => exact h.restored
  -- the session in between is settled again
  | trans _ _ ih ih' => exact (ih hsettled).trans (ih' ((ih hsettled).settled hsettled))
  | call _ _ ih => exact ih hsettled
  | scope _ ih => exact hleave hsettled (ih (Arena.settled_allocate _ _))
  | content _ _ ih => exact hleave hsettled (ih (Arena.settled_allocate _ _))

/-! ### Functions and captured frames -/

theorem Change.visits_subset (h : s.Change cx t) {v : Visit} (hv : v ∈ s.visits) :
    v ∈ t.visits := by
  cases h with
  | visited node scope => exact Array.mem_push_of_mem _ hv
  | _ => exact hv

/-- What has been recorded stays recorded. -/
theorem Evolves.visits_subset (h : s.Evolves cx f t) {v : Visit} (hv : v ∈ s.visits) :
    v ∈ t.visits := by
  induction h with
  | refl _ | fail _ _ | refusedStep _ | refusedCall _ => exact hv
  | change h => exact h.visits_subset hv
  | trans _ _ ih ih' => exact ih' (ih hv)
  | call _ _ ih | scope _ ih | content _ _ ih => exact ih hv

/-- No frame from an index on is captured. -/
def Uncaptured (n : Nat) (s : Session) : Prop :=
  ∀ i f, n ≤ i → s.arena.frame? i = some f → f.captured = false

/-- Functions have been declared below an index only, as far as is recorded. -/
def DeclaresBelow (n : Nat) (s : Session) : Prop :=
  ∀ v ∈ s.visits, v.node.IsFunction → v.scope < n

theorem Uncaptured.modify {n k : Nat} {h : Frame Value → Frame Value} (hs : s.Uncaptured n)
    (hh : n ≤ k → ∀ f, (h f).captured = f.captured) :
    Uncaptured n { s with arena := s.arena.modify k h } := by
  intro i g hi hg
  obtain ⟨f, hf, ⟨hk, rfl⟩ | ⟨-, rfl⟩⟩ := Arena.frame?_of_modify hg
  · rw [hh (hk ▸ hi)]
    exact hs i f hi hf
  · exact hs i g hi hf

theorem Uncaptured.allocate {n : Nat} (hs : s.Uncaptured n) (p : Option Nat) :
    Uncaptured n { s with arena := s.arena.allocate p } := by
  intro i g hi hg
  obtain ⟨-, rfl⟩ | hg := Arena.frame?_of_allocate hg
  · rfl
  · exact hs i g hi hg

theorem Uncaptured.closed {n k : Nat} (hs : s.Uncaptured n) : Uncaptured n (s.closed cx k) := by
  intro i g hi hg
  obtain ⟨f, hf, rfl⟩ := Arena.frame?_of_release hg
  split <;> exact hs i f hi hf

theorem Change.uncaptured {n : Nat} (hrecording : cx.recording = true) (h : s.Change cx t)
    (hbelow : t.DeclaresBelow n) (hs : s.Uncaptured n) : t.Uncaptured n := by
  cases h with
  | defined hdefine =>
    obtain rfl := Arena.define_eq_ok hdefine
    exact hs.modify fun _ _ => rfl
  | assigned hassign =>
    obtain ⟨owner, rfl⟩ := Arena.assign_eq_ok hassign
    exact hs.modify fun _ _ => rfl
  | captured _ hvisited =>
    -- the function that the scope is captured for was declared below the index
    obtain ⟨v, hv, rfl, hfunction⟩ := hvisited hrecording
    exact hs.modify fun hle => absurd (hbelow v hv hfunction) hle.not_gt
  | visited _ _ | counted _ | identified | printed _ _ | emitted _ _ | propertySet _ =>
    exact hs

/-- A frame is captured only if a function is declared in it. -/
theorem Evolves.uncaptured {n : Nat} (hrecording : cx.recording = true) (h : s.Evolves cx f t)
    (hbelow : t.DeclaresBelow n) (hs : s.Uncaptured n) : t.Uncaptured n := by
  induction h with
  | refl _ | fail _ _ | refusedStep _ | refusedCall _ => exact hs
  | change h => exact h.uncaptured hrecording hbelow hs
  | trans _ h' ih ih' => exact ih' hbelow (ih (fun v hv => hbelow v (h'.visits_subset hv)) hs)
  | call _ _ ih => exact ih hbelow hs
  | scope _ ih => exact (ih hbelow (hs.allocate _)).closed
  | content _ _ ih => exact (ih hbelow (hs.allocate _)).closed

end Session

/-! ### The body section -/

/-- A body section has been declared if and only if there is one. -/
def App.Coherent (a : App) : Prop := a.body.isSome = true ↔ "body" ∈ a.fields

namespace App.Coherent

variable {a b : App} {pos : Position}

theorem setProperty {p : Property} {value : Data} (ha : a.Coherent)
    (h : a.setProperty p value pos = .ok b) : b.Coherent := by
  obtain ⟨-, hfields, hbody, -⟩ := setProperty_eq_ok h
  have hfield : "body" ≠ p.field := by cases p <;> decide
  rw [Coherent, hfields, hbody, List.mem_append, List.mem_singleton, or_iff_left hfield]
  exact ha

theorem openBody {style : String} (h : a.openBody style pos = .ok b) : b.Coherent := by
  obtain ⟨-, hfields, hbody, -⟩ := openBody_eq_ok h
  rw [Coherent, hfields, hbody]
  simp

theorem emit (ha : a.Coherent) (id : Nat) (v : Value) : (a.emit id v).Coherent := by
  rw [Coherent, fields_emit, App.emit, Option.isSome_map]
  exact ha

end App.Coherent

namespace Session

variable {cx : Context} {s t : Session} {f : Option RunFailure} {names : List String}

theorem Change.extends (h : s.Change cx t) (hs : s.app.Coherent) :
    s.Extends t ∧ t.app.Coherent := by
  cases h with
  | printed pos text => exact ⟨⟨.refl _, by simp⟩, hs⟩
  | @emitted id v _ => exact ⟨⟨App.extends_emit _ id v, by simp⟩, hs.emit id v⟩
  | propertySet hset => exact ⟨⟨App.extends_setProperty hset, by simp⟩, hs.setProperty hset⟩
  | visited _ _ | counted _ | defined _ | assigned _ | captured _ _ | identified =>
    exact ⟨⟨.refl _, List.prefix_rfl⟩, hs⟩

/-- Runs only add to what was printed and declared; the body section that there was is still there,
with content appended. -/
theorem Evolves.extends (h : s.Evolves cx f t) (hs : s.app.Coherent) :
    s.Extends t ∧ t.app.Coherent := by
  induction h with
  | refl _ | fail _ _ | refusedStep _ | refusedCall _ => exact ⟨⟨.refl _, List.prefix_rfl⟩, hs⟩
  | change h => exact h.extends hs
  | trans _ _ ih ih' => exact ⟨(ih hs).1.trans (ih' (ih hs).2).1, (ih' (ih hs).2).2⟩
  | call _ _ ih | scope _ ih => exact ⟨⟨(ih hs).1.app, (ih hs).1.trace⟩, (ih hs).2⟩
  | content hopen _ ih =>
    -- the section is opened only where there was none, so no content is lost
    obtain ⟨hextends, hcoherent⟩ := ih (.openBody hopen)
    exact ⟨⟨(App.extends_openBody hs.mp hopen).trans hextends.app, hextends.trace⟩, hcoherent⟩

/-- The section that is being executed is the application's own. -/
def Owned (s : Session) : Prop := ∀ id ∈ s.active, ∃ x ∈ s.app.body, x.id = id

/-- A record that grows keeps the section that is being executed. -/
theorem Owned.extends (howned : s.Owned) (happ : s.app.Extends t.app)
    (hactive : t.active = s.active) : t.Owned := by
  intro id hid
  obtain ⟨x, hx, hxid⟩ := howned id (hactive ▸ hid)
  obtain ⟨y, hy, -⟩ := happ.body x hx
  exact ⟨y, hy, (happ.id x hx y hy).trans hxid⟩

/-- The section that is being executed is the one of before, and the application still has it. -/
theorem Evolves.owned (h : s.Evolves cx f t) (hs : s.app.Coherent) (howned : s.Owned) :
    t.Owned :=
  howned.extends (h.extends hs).1.app h.active_eq

/-- A section is the application's own when it begins to be executed. -/
theorem owned_of_openBody {style : String} {pos : Position} {app : App} {arena : Arena Value}
    (h : s.app.openBody style pos = .ok app) :
    Owned { s with app, arena, active := some s.app.nextSection } := by
  intro id hid
  obtain rfl := Option.some.inj hid
  obtain ⟨-, -, hbody, -⟩ := App.openBody_eq_ok h
  exact ⟨_, hbody, rfl⟩

/-! ## Sessions between runs and within them -/

/-- Sessions between runs: a fresh one, and what runs of any programs have left of it. -/
inductive AtRest (cx : Context) : Session → Prop
  | fresh : AtRest cx {}
  | run {s : Session} (allowance : Nat) (path : String) (p : Program) :
      AtRest cx s → AtRest cx (Session.run cx allowance path p s).2

/-- Sessions within a run. -/
def Reachable (cx : Context) (t : Session) : Prop :=
  ∃ s names, AtRest cx s ∧ ComesTo cx names (opened { s with trace := #[], visits := #[] }) t

theorem ComesTo.settled (heager : cx.reclamation = .eager) (h : ComesTo cx names s t)
    (hs : s.arena.Settled) : t.arena.Settled := by
  induction h with
  | here _ => exact hs
  | after h _ ih => exact ih ((h.restored heager hs).settled hs)
  | call _ _ ih => exact ih hs
  | scope _ ih | content _ _ ih => exact ih (Arena.settled_allocate _ _)

theorem ComesTo.coherent (h : ComesTo cx names s t) (hs : s.app.Coherent) : t.app.Coherent := by
  induction h with
  | here _ => exact hs
  | after h _ ih => exact ih (h.extends hs).2
  | call _ _ ih | scope _ ih => exact ih hs
  | content hopen _ ih => exact ih (.openBody hopen)

theorem ComesTo.owned (h : ComesTo cx names s t) (hs : s.app.Coherent) (howned : s.Owned) :
    t.Owned := by
  induction h with
  | here _ => exact howned
  | after h _ ih => exact ih (h.extends hs).2 (h.owned hs howned)
  | call _ _ ih | scope _ ih => exact ih hs howned
  | content hopen _ ih => exact ih (.openBody hopen) (owned_of_openBody hopen)

theorem settled_opened (s : Session) : s.opened.arena.Settled :=
  Arena.settled_allocate ⟨s.arena.frames.push (.builtins s.nextId)⟩ (some s.arena.size)

namespace AtRest

variable (h : AtRest cx s)
include h

theorem active_eq : s.active = none := by
  induction h with
  | fresh => rfl
  | @run s allowance path p _ ih =>
    obtain ⟨f, hevolves, -⟩ := Session.run_evolves cx allowance path p s
    exact hevolves.active_eq.trans ih

theorem inBody_eq : s.inBody = false := congrArg Option.isSome h.active_eq

theorem owned : s.Owned := fun _ hid => nomatch h.active_eq.symm.trans hid

theorem coherent : s.app.Coherent := by
  induction h with
  | fresh => exact ⟨fun h => (nomatch h), fun h => (nomatch h)⟩
  | @run s allowance path p _ ih =>
    obtain ⟨f, hevolves, -⟩ := Session.run_evolves cx allowance path p s
    exact (hevolves.extends ih).2

theorem depth_eq : s.meter.depth = s.meter.stack.length := by
  induction h with
  | fresh => rfl
  | @run s allowance path p _ ih =>
    obtain ⟨f, hevolves, -⟩ := Session.run_evolves cx allowance path p s
    exact hevolves.depth_eq ih

end AtRest

theorem Reachable.settled (heager : cx.reclamation = .eager) (h : Reachable cx t) :
    t.arena.Settled := by
  obtain ⟨s, names, -, hcomes⟩ := h
  exact hcomes.settled heager (settled_opened _)

theorem Reachable.coherent (h : Reachable cx t) : t.app.Coherent := by
  obtain ⟨s, names, hs, hcomes⟩ := h
  exact hcomes.coherent hs.coherent

theorem Reachable.owned (h : Reachable cx t) : t.Owned := by
  obtain ⟨s, names, hs, hcomes⟩ := h
  exact hcomes.owned hs.coherent hs.owned

end Session

end MiniApp
