import MiniApp.Proofs.Arena
import Mathlib.Order.Basic

/-!
# Arenas that are put back

A scope is released when it is left, and released frames are reclaimed from the top of the arena.
What was found is left in place: the frames that were there are still there, and the topmost of them
stops reclamation, since it is not garbage. What was added is released, so the frames that stay of it
are released ones below a captured one. A frame that has not been released stops reclamation too, so
it is there to be released, whatever has become of the arena above it.

## Main definitions

* `Frame.Kept` and the order of arenas: the frames of one arena are still there in another one
* `Arena.Settled`: arenas whose topmost frame is not garbage
* `Arena.Restored`: nothing but released frames below a captured one has been added
* `Arena.Open`: a frame that has not been released

## Main results

* `Arena.le_release`, `Arena.Restored.release`: leaving a scope puts the arena back
* `Arena.Open.release`: a scope stays open when one further in is left
-/

namespace MiniApp

/-- What may become of a frame while the scopes around it are entered and left: names may be bound in
it, their values may change, and it may be captured. -/
structure Frame.Kept {α : Type} (f g : Frame α) : Prop where
  parent : g.parent = f.parent
  released : g.released = f.released
  captured : f.captured = true → g.captured = true

namespace Frame.Kept

variable {α : Type} {f g h : Frame α}

theorem refl (f : Frame α) : f.Kept f := ⟨rfl, rfl, id⟩

theorem trans (hfg : f.Kept g) (hgh : g.Kept h) : f.Kept h :=
  ⟨hgh.parent.trans hfg.parent, hgh.released.trans hfg.released,
    fun hf => hgh.captured (hfg.captured hf)⟩

theorem not_isGarbage (hfg : f.Kept g) (hf : f.isGarbage = false) : g.isGarbage = false := by
  rw [isGarbage, Bool.and_eq_false_iff, Bool.not_eq_false'] at hf ⊢
  rw [hfg.released]
  exact hf.imp_right hfg.captured

end Frame.Kept

namespace Arena

variable {α : Type} {a b c : Arena α} {i k : Nat} {f g : Frame α} {p : Option Nat}

/-- The topmost frame is not garbage. -/
def Settled (a : Arena α) : Prop :=
  ∀ f, a.frame? (a.size - 1) = some f → f.isGarbage = false

/-- An arena is below another one if its frames are all there. -/
instance : Preorder (Arena α) where
  le a b := ∀ i f, a.frame? i = some f → ∃ g, b.frame? i = some g ∧ f.Kept g
  le_refl _ _ f h := ⟨f, h, .refl f⟩
  le_trans _ _ _ h h' i f hf := by
    obtain ⟨g, hg, hfg⟩ := h i f hf
    obtain ⟨k, hk, hgk⟩ := h' i g hg
    exact ⟨k, hk, hfg.trans hgk⟩

/-- The frames of an arena are all there in another one, and the further ones there are released, the
last of them being captured. -/
structure Restored (a b : Arena α) : Prop where
  le : a ≤ b
  released {i : Nat} {g : Frame α} : a.size ≤ i → b.frame? i = some g → g.released = true
  captured {g : Frame α} :
    a.size < b.size → b.frame? (b.size - 1) = some g → g.captured = true

theorem exists_frame? (h : i < a.size) : ∃ f, a.frame? i = some f :=
  ⟨_, Array.getElem?_eq_getElem h⟩

theorem size_le_of_le (h : a ≤ b) : a.size ≤ b.size := by
  rcases Nat.eq_zero_or_pos a.size with hzero | hpos
  · omega
  · obtain ⟨f, hf⟩ := exists_frame? (a := a) (Nat.sub_lt hpos Nat.one_pos)
    obtain ⟨g, hg, -⟩ := h _ f hf
    have := lt_size_of_frame? hg
    omega

/-! ## What keeps frames -/

theorem le_allocate (a : Arena α) (p : Option Nat) : a ≤ a.allocate p := by
  intro i f hf
  have hi : i ≠ a.size := (lt_size_of_frame? hf).ne
  exact ⟨f, by rw [frame?_allocate, if_neg hi, hf], .refl f⟩

theorem settled_allocate (a : Arena α) (p : Option Nat) : (a.allocate p).Settled := by
  intro f hf
  rw [size_allocate, Nat.add_sub_cancel, frame?_allocate, if_pos rfl] at hf
  obtain rfl := Option.some.inj hf
  rfl

theorem le_modify {h : Frame α → Frame α} (a : Arena α) (k : Nat)
    (hh : ∀ f : Frame α, f.Kept (h f)) :
    a ≤ a.modify k h := by
  intro i f hf
  rw [frame?_modify, hf]
  split
  · exact ⟨h f, rfl, hh f⟩
  · exact ⟨f, rfl, .refl f⟩

theorem kept_bind (name : String) (b : Binding α) (f : Frame α) : f.Kept (f.bind name b) :=
  ⟨rfl, rfl, id⟩

theorem kept_set (name : String) (v : α) (f : Frame α) : f.Kept (f.set name v) := ⟨rfl, rfl, id⟩

theorem kept_capture (f : Frame α) : f.Kept { f with captured := true } :=
  ⟨rfl, rfl, fun _ => rfl⟩

theorem define_eq_ok {name : String} {x : Binding α} (h : a.define i name x = .ok b) :
    b = a.modify i (·.bind name x) := by
  rw [define] at h
  split at h
  · cases h
  · split at h
    · cases h
    · exact (Except.ok.inj h).symm

theorem assign_eq_ok {name : String} {v : α} {pos : Position} (h : a.assign i name v pos = .ok b) :
    ∃ owner, b = a.modify owner (·.set name v) := by
  rw [assign] at h
  split at h
  · split at h
    · cases h
    · exact ⟨_, (Except.ok.inj h).symm⟩
  · cases h
  · cases h

/-! ## Leaving a scope -/

/-- A frame that is there after a release was there before. -/
theorem frame?_of_release {policy : Reclamation} (h : (a.release policy k).frame? i = some g) :
    ∃ f, a.frame? i = some f ∧ g = if k = i then { f with released := true } else f := by
  have hmarked : (a.modify k ({ · with released := true })).frame? i = some g := by
    cases policy with
    | never => exact h
    | eager =>
      rw [← frame?_reclaim (lt_size_of_frame? h)]
      exact h
  obtain ⟨f, hf, ⟨hk, rfl⟩ | ⟨hk, rfl⟩⟩ := frame?_of_modify hmarked
  · exact ⟨f, hf, (if_pos hk).symm⟩
  · exact ⟨g, hf, (if_neg hk).symm⟩

theorem settled_release (a : Arena α) (k : Nat) : (a.release .eager k).Settled :=
  fun _ => not_isGarbage_of_reclaim

/-- A frame that is no garbage once the scope is marked stays, and so does every frame below it. -/
theorem frame?_release (h : (a.modify k ({ · with released := true })).frame? i = some f)
    (hf : f.isGarbage = false) {j : Nat} (hj : j ≤ i) :
    (a.release .eager k).frame? j = (a.modify k ({ · with released := true })).frame? j := by
  have hsize : i < (a.modify k ({ · with released := true })).reclaim.size := by
    by_contra hle
    rw [isGarbage_of_reclaim_le (not_lt.mp hle) h] at hf
    cases hf
  exact frame?_reclaim (hj.trans_lt hsize)

/-- A frame that is there and has not been released. -/
def Open (a : Arena α) (i : Nat) : Prop := ∃ f, a.frame? i = some f ∧ f.released = false

theorem open_allocate (a : Arena α) (parent : Option Nat) : (a.allocate parent).Open a.size :=
  ⟨{ parent }, by rw [frame?_allocate, if_pos rfl], rfl⟩

namespace Open

variable (h : a.Open i)
include h

theorem lt_size : i < a.size := by
  obtain ⟨f, hf, -⟩ := h
  exact lt_size_of_frame? hf

theorem allocate (parent : Option Nat) : (a.allocate parent).Open i := by
  obtain ⟨f, hf, hfree⟩ := h
  exact ⟨f, by rw [frame?_allocate, if_neg (lt_size_of_frame? hf).ne, hf], hfree⟩

theorem modify (k : Nat) {g : Frame α → Frame α} (hg : ∀ f, (g f).released = f.released) :
    (a.modify k g).Open i := by
  obtain ⟨f, hf, hfree⟩ := h
  rw [Open, frame?_modify, hf]
  split
  · exact ⟨g f, rfl, (hg f).trans hfree⟩
  · exact ⟨f, rfl, hfree⟩

/-- A scope further in may be left: reclamation stops at the frame at the latest. -/
theorem release (policy : Reclamation) (hk : i < k) : (a.release policy k).Open i := by
  obtain ⟨f, hf, hfree⟩ := h
  have hmarked : (a.modify k ({ · with released := true })).frame? i = some f := by
    rw [frame?_modify, if_neg hk.ne', hf]
  refine ⟨f, ?_, hfree⟩
  cases policy with
  | never => exact hmarked
  | eager =>
    have hgarbage : f.isGarbage = false := by rw [Frame.isGarbage, hfree, Bool.false_and]
    rw [frame?_release hmarked hgarbage le_rfl, hmarked]

end Open

/-- Leaving the scope that was opened in a settled arena keeps the frames of that arena: the topmost
of them stops reclamation. -/
theorem le_release (hsettled : a.Settled) (h : a.allocate p ≤ b) : a ≤ b.release .eager a.size := by
  intro i f hf
  have hi := lt_size_of_frame? hf
  have hmarked : ∀ j < a.size,
      (b.modify a.size ({ · with released := true })).frame? j = b.frame? j := fun j hj => by
    rw [frame?_modify, if_neg hj.ne']
  -- the topmost frame of the old arena is no garbage, now as before
  obtain ⟨top, htop⟩ := exists_frame? (a := a) (Nat.sub_lt (Nat.zero_lt_of_lt hi) Nat.one_pos)
  obtain ⟨top', htop', hkept⟩ := (le_allocate a p).trans h _ top htop
  obtain ⟨g, hg, hfg⟩ := (le_allocate a p).trans h i f hf
  rw [← hmarked _ (by omega)] at htop' hg
  refine ⟨g, ?_, hfg⟩
  rw [frame?_release htop' (hkept.not_isGarbage (hsettled top htop)) (by omega), hg]

namespace Restored

theorem refl (a : Arena α) : a.Restored a where
  le := le_rfl
  released hi hg := absurd (lt_size_of_frame? hg) hi.not_gt
  captured h := absurd h (lt_irrefl _)

/-- An arena of the same size, in which the frames are kept. -/
theorem of_le (h : a ≤ b) (hsize : b.size = a.size) : a.Restored b where
  le := h
  released hi hg := absurd (lt_size_of_frame? hg) (hsize ▸ hi.not_gt)
  captured hlt := absurd hlt hsize.le.not_gt

theorem modify {h : Frame α → Frame α} (a : Arena α) (k : Nat)
    (hh : ∀ f : Frame α, f.Kept (h f)) :
    a.Restored (a.modify k h) :=
  .of_le (le_modify a k hh) (size_modify h)

theorem settled (hsettled : a.Settled) (h : a.Restored b) : b.Settled := by
  intro g hg
  rcases (size_le_of_le h.le).lt_or_eq with hlt | heq
  -- on top there is a frame that was added, or the one that was on top before
  · rw [Frame.isGarbage, h.captured hlt hg, Bool.not_true, Bool.and_false]
  · obtain ⟨f, hf⟩ := exists_frame? (a := a) (heq ▸ lt_size_of_frame? hg)
    rw [← heq] at hg
    obtain ⟨g', hg', hkept⟩ := h.le _ f hf
    obtain rfl := Option.some.inj (hg.symm.trans hg')
    exact hkept.not_isGarbage (hsettled f hf)

theorem trans (h : a.Restored b) (h' : b.Restored c) : a.Restored c where
  le := h.le.trans h'.le
  released {i g} hi hg := by
    rcases Nat.lt_or_ge i b.size with hlt | hge
    · obtain ⟨f, hf⟩ := exists_frame? hlt
      obtain ⟨g', hg', hkept⟩ := h'.le _ f hf
      obtain rfl := Option.some.inj (hg.symm.trans hg')
      rw [hkept.released, h.released hi hf]
    · exact h'.released hge hg
  captured {g} hlt hg := by
    rcases (size_le_of_le h'.le).lt_or_eq with hlt' | heq
    · exact h'.captured hlt' hg
    · obtain ⟨f, hf⟩ := exists_frame? (a := b) (heq ▸ lt_size_of_frame? hg)
      rw [← heq] at hg hlt
      obtain ⟨g', hg', hkept⟩ := h'.le _ f hf
      obtain rfl := Option.some.inj (hg.symm.trans hg')
      exact hkept.captured (h.captured hlt hf)

/-- Leaving a scope puts the arena back. What stays of the frames that were added is released now,
and what is on top of them is no garbage, so it is captured. -/
theorem release (hsettled : a.Settled) (h : (a.allocate p).Restored b) :
    a.Restored (b.release .eager a.size) := by
  have hreleased : ∀ {i : Nat} {g : Frame α}, a.size ≤ i →
      (b.release .eager a.size).frame? i = some g → g.released = true := by
    intro i g hi hg
    obtain ⟨f, hf, rfl⟩ := frame?_of_release hg
    split
    · rfl
    · next hne => exact h.released ((size_allocate p).trans_le (by omega)) hf
  refine ⟨le_release hsettled h.le, hreleased, fun {g} hlt hg => ?_⟩
  -- a released frame on top would have been reclaimed unless it is captured
  have hgarbage := settled_release b a.size g hg
  rw [Frame.isGarbage, hreleased (by omega) hg] at hgarbage
  simpa using hgarbage

end Restored

end Arena

end MiniApp
