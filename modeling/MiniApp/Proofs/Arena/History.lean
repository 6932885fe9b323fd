import Mathlib
import MiniApp.Proofs.Eval.Restoration

/-!
# Histories of arenas

An arena is worked on through handles, which are indices of frames: scopes are opened, captured and
released, in any order and as often as one likes, and names are bound, looked up and assigned to. As
long as every operation uses the handle of a frame that is there, the arena represents a forest of
scopes. Parents stand below their children, so every chain of parents comes to an end. A frame that
is captured is never reclaimed, and neither is anything below it.

## Main definitions

* `Arena.Command`, `Arena.Command.perform`: the operations on an arena, by handle
* `Arena.LiveStep`: operations through handles of frames that are there
* `Arena.WellFormed`: parents stand below their children, and no garbage is on top
* `Arena.Releases`: what is removed when a frame is released

## Main results

* `Arena.wellFormed_of_live`: arenas that only live handles have been used on
-/

namespace MiniApp

namespace Arena

variable {α : Type} {a b : Arena α} {i j k p : Nat} {f g : Frame α}

/-! ## Operations -/

/-- An operation on an arena, with the handle of the frame that it goes through. -/
inductive Command (α : Type) where
  | root
  | child (handle : Nat)
  | define (handle : Nat) (name : String) (b : Binding α)
  | lookup (handle : Nat) (name : String) (pos : Position)
  | assign (handle : Nat) (name : String) (value : α) (pos : Position)
  | capture (handle : Nat)
  | release (handle : Nat)

namespace Command

def handle? : Command α → Option Nat
  | .root => none
  | .child i | .define i _ _ | .lookup i _ _ | .assign i _ _ _ | .capture i | .release i => some i

/-- The frame of the handle is in the arena. -/
def Live (a : Arena α) (c : Command α) : Prop := ∀ i ∈ c.handle?, i < a.size

instance (a : Arena α) (c : Command α) : Decidable (c.Live a) :=
  inferInstanceAs (Decidable (∀ i ∈ c.handle?, i < a.size))

/-- What an operation makes of an arena, or why it fails. Capturing or releasing a frame fails if the
frame is not there, as the operations on names do. -/
def result (a : Arena α) : Command α → Except ScopeFailure (Arena α)
  | .root => .ok (a.allocate none)
  | .child i => .ok (a.allocate (some i))
  | .define i name x => a.define i name x
  | .lookup i name pos => (a.lookup i name pos).map fun _ => a
  | .assign i name v pos => a.assign i name v pos
  | .capture i => if i < a.size then .ok (a.capture i) else .error .dangling
  | .release i => if i < a.size then .ok (a.release .eager i) else .error .dangling

/-- The arena after an operation. One that fails leaves it as it was. -/
def perform (a : Arena α) (c : Command α) : Arena α :=
  match c.result a with
  | .ok b => b
  | .error _ => a

theorem perform_capture (hk : k < a.size) : (capture k).perform a = a.capture k := by
  rw [perform, result, if_pos hk]

theorem perform_release (hk : k < a.size) : (release k).perform a = a.release .eager k := by
  rw [perform, result, if_pos hk]

/-- Capturing a frame that is not there changes nothing, and so does releasing it. -/
theorem perform_capture_cases (a : Arena α) (k : Nat) :
    (capture k).perform a = a.capture k ∨ (capture k).perform a = a := by
  by_cases hk : k < a.size
  · exact .inl (perform_capture hk)
  · exact .inr (by rw [perform, result, if_neg hk])

theorem perform_release_cases (a : Arena α) (k : Nat) :
    (release k).perform a = a.release .eager k ∨ (release k).perform a = a := by
  by_cases hk : k < a.size
  · exact .inl (perform_release hk)
  · exact .inr (by rw [perform, result, if_neg hk])

/-- An operation opens a frame, releases one, or changes one in a way that keeps it. -/
theorem perform_cases (a : Arena α) (c : Command α) :
    (∃ parent, c.perform a = a.allocate parent ∧ (c.Live a → ∀ p ∈ parent, p < a.size)) ∨
      (∃ k h, c.perform a = a.modify k h ∧ ∀ f : Frame α, f.Kept (h f)) ∨
      (∃ k, c.perform a = a.release .eager k) ∨ c.perform a = a := by
  cases c with
  | root => exact .inl ⟨none, rfl, fun _ _ hp => nomatch hp⟩
  | child i => exact .inl ⟨some i, rfl, fun hlive => hlive⟩
  | define i name x =>
    cases h : a.define i name x with
    | ok b =>
      refine .inr (.inl ⟨i, (·.bind name x), ?_, kept_bind name x⟩)
      rw [perform, result, h]
      exact define_eq_ok h
    | error e => exact .inr (.inr (.inr (by rw [perform, result, h])))
  -- looking up changes nothing, whether it succeeds or fails
  | lookup i name pos =>
    refine .inr (.inr (.inr ?_))
    rw [perform, result]
    cases a.lookup i name pos <;> rfl
  | assign i name v pos =>
    cases h : a.assign i name v pos with
    | ok b =>
      obtain ⟨owner, rfl⟩ := assign_eq_ok h
      exact .inr (.inl ⟨owner, (·.set name v), by rw [perform, result, h], kept_set name v⟩)
    | error e => exact .inr (.inr (.inr (by rw [perform, result, h])))
  | capture i =>
    rcases perform_capture_cases a i with h | h
    · exact .inr (.inl ⟨i, _, h, kept_capture⟩)
    · exact .inr (.inr (.inr h))
  | release i =>
    rcases perform_release_cases a i with h | h
    · exact .inr (.inr (.inl ⟨i, h⟩))
    · exact .inr (.inr (.inr h))

end Command

/-- One operation through the handle of a frame that is there. -/
def LiveStep (a b : Arena α) : Prop := ∃ c : Command α, c.Live a ∧ b = c.perform a

/-! ## Forests of scopes -/

/-- Parents stand below their children, and the topmost frame is not garbage. -/
structure WellFormed (a : Arena α) : Prop where
  parent {i p : Nat} {f : Frame α} : a.frame? i = some f → f.parent = some p → p < i
  settled : a.Settled

theorem wellFormed_empty : WellFormed ({} : Arena α) where
  parent h := nomatch h
  settled _ h := nomatch h

namespace WellFormed

variable (ha : a.WellFormed)
include ha

theorem allocate {parent : Option Nat} (h : ∀ p ∈ parent, p < a.size) :
    (a.allocate parent).WellFormed where
  parent {i p f} hf hp := by
    obtain ⟨rfl, rfl⟩ | hf := frame?_of_allocate hf
    · exact h p hp
    · exact ha.parent hf hp
  settled := settled_allocate a parent

theorem modify (k : Nat) {h : Frame α → Frame α} (hh : ∀ f : Frame α, f.Kept (h f)) :
    (a.modify k h).WellFormed where
  parent {i p g} hg hp := by
    obtain ⟨f, hf, ⟨-, rfl⟩ | ⟨-, rfl⟩⟩ := frame?_of_modify hg
    · exact ha.parent hf ((hh f).parent ▸ hp)
    · exact ha.parent hf hp
  settled := (Restored.modify a k hh).settled ha.settled

theorem release (k : Nat) : (a.release .eager k).WellFormed where
  parent {i p g} hg hp := by
    obtain ⟨f, hf, rfl⟩ := frame?_of_release hg
    refine ha.parent hf ?_
    split at hp <;> exact hp
  settled := settled_release a k

theorem perform {c : Command α} (hlive : c.Live a) : (c.perform a).WellFormed := by
  obtain ⟨parent, h, hparent⟩ | ⟨k, g, h, hg⟩ | ⟨k, h⟩ | h := c.perform_cases a
  · rw [h]
    exact ha.allocate (hparent hlive)
  · rw [h]
    exact ha.modify k hg
  · rw [h]
    exact ha.release k
  · rw [h]
    exact ha

/-- Every chain of parents comes to an end within the arena. -/
theorem exists_chainFrom? (hi : i < a.size) {m : Nat} (hm : i < m) :
    ∃ frames, a.chainFrom? m (some i) = some frames := by
  induction i using Nat.strong_induction_on generalizing m with
  | _ i ih =>
    obtain ⟨f, hf⟩ := exists_frame? hi
    obtain ⟨m, rfl⟩ := Nat.exists_eq_add_one_of_ne_zero (Nat.ne_zero_of_lt hm)
    rw [chainFrom?_of_frame? m hf]
    cases hp : f.parent with
    | none => exact ⟨[f], by rw [chainFrom?]; rfl⟩
    | some p =>
      have hlt := ha.parent hf hp
      have hpm : p < m := by omega
      obtain ⟨above, habove⟩ := ih p hlt (hlt.trans hi) hpm
      exact ⟨f :: above, by rw [habove]; rfl⟩

theorem exists_chain? (hi : i < a.size) : ∃ frames, a.chain? i = some frames :=
  ha.exists_chainFrom? hi hi

end WellFormed

/-! ## Captured frames -/

/-- One frame is the parent of another one. -/
def IsParent (a : Arena α) (i p : Nat) : Prop := ∃ f, a.frame? i = some f ∧ f.parent = some p

/-- The frame at an index is still there, with its parent, and captured if it was captured. -/
def Lasts (a b : Arena α) (i : Nat) : Prop :=
  ∃ f g, a.frame? i = some f ∧ b.frame? i = some g ∧ g.parent = f.parent ∧
    (f.captured = true → g.captured = true)

theorem Lasts.of_le (hle : a ≤ b) (hf : a.frame? i = some f) : a.Lasts b i := by
  obtain ⟨g, hg, hkept⟩ := hle i f hf
  exact ⟨f, g, hf, hg, hkept.parent, hkept.captured⟩

theorem Lasts.trans {c : Arena α} (hab : a.Lasts b i) (hbc : b.Lasts c i) : a.Lasts c i := by
  obtain ⟨f, g, hf, hg, hparent, hcaptured⟩ := hab
  obtain ⟨g', k, hg', hk, hparent', hcaptured'⟩ := hbc
  obtain rfl := Option.some.inj (hg.symm.trans hg')
  exact ⟨f, k, hf, hk, hparent'.trans hparent, fun h => hcaptured' (hcaptured h)⟩

theorem le_of_isAncestor (ha : a.WellFormed) (h : Relation.ReflTransGen a.IsParent i j) :
    j ≤ i := by
  induction h with
  | refl => exact le_rfl
  | tail _ hparent ih =>
    obtain ⟨f, hf, hp⟩ := hparent
    exact (ha.parent hf hp).le.trans ih

/-- A captured frame holds up all frames below it. -/
theorem lasts_perform (hf : a.frame? i = some f) (hcaptured : f.captured = true) (hj : j ≤ i)
    (c : Command α) : a.Lasts (c.perform a) j := by
  obtain ⟨g, hg⟩ := exists_frame? (hj.trans_lt (lt_size_of_frame? hf))
  obtain ⟨parent, h, -⟩ | ⟨k, f', h, hkept⟩ | ⟨k, h⟩ | h := c.perform_cases a
  · rw [h]
    exact .of_le (le_allocate a parent) hg
  · rw [h]
    exact .of_le (le_modify a k hkept) hg
  · -- what is captured is no garbage, marked or not
    have hmarked : ∃ f', (a.modify k ({ · with released := true })).frame? i = some f' ∧
        f'.isGarbage = false := by
      rw [frame?_modify, hf]
      split
      · exact ⟨_, rfl, by simp [Frame.isGarbage, hcaptured]⟩
      · exact ⟨f, rfl, by simp [Frame.isGarbage, hcaptured]⟩
    obtain ⟨f', hf', hgarbage⟩ := hmarked
    rw [h]
    refine ⟨g, if k = j then { g with released := true } else g, hg, ?_, ?_, ?_⟩
    · rw [frame?_release hf' hgarbage hj, frame?_modify, hg]
      split <;> rfl
    · split <;> rfl
    · split <;> exact id
  · rw [h]
    exact .of_le le_rfl hg

/-- Whatever is done afterwards, a captured frame and all frames below it are still there. -/
theorem lasts_of_captured (hf : a.frame? i = some f) (hcaptured : f.captured = true) (hj : j ≤ i)
    (h : Relation.ReflTransGen LiveStep a b) : a.Lasts b i ∧ a.Lasts b j := by
  induction h with
  | refl =>
    obtain ⟨g, hg⟩ := exists_frame? (hj.trans_lt (lt_size_of_frame? hf))
    exact ⟨.of_le le_rfl hf, .of_le le_rfl hg⟩
  | tail _ hstep ih =>
    obtain ⟨c, -, rfl⟩ := hstep
    -- the frame is still captured, so the next operation removes nothing below it either
    obtain ⟨hi, hj'⟩ := ih
    obtain ⟨f', g, hf', hg, -, hstays⟩ := id hi
    obtain rfl := Option.some.inj (hf.symm.trans hf')
    exact ⟨hi.trans (lasts_perform hg (hstays hcaptured) le_rfl c),
      hj'.trans (lasts_perform hg (hstays hcaptured) hj c)⟩

/-- A frame that is marked as captured stays so, and its ancestors stay with it. -/
theorem captured_perform (ha : a.WellFormed) (hk : k < a.size)
    (hb : Relation.ReflTransGen LiveStep ((Command.capture k).perform a) b) :
    (∃ f, b.frame? k = some f ∧ f.captured = true) ∧
      ∀ j, Relation.ReflTransGen a.IsParent k j → a.Lasts b j := by
  obtain ⟨f, hf⟩ := exists_frame? hk
  have hmarked : ((Command.capture k).perform a).frame? k = some { f with captured := true } := by
    rw [Command.perform_capture hk, capture, frame?_modify, if_pos rfl, hf]
    rfl
  constructor
  · obtain ⟨⟨g, g', hg, hg', -, hstays⟩, -⟩ := lasts_of_captured hmarked rfl le_rfl hb
    obtain rfl := Option.some.inj (hmarked.symm.trans hg)
    exact ⟨g', hg', hstays rfl⟩
  · intro j hancestor
    have hj : j ≤ k := le_of_isAncestor ha hancestor
    obtain ⟨g, hg⟩ := exists_frame? (hj.trans_lt hk)
    have hcapture : a.Lasts ((Command.capture k).perform a) j := by
      rw [Command.perform_capture hk]
      exact .of_le (le_modify a k kept_capture) hg
    exact hcapture.trans (lasts_of_captured hmarked rfl hj hb).2

/-! ## Releasing -/

/-- The frame at an index is marked as released, garbage is removed from the top, as much of it as
there is, and nothing else happens. -/
structure Releases (a : Arena α) (k : Nat) (b : Arena α) : Prop where
  removed : ∃ garbage, (a.modify k ({ · with released := true })).frames.toList =
    b.frames.toList ++ garbage ∧ ∀ f ∈ garbage, f.isGarbage = true
  settled : b.Settled

theorem releases_perform (hk : k < a.size) : a.Releases k ((Command.release k).perform a) := by
  rw [Command.perform_release hk]
  exact ⟨exists_garbage _, settled_release a k⟩

/-! ## Histories -/

theorem WellFormed.of_live (ha : a.WellFormed) (h : Relation.ReflTransGen LiveStep a b) :
    b.WellFormed := by
  induction h with
  | refl => exact ha
  | tail _ hstep ih =>
    obtain ⟨c, hlive, rfl⟩ := hstep
    exact ih.perform hlive

/-- Whatever has been done to an arena through handles of frames that were there: parents stand
below their children, so that every chain of parents is complete; the topmost frame is not garbage;
a frame that is captured, with all its ancestors, stays in its place whatever is done next, and
capturing a frame makes it such a one for good; and releasing a frame removes the garbage on top and
nothing else. -/
theorem wellFormed_of_live (h : Relation.ReflTransGen LiveStep {} a) :
    a.WellFormed ∧ (∀ i < a.size, ∃ frames, a.chain? i = some frames) ∧
      (∀ b, Relation.ReflTransGen LiveStep a b → ∀ i f, a.frame? i = some f → f.captured = true →
        ∀ j, Relation.ReflTransGen a.IsParent i j → a.Lasts b j) ∧
      (∀ k < a.size, ∀ b, Relation.ReflTransGen LiveStep ((Command.capture k).perform a) b →
        (∃ f, b.frame? k = some f ∧ f.captured = true) ∧
          ∀ j, Relation.ReflTransGen a.IsParent k j → a.Lasts b j) ∧
      ∀ k < a.size, a.Releases k ((Command.release k).perform a) := by
  have ha : a.WellFormed := wellFormed_empty.of_live h
  refine ⟨ha, fun i hi => ha.exists_chain? hi, ?_, fun k hk b hb => captured_perform ha hk hb,
    fun k hk => releases_perform hk⟩
  intro b hb i f hf hcaptured j hancestor
  exact (lasts_of_captured hf hcaptured (le_of_isAncestor ha hancestor) hb).2

/-- A scope that is captured and released, twice, before another one inside it is. The inner one is
reclaimed; the outer one has been released too, but it is not. -/
theorem wellFormed_of_live_capture :
    ∃ a : Arena Nat, (Relation.ReflTransGen LiveStep {} a ∧ a.size = 2 ∧
        (a.frame? 1).map (·.released) = some true) ∧
      a.WellFormed ∧ (∀ i < a.size, ∃ frames, a.chain? i = some frames) ∧
      (∀ b, Relation.ReflTransGen LiveStep a b → ∀ i f, a.frame? i = some f → f.captured = true →
        ∀ j, Relation.ReflTransGen a.IsParent i j → a.Lasts b j) ∧
      (∀ k < a.size, ∀ b, Relation.ReflTransGen LiveStep ((Command.capture k).perform a) b →
        (∃ f, b.frame? k = some f ∧ f.captured = true) ∧
          ∀ j, Relation.ReflTransGen a.IsParent k j → a.Lasts b j) ∧
      ∀ k < a.size, a.Releases k ((Command.release k).perform a) := by
  have hstep : ∀ {a : Arena Nat} (c : Command Nat), Relation.ReflTransGen LiveStep {} a →
      decide (c.Live a) = true → Relation.ReflTransGen LiveStep {} (c.perform a) :=
    fun c h hlive => h.tail ⟨c, of_decide_eq_true hlive, rfl⟩
  have h := hstep (.release 2) (hstep (.release 1) (hstep (.release 1) (hstep (.capture 1)
    (hstep (.child 1) (hstep (.define 1 "x" ⟨7, .const, ⟨1, 3⟩⟩) (hstep (.child 0)
      (hstep .root .refl
        (by cbv)) (by cbv)) (by cbv)) (by cbv)) (by cbv)) (by cbv)) (by cbv)) (by cbv)
  exact ⟨_, ⟨h, by cbv, by cbv⟩, wellFormed_of_live h⟩

end Arena

end MiniApp
