import Mathlib.Data.List.Basic
import Mathlib.Data.List.DropRight
import MiniApp.Scope

/-!
# Arenas frame by frame

What the operations on an arena do to the frame at each index. Reclaiming cuts the arena off above
the last frame that is not garbage. Bindings of two arenas that stand under the same names are found
together.

## Main results

* `lookup_entries`: a name is bound in both of two lists or in neither
* `Arena.frame?_allocate`, `Arena.frame?_modify`, `Arena.frame?_reclaim`
* `Arena.isGarbage_of_reclaim_le`, `Arena.not_isGarbage_of_reclaim`: how far an arena is reclaimed
-/

namespace MiniApp

section Entries

variable {α β : Type} {R : String × α → String × β → Prop} (hR : ∀ x y, R x y → x.1 = y.1)
variable {xs : List (String × α)} {ys : List (String × β)} (h : List.Forall₂ R xs ys)

include hR h

theorem names_eq_of_entries : xs.map (·.1) = ys.map (·.1) := by
  induction h with
  | nil => rfl
  | cons hxy _ ih => rw [List.map_cons, List.map_cons, hR _ _ hxy, ih]

/-- A name is bound in both lists or in neither. -/
theorem lookup_entries (name : String) :
    (xs.lookup name = none ∧ ys.lookup name = none) ∨
      ∃ a b, xs.lookup name = some a ∧ ys.lookup name = some b ∧ R (name, a) (name, b) := by
  induction h with
  | nil => exact .inl ⟨rfl, rfl⟩
  | @cons x y xs ys hxy _ ih =>
    obtain ⟨n, a⟩ := x
    obtain ⟨m, b⟩ := y
    obtain rfl : n = m := hR _ _ hxy
    by_cases hn : name = n
    · subst hn
      exact .inr ⟨a, b, List.lookup_cons_self, List.lookup_cons_self, hxy⟩
    · have hbeq : (name == n) = false := beq_eq_false_iff_ne.mpr hn
      rw [List.lookup_cons, List.lookup_cons, hbeq]
      exact ih

end Entries

namespace Frame

variable {α : Type} {f : Frame α} {name : String}

theorem names_bind (b : Binding α) : (f.bind name b).names = f.names ++ [name] := by
  simp [bind, names]

theorem names_set (value : α) : (f.set name value).names = f.names := by
  rw [names, set, names, List.map_map]
  apply List.map_congr_left
  intro entry _
  by_cases h : entry.1 = name <;> simp [h]

theorem mem_bindings_of_find? {b : Binding α} (h : f.find? name = some b) :
    (name, b) ∈ f.bindings := by
  obtain ⟨before, after, hb, -⟩ := List.lookup_eq_some_iff.mp h
  rw [hb]
  exact List.mem_append_right _ List.mem_cons_self

theorem mem_names_of_find? {b : Binding α} (h : f.find? name = some b) : name ∈ f.names :=
  List.mem_map_of_mem (mem_bindings_of_find? h)

end Frame

namespace Arena

variable {α : Type} {a : Arena α} {i k : Nat} {f : Frame α}

@[simp]
theorem size_allocate (parent : Option Nat) : (a.allocate parent).size = a.size + 1 :=
  Array.size_push ..

@[simp]
theorem size_modify (g : Frame α → Frame α) : (a.modify k g).size = a.size :=
  Array.size_modify

theorem lt_size_of_frame? (h : a.frame? i = some f) : i < a.size := by
  rw [frame?] at h
  exact (Array.getElem?_eq_some_iff.mp h).1

theorem frame?_allocate (parent : Option Nat) :
    (a.allocate parent).frame? i = if i = a.size then some { parent } else a.frame? i :=
  Array.getElem?_push

theorem frame?_modify (g : Frame α → Frame α) :
    (a.modify k g).frame? i = if k = i then (a.frame? i).map g else a.frame? i :=
  Array.getElem?_modify

/-- A frame that is there after an allocation is the new one, or was there before. -/
theorem frame?_of_allocate {parent : Option Nat} (h : (a.allocate parent).frame? i = some f) :
    i = a.size ∧ f = { parent } ∨ a.frame? i = some f := by
  rw [frame?_allocate] at h
  split at h
  · next hi => exact .inl ⟨hi, (Option.some.inj h).symm⟩
  · exact .inr h

/-- A frame that is there after a change was there before, and is the one changed or the same. -/
theorem frame?_of_modify {g : Frame α → Frame α} (h : (a.modify k g).frame? i = some f) :
    ∃ f', a.frame? i = some f' ∧ (k = i ∧ f = g f' ∨ k ≠ i ∧ f = f') := by
  rw [frame?_modify] at h
  split at h
  · next hk =>
    obtain ⟨f', hf, rfl⟩ := Option.map_eq_some_iff.mp h
    exact ⟨f', hf, .inl ⟨hk, rfl⟩⟩
  · next hk => exact ⟨f, h, .inr ⟨hk, rfl⟩⟩

/-! ## Chains -/

theorem chainFrom?_of_frame? (m : Nat) (h : a.frame? i = some f) :
    a.chainFrom? (m + 1) (some i) = (a.chainFrom? m f.parent).map (f :: ·) := by
  rw [chainFrom?, h]
  cases hparent : a.chainFrom? m f.parent with
  | none => simp [hparent]
  | some above => simp [hparent]

/-- Only where there is no frame to begin with is a chain empty. -/
theorem eq_none_of_chainFrom?_nil {m : Nat} {p : Option Nat} (h : a.chainFrom? m p = some []) :
    p = none := by
  cases p with
  | none => rfl
  | some i =>
    cases m with
    | zero => cases h
    | succ m =>
      cases hf : a.frame? i with
      | none => simp [chainFrom?, hf] at h
      | some f => simp [chainFrom?_of_frame? m hf] at h

/-- A chain goes from a frame to its parent. -/
theorem exists_of_chainFrom?_cons {m : Nat} {p : Option Nat} {frames : List (Frame α)}
    (h : a.chainFrom? m p = some (f :: frames)) :
    ∃ n i, m = n + 1 ∧ p = some i ∧ a.frame? i = some f ∧ a.chainFrom? n f.parent = some frames := by
  cases p with
  | none => cases m <;> cases h
  | some i =>
    cases m with
    | zero => cases h
    | succ m =>
      cases hf : a.frame? i with
      | none => simp [chainFrom?, hf] at h
      | some g =>
        rw [chainFrom?_of_frame? m hf] at h
        obtain ⟨above, habove, heq⟩ := Option.map_eq_some_iff.mp h
        cases heq
        exact ⟨m, i, rfl, rfl, hf, habove⟩

theorem locateFrom_none (name : String) (m : Nat) :
    a.locateFrom name m none = .unbound := by
  rw [locateFrom]

theorem locateFrom_of_frame? {name : String} (m : Nat) (h : a.frame? i = some f) :
    a.locateFrom name (m + 1) (some i) =
      match f.find? name with
      | some b => .bound i b
      | none => a.locateFrom name m f.parent := by
  cases hb : f.find? name <;> simp [locateFrom, h, hb]

/-- What resolution finds is bound in a frame of the chain. -/
theorem mem_chainFrom?_of_locateFrom {name : String} {m : Nat} {p : Option Nat} {b : Binding α}
    {frames : List (Frame α)} (hchain : a.chainFrom? m p = some frames)
    (hfound : a.locateFrom name m p = .bound k b) : ∃ f ∈ frames, f.find? name = some b := by
  -- resolution visits the frames of the chain one after the other
  induction frames generalizing m p with
  | nil =>
    obtain rfl := eq_none_of_chainFrom?_nil hchain
    rw [locateFrom_none] at hfound
    cases hfound
  | cons f frames ih =>
    obtain ⟨n, i, rfl, rfl, hf, habove⟩ := exists_of_chainFrom?_cons hchain
    rw [locateFrom_of_frame? n hf] at hfound
    split at hfound
    · next c hc =>
      obtain ⟨-, rfl⟩ := Found.bound.inj hfound
      exact ⟨f, List.mem_cons_self, hc⟩
    · obtain ⟨g, hg, hb⟩ := ih habove hfound
      exact ⟨g, List.mem_cons_of_mem _ hg, hb⟩

/-- The names that frames show are known once the names of each frame are. -/
theorem namesOf_congr {β : Type} {fs : List (Frame α)} {gs : List (Frame β)}
    (h : fs.map Frame.names = gs.map Frame.names) : namesOf fs = namesOf gs := by
  rw [namesOf, namesOf, List.flatMap_def, List.flatMap_def, h]

/-! ## Reclaiming -/

theorem toList_reclaim (a : Arena α) :
    a.reclaim.frames.toList = a.frames.toList.rdropWhile (·.isGarbage) := by
  have h := List.popWhile_toArray (·.isGarbage) a.frames.toList
  rw [Array.toArray_toList] at h
  rw [reclaim, h]
  rfl

/-- An arena is what stays of it and garbage on top. -/
theorem exists_garbage (a : Arena α) :
    ∃ garbage, a.frames.toList = a.reclaim.frames.toList ++ garbage ∧
      ∀ f ∈ garbage, f.isGarbage = true := by
  refine ⟨a.frames.toList.rtakeWhile (·.isGarbage), ?_, fun f hf => List.mem_rtakeWhile_imp hf⟩
  rw [toList_reclaim, List.rdropWhile_append_rtakeWhile]

theorem frame?_eq_toList (a : Arena α) (i : Nat) : a.frame? i = a.frames.toList[i]? :=
  Array.getElem?_toList.symm

theorem size_eq_length (a : Arena α) : a.size = a.frames.toList.length :=
  Array.length_toList.symm

theorem size_reclaim_le (a : Arena α) : a.reclaim.size ≤ a.size := by
  obtain ⟨garbage, h, -⟩ := a.exists_garbage
  rw [size_eq_length, size_eq_length, h, List.length_append]
  omega

/-- Below the cut the frames stay. -/
theorem frame?_reclaim (h : i < a.reclaim.size) : a.reclaim.frame? i = a.frame? i := by
  obtain ⟨garbage, heq, -⟩ := a.exists_garbage
  rw [size_eq_length] at h
  rw [frame?_eq_toList, frame?_eq_toList, heq, List.getElem?_append_left h]

/-- Above the cut there was only garbage. -/
theorem isGarbage_of_reclaim_le (h : a.reclaim.size ≤ i) (hf : a.frame? i = some f) :
    f.isGarbage = true := by
  obtain ⟨garbage, heq, hgarbage⟩ := a.exists_garbage
  rw [size_eq_length] at h
  rw [frame?_eq_toList, heq, List.getElem?_append_right h] at hf
  exact hgarbage f (List.mem_of_getElem? hf)

/-- The topmost frame that stays is not garbage. -/
theorem not_isGarbage_of_reclaim (hf : a.reclaim.frame? (a.reclaim.size - 1) = some f) :
    f.isGarbage = false := by
  -- it is the last frame of the list, where dropping garbage has stopped
  rw [frame?_eq_toList, size_eq_length, toList_reclaim, ← List.getLast?_eq_getElem?] at hf
  obtain ⟨hne, rfl⟩ := List.mem_getLast?_eq_getLast hf
  exact Bool.eq_false_iff.mpr (List.rdropWhile_last_not _ _ hne)

end Arena

end MiniApp
