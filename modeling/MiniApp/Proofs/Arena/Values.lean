import MiniApp.Proofs.Arena.Bindings

/-!
# Values in an arena

Whatever is done to an arena, it binds no other values than before, apart from those that it is
given. Frames may be reclaimed and their indices used again, but a frame that is captured stays for
good, and so do the names that are bound in it.

## Main definitions

* `Arena.Binds`: the values that an arena binds
* `Arena.Pins`: captured frames with a name bound in them
* `Arena.Advances`: arenas in which some values have been bound and nothing captured was lost

## Main results

* `Arena.advances_define`, `Arena.advances_assign`, `Arena.advances_release` and others: operations
-/

namespace MiniApp.Arena

variable {α : Type} {V : α → Prop} {a b c : Arena α} {i k : Nat} {name : String} {v : α}

/-- Some frame binds the value. -/
def Binds (a : Arena α) (v : α) : Prop :=
  ∃ i f, a.frame? i = some f ∧ ∃ x ∈ f.bindings, x.2.value = v

/-- The frame is captured and binds the name. -/
def Pins (a : Arena α) (i : Nat) (name : String) : Prop :=
  ∃ f, a.frame? i = some f ∧ f.captured = true ∧ name ∈ f.names

/-- The later arena binds values that have a property besides those of the earlier one, and whatever
was captured there is still there. -/
structure Advances (V : α → Prop) (a b : Arena α) : Prop where
  binds {v : α} : b.Binds v → V v ∨ a.Binds v
  pins {i : Nat} {name : String} : a.Pins i name → b.Pins i name

theorem Advances.refl (V : α → Prop) (a : Arena α) : a.Advances V a := ⟨.inr, id⟩

theorem Advances.trans (h : a.Advances V b) (h' : b.Advances V c) : a.Advances V c where
  binds hv := (h'.binds hv).elim .inl h.binds
  pins hi := h'.pins (h.pins hi)

theorem Advances.mono {W : α → Prop} (h : a.Advances V b) (hVW : ∀ v, V v → W v) :
    a.Advances W b := ⟨fun hv => (h.binds hv).imp_left (hVW _), h.pins⟩

/-! ## Operations -/

theorem binds_of_find? {f : Frame α} {x : Binding α} (hf : a.frame? i = some f)
    (hx : f.find? name = some x) : a.Binds x.value :=
  ⟨i, f, hf, (name, x), Frame.mem_bindings_of_find? hx, rfl⟩

/-- A change of one frame in which captured names stay. -/
theorem advances_modify {g : Frame α → Frame α}
    (hcaptured : ∀ f : Frame α, f.captured = true → (g f).captured = true)
    (hnames : ∀ f : Frame α, ∀ n ∈ f.names, n ∈ (g f).names)
    (hvalues : ∀ f : Frame α, ∀ y ∈ (g f).bindings,
      V y.2.value ∨ ∃ x ∈ f.bindings, x.2.value = y.2.value) :
    a.Advances V (a.modify k g) where
  binds := by
    rintro _ ⟨i, f', hf', y, hy, rfl⟩
    obtain ⟨f, hf, ⟨rfl, rfl⟩ | ⟨-, rfl⟩⟩ := frame?_of_modify hf'
    · exact (hvalues f y hy).imp_right fun hx => ⟨k, f, hf, hx⟩
    · exact .inr ⟨i, f', hf, y, hy, rfl⟩
  pins := by
    rintro i name ⟨f, hf, hf', hn⟩
    rw [Pins, frame?_modify, hf]
    split
    · exact ⟨g f, rfl, hcaptured f hf', hnames f name hn⟩
    · exact ⟨f, rfl, hf', hn⟩

theorem advances_allocate (parent : Option Nat) : a.Advances V (a.allocate parent) where
  binds := by
    rintro _ ⟨i, f, hf, y, hy, rfl⟩
    obtain ⟨-, rfl⟩ | hf := frame?_of_allocate hf
    · exact absurd hy List.not_mem_nil
    · exact .inr ⟨i, f, hf, y, hy, rfl⟩
  pins := by
    rintro i name ⟨f, hf, hcaptured⟩
    refine ⟨f, ?_, hcaptured⟩
    rw [frame?_allocate, if_neg (lt_size_of_frame? hf).ne, hf]

theorem advances_capture (k : Nat) : a.Advances V (a.capture k) :=
  advances_modify (fun _ _ => rfl) (fun _ _ => id) fun _ y hy => .inr ⟨y, hy, rfl⟩

theorem advances_define {x : Binding α} (hx : V x.value) (h : a.define i name x = .ok b) :
    a.Advances V b := by
  obtain rfl := define_eq_ok h
  refine advances_modify (fun _ => id) (fun f n hn => ?_) fun f y hy => ?_
  · rw [Frame.names_bind]
    exact List.mem_append_left _ hn
  · rcases List.mem_append.mp hy with hy | hy
    · exact .inr ⟨y, hy, rfl⟩
    · obtain rfl := List.mem_singleton.mp hy
      exact .inl hx

theorem advances_assign {pos : Position} (hv : V v) (h : a.assign i name v pos = .ok b) :
    a.Advances V b := by
  obtain ⟨owner, rfl⟩ := assign_eq_ok h
  refine advances_modify (fun _ => id) (fun f n hn => ?_) fun f y hy => ?_
  · rwa [Frame.names_set]
  · obtain ⟨x, hx, rfl⟩ := List.mem_map.mp hy
    split
    · exact .inl hv
    · exact .inr ⟨x, hx, rfl⟩

/-- What is captured is no garbage, so it stays when garbage is removed. -/
theorem advances_release (policy : Reclamation) (k : Nat) :
    a.Advances V (a.release policy k) where
  binds := by
    rintro _ ⟨i, g, hg, y, hy, rfl⟩
    obtain ⟨f, hf, rfl⟩ := frame?_of_release hg
    refine .inr ⟨i, f, hf, y, ?_, rfl⟩
    split at hy <;> exact hy
  pins := by
    intro i name hpins
    have hadvances : a.Advances V (a.modify k ({ · with released := true })) :=
      advances_modify (fun _ => id) (fun _ _ => id) fun _ y hy => .inr ⟨y, hy, rfl⟩
    have hmarked := hadvances.pins hpins
    cases policy with
    | never => exact hmarked
    | eager =>
      obtain ⟨f, hf, hcaptured, hn⟩ := hmarked
      -- reclamation stops at what is no garbage, and a captured frame is none
      have hgarbage : f.isGarbage = false := by simp [Frame.isGarbage, hcaptured]
      exact ⟨f, (frame?_release hf hgarbage le_rfl).trans hf, hcaptured, hn⟩

/-! ## What is found -/

/-- The value that is found for a name is bound in some frame. -/
theorem binds_of_lookup {pos : Position} (h : a.lookup i name pos = .ok v) : a.Binds v := by
  rw [lookup] at h
  split at h
  · next owner x hfound =>
    obtain rfl := Except.ok.inj h
    obtain ⟨f, hf, hx⟩ := (visible_of_locateFrom hfound).exists_frame?
    exact binds_of_find? hf hx
  · cases h
  · cases h

/-- A name that is bound in a captured frame is pinned there. -/
theorem pins_of_define {x : Binding α} (h : (a.capture i).define i name x = .ok b) :
    b.Pins i name := by
  obtain ⟨f, hf, -, hb, -⟩ := defines_of_define h
  obtain ⟨g, -, ⟨-, rfl⟩ | ⟨hne, -⟩⟩ := frame?_of_modify hf
  · refine ⟨_, hb, rfl, ?_⟩
    exact List.mem_map_of_mem (List.mem_append_right _ (List.mem_singleton_self _))
  · exact absurd rfl hne

/-- A name that is pinned in a frame cannot be bound there again. -/
theorem not_pins_of_define {x : Binding α} (h : a.define i name x = .ok b) : ¬ a.Pins i name := by
  rintro ⟨f, hf, -, hn⟩
  obtain ⟨g, hg, hfree, -⟩ := defines_of_define h
  obtain rfl := Option.some.inj (hf.symm.trans hg)
  exact Frame.not_mem_names_of_find? hfree hn

end MiniApp.Arena
