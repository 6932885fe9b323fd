import MiniApp.Proofs.Arena
import MiniApp.Proofs.Eval.Pairing

/-!
# Arenas with twins

Two runs of one program, one of which reclaims frames while the other does not, use different
indices for the same scope. Every frame of the smaller arena has a *twin* in the larger one, and
stands for a list of layers of the program. Frames that were captured are never reclaimed, so what
functions refer to stays; the frames that an action finds are never reclaimed by it either, because
the topmost of them is not garbage.

## Main definitions

* `Slot`, `Twins`: what the frames of the smaller arena are, beside those of the larger one
* `Twins.likeness`: values that belong together
* `Twins.Matches`, `Twins.Arenas`: frames and arenas that belong together

## Main results

* `Twins.Arenas.chain`: chains belong together, and have one frame for every layer
* `Twins.Arenas.locate`: names are resolved alike
* `Twins.Arenas.allocate`, `Twins.Arenas.modify`, `Twins.Arenas.reclaim`: what keeps arenas together
-/

namespace MiniApp

/-- What a frame is beside another arena: the index of its twin, the layers that it stands for, and
its marks. -/
structure Slot where
  twin : Nat
  layers : List Layer
  captured : Bool := false
  released : Bool := false

namespace Slot

/-- The slot of a frame that may be taken from the top. -/
def isGarbage (s : Slot) : Bool := s.released && !s.captured

/-- What may become of a slot while the scope is open, or above an open scope: it may be captured. -/
structure Grows (s t : Slot) : Prop where
  twin : t.twin = s.twin
  layers : t.layers = s.layers
  released : t.released = s.released
  captured : s.captured = true → t.captured = true

theorem Grows.refl (s : Slot) : s.Grows s := ⟨rfl, rfl, rfl, id⟩

theorem Grows.trans {s t u : Slot} (h : s.Grows t) (h' : t.Grows u) : s.Grows u :=
  ⟨h'.twin.trans h.twin, h'.layers.trans h.layers, h'.released.trans h.released,
    fun hs => h'.captured (h.captured hs)⟩

theorem Grows.not_isGarbage {s t : Slot} (h : s.Grows t) (hs : s.isGarbage = false) :
    t.isGarbage = false := by
  rw [isGarbage, Bool.and_eq_false_iff, Bool.not_eq_false'] at hs ⊢
  rw [h.released]
  exact hs.imp_right h.captured

end Slot

/-- The slots of an arena, oldest first. Frames below the base were there before the runs began, and
have no slot. -/
structure Twins where
  base : Nat
  slots : List Slot

namespace Twins

/-- The slot at an index. -/
def slot? (w : Twins) (i : Nat) : Option Slot :=
  if i < w.base then none else w.slots[i - w.base]?

/-- The number of frames, with or without a slot. -/
def size (w : Twins) : Nat := w.base + w.slots.length

instance : Preorder Twins where
  le w w' := ∀ i s, w.slot? i = some s → ∃ t, w'.slot? i = some t ∧ s.Grows t
  le_refl _ _ s h := ⟨s, h, .refl s⟩
  le_trans _ _ _ h h' i s hs := by
    obtain ⟨t, ht, hst⟩ := h i s hs
    obtain ⟨u, hu, htu⟩ := h' i t ht
    exact ⟨u, hu, hst.trans htu⟩

/-- The topmost frame is not garbage. -/
def Settled (w : Twins) : Prop :=
  ∀ s, w.slot? (w.size - 1) = some s → s.isGarbage = false

/-- The frame `i` stands for the layers and has the twin `j`. -/
def Scope (w : Twins) (layers : List Layer) (i j : Nat) : Prop :=
  ∃ s, w.slot? i = some s ∧ s.twin = j ∧ s.layers = layers

/-- The frame `i` stands for the layers, has the twin `j` and has been captured. -/
def Captured (w : Twins) (layers : List Layer) (i j : Nat) : Prop :=
  ∃ s, w.slot? i = some s ∧ s.twin = j ∧ s.layers = layers ∧ s.captured = true

/-- Values belong together if they are equal except that functions refer to twins. -/
def likeness (known : List Layer → Node → Prop) : Likeness where
  World := Twins
  leeway := .exact
  ident := (· = ·)
  known := known
  captured := Captured

variable {known : List Layer → Node → Prop} {w w' : Twins} {layers : List Layer} {i j k : Nat}
variable {s t : Slot}

theorem Captured.scope (h : w.Captured layers i j) : w.Scope layers i j := by
  obtain ⟨s, hs, htwin, hlayers, -⟩ := h
  exact ⟨s, hs, htwin, hlayers⟩

theorem Scope.mono (hw : w ≤ w') (h : w.Scope layers i j) : w'.Scope layers i j := by
  obtain ⟨s, hs, rfl, rfl⟩ := h
  obtain ⟨t, ht, hst⟩ := hw i s hs
  exact ⟨t, ht, hst.twin, hst.layers⟩

theorem Captured.mono (hw : w ≤ w') (h : w.Captured layers i j) : w'.Captured layers i j := by
  obtain ⟨s, hs, rfl, rfl, hcaptured⟩ := h
  obtain ⟨t, ht, hst⟩ := hw i s hs
  exact ⟨t, ht, hst.twin, hst.layers, hst.captured hcaptured⟩

/-! ## Frames -/

/-- Bindings that belong together. -/
structure Bindings (known : List Layer → Node → Prop) (w : Twins) (x y : String × Binding Value) :
    Prop where
  name : x.1 = y.1
  kind : x.2.kind = y.2.kind
  pos : x.2.pos = y.2.pos
  value : (likeness known).Values w x.2.value y.2.value

/-- Parents that belong together: the twin's parent is the parent's twin, and a frame stands for one
layer more than its parent. -/
inductive Parents (w : Twins) (i : Nat) : List Layer → Option Nat → Option Nat → Prop
  | root (l : Layer) : Parents w i [l] none none
  | inner (l : Layer) {layers : List Layer} {k j : Nat} :
      k < i → w.Scope layers k j → Parents w i (l :: layers) (some k) (some j)

/-- Frames that belong together. -/
structure Matches (known : List Layer → Node → Prop) (w : Twins) (i : Nat) (s : Slot)
    (f g : Frame Value) : Prop where
  captured : f.captured = s.captured
  released : f.released = s.released
  bindings : List.Forall₂ (Bindings known w) f.bindings g.bindings
  names : ∀ n ∈ f.names, Layer.DeclaredIn s.layers n
  parent : Parents w i s.layers f.parent g.parent

theorem Bindings.mono {x y : String × Binding Value}
    (hw : ∀ layers i j, w.Captured layers i j → w'.Captured layers i j)
    (h : Bindings known w x y) : Bindings known w' x y :=
  { h with value := h.value.mono hw }

namespace Matches

variable {f g : Frame Value}

theorem isGarbage_eq (h : Matches known w i s f g) : f.isGarbage = s.isGarbage := by
  rw [Frame.isGarbage, Slot.isGarbage, h.captured, h.released]

theorem names_eq (h : Matches known w i s f g) : f.names = g.names :=
  names_eq_of_entries (fun _ _ hxy => hxy.name) h.bindings

/-- A frame of a chain is the last one, or it has a parent further down in the arena. -/
theorem parent_cases (h : Matches known w i s f g) :
    (f.parent = none ∧ g.parent = none ∧ ∃ l, s.layers = [l]) ∨
      ∃ k t l, k < i ∧ w.slot? k = some t ∧ f.parent = some k ∧ g.parent = some t.twin ∧
        s.layers = l :: t.layers := by
  have hparent := h.parent
  generalize s.layers = layers, f.parent = p, g.parent = q at hparent
  cases hparent with
  | root l => exact .inl ⟨rfl, rfl, l, rfl⟩
  | inner l hk hscope =>
    obtain ⟨t, ht, rfl, rfl⟩ := hscope
    exact .inr ⟨_, t, l, hk, ht, rfl, rfl, rfl⟩

/-- The names of a frame are declared by the first layer that it stands for. -/
theorem declares (h : Matches known w i s f g) {l : Layer} {rest : List Layer}
    (hlayers : s.layers = l :: rest) : f.Within l := by
  intro n hn
  obtain ⟨l', hl', hdeclares⟩ := h.names n hn
  rw [hlayers, List.head?_cons, Option.mem_some_iff] at hl'
  rwa [hl']

/-- A binding added to both frames. -/
theorem bind {name : String} {b c : Binding Value} (h : Matches known w i s f g)
    (hname : Layer.DeclaredIn s.layers name) (hb : Bindings known w (name, b) (name, c)) :
    Matches known w i s (f.bind name b) (g.bind name c) where
  captured := h.captured
  released := h.released
  bindings := List.rel_append h.bindings (.cons hb .nil)
  names n hn := by
    rw [Frame.names_bind, List.mem_append, List.mem_singleton] at hn
    rcases hn with hn | rfl
    · exact h.names n hn
    · exact hname
  parent := h.parent

/-- A value replaced in both frames. -/
theorem set {name : String} {v u : Value} (h : Matches known w i s f g)
    (hv : (likeness known).Values w v u) :
    Matches known w i s (f.set name v) (g.set name u) where
  captured := h.captured
  released := h.released
  bindings := by
    refine List.rel_map (fun x y hxy => ?_) h.bindings
    rw [hxy.name]
    split
    · exact { hxy with name := rfl, value := hv }
    · exact hxy
  names n hn := by
    rw [Frame.names_set] at hn
    exact h.names n hn
  parent := h.parent

end Matches

/-! ## Arenas -/

/-- Arenas that belong together. -/
structure Arenas (known : List Layer → Node → Prop) (w : Twins) (a b : Arena Value) : Prop where
  size : a.size = w.size
  frames {i : Nat} {s : Slot} : w.slot? i = some s →
    ∃ f g, a.frame? i = some f ∧ b.frame? s.twin = some g ∧ Matches known w i s f g
  ordered {i k : Nat} {s t : Slot} :
    i < k → w.slot? i = some s → w.slot? k = some t → s.twin < t.twin

namespace Arenas

variable {a b : Arena Value} (h : Arenas known w a b)
include h

theorem lt_size (hs : w.slot? i = some s) : i < a.size := by
  obtain ⟨f, g, hf, -, -⟩ := h.frames hs
  exact Arena.lt_size_of_frame? hf

theorem twin_lt_size (hs : w.slot? i = some s) : s.twin < b.size := by
  obtain ⟨f, g, -, hg, -⟩ := h.frames hs
  exact Arena.lt_size_of_frame? hg

/-- Different frames have different twins. -/
theorem twin_inj (hs : w.slot? i = some s) (ht : w.slot? k = some t) (heq : s.twin = t.twin) :
    i = k := by
  rcases Nat.lt_trichotomy i k with hik | rfl | hik
  · have := h.ordered hik hs ht
    omega
  · rfl
  · have := h.ordered hik ht hs
    omega

/-- A chain is followed in both arenas alike, and has one frame for every layer. -/
theorem chainFrom? (hs : w.slot? i = some s) {m n : Nat} (hm : i < m) (hn : s.twin < n) :
    ∃ fs gs, a.chainFrom? m (some i) = some fs ∧ b.chainFrom? n (some s.twin) = some gs ∧
      fs.map Frame.names = gs.map Frame.names ∧
      List.Forall₂ Frame.Within fs s.layers := by
  -- parents lie further down in both arenas, so the indices bound the lengths of the chains
  induction i using Nat.strong_induction_on generalizing s m n with
  | _ i ih =>
    obtain ⟨f, g, hf, hg, hmatches⟩ := h.frames hs
    obtain ⟨m, rfl⟩ : ∃ m', m = m' + 1 := ⟨m - 1, by omega⟩
    obtain ⟨n, rfl⟩ : ∃ n', n = n' + 1 := ⟨n - 1, by omega⟩
    rw [Arena.chainFrom?_of_frame? m hf, Arena.chainFrom?_of_frame? n hg]
    rcases hmatches.parent_cases with ⟨hp, hq, l, hl⟩ | ⟨k, t, l, hk, ht, hp, hq, hl⟩
    · refine ⟨[f], [g], ?_, ?_, ?_, ?_⟩
      · rw [hp, Arena.chainFrom?, Option.map_some]
      · rw [hq, Arena.chainFrom?, Option.map_some]
      · rw [List.map_singleton, List.map_singleton, hmatches.names_eq]
      · rw [hl]
        exact .cons (hmatches.declares hl) .nil
    · have htwin := h.ordered hk ht hs
      have hkm : k < m := by omega
      have htn : t.twin < n := by omega
      obtain ⟨fs, gs, hfs, hgs, hnames, hlayers⟩ := ih k hk ht hkm htn
      refine ⟨f :: fs, g :: gs, ?_, ?_, ?_, ?_⟩
      · rw [hp, hfs, Option.map_some]
      · rw [hq, hgs, Option.map_some]
      · rw [List.map_cons, List.map_cons, hmatches.names_eq, hnames]
      · rw [hl]
        exact .cons (hmatches.declares hl) hlayers

/-- The whole chain of a frame and that of its twin. -/
theorem chain? (hscope : w.Scope layers i j) :
    ∃ fs gs, a.chain? i = some fs ∧ b.chain? j = some gs ∧
      fs.map Frame.names = gs.map Frame.names ∧
      List.Forall₂ Frame.Within fs layers := by
  obtain ⟨s, hs, rfl, rfl⟩ := hscope
  exact h.chainFrom? hs (h.lt_size hs) (h.twin_lt_size hs)

theorem visibleNames?_eq (hscope : w.Scope layers i j) :
    ∃ names, a.visibleNames? i = some names ∧ b.visibleNames? j = some names := by
  obtain ⟨fs, gs, hfs, hgs, hnames, -⟩ := h.chain? hscope
  refine ⟨Arena.namesOf fs, ?_, ?_⟩
  · rw [Arena.visibleNames?, hfs, Option.map_some]
  · rw [Arena.visibleNames?, hgs, Option.map_some, Arena.namesOf_congr hnames]

/-- A name is bound along both chains or along neither, and in twin frames. -/
theorem locateFrom (name : String) (hs : w.slot? i = some s) {m n : Nat} (hm : i < m)
    (hn : s.twin < n) :
    (a.locateFrom name m (some i) = .unbound ∧ b.locateFrom name n (some s.twin) = .unbound) ∨
      ∃ k t x y, w.slot? k = some t ∧ a.locateFrom name m (some i) = .bound k x ∧
        b.locateFrom name n (some s.twin) = .bound t.twin y ∧
        Bindings known w (name, x) (name, y) := by
  induction i using Nat.strong_induction_on generalizing s m n with
  | _ i ih =>
    obtain ⟨f, g, hf, hg, hmatches⟩ := h.frames hs
    obtain ⟨m, rfl⟩ : ∃ m', m = m' + 1 := ⟨m - 1, by omega⟩
    obtain ⟨n, rfl⟩ : ∃ n', n = n' + 1 := ⟨n - 1, by omega⟩
    rw [Arena.locateFrom_of_frame? m hf, Arena.locateFrom_of_frame? n hg, Frame.find?, Frame.find?]
    rcases lookup_entries (fun _ _ hxy => hxy.name) hmatches.bindings name with
      ⟨hnone, hnone'⟩ | ⟨x, y, hx, hy, hxy⟩
    -- not in this frame: the search goes on in the parents, which are twins again
    · rw [hnone, hnone']
      rcases hmatches.parent_cases with ⟨hp, hq, -⟩ | ⟨k, t, -, hk, ht, hp, hq, -⟩
      · rw [hp, hq]
        exact .inl ⟨Arena.locateFrom_none name m, Arena.locateFrom_none name n⟩
      · have htwin := h.ordered hk ht hs
        rw [hp, hq]
        exact ih k hk ht (by omega) (by omega)
    · rw [hx, hy]
      exact .inr ⟨i, s, x, y, hs, rfl, rfl, hxy⟩

theorem locate (name : String) (hscope : w.Scope layers i j) :
    (a.locate i name = .unbound ∧ b.locate j name = .unbound) ∨
      ∃ k t x y, w.slot? k = some t ∧ a.locate i name = .bound k x ∧
        b.locate j name = .bound t.twin y ∧ Bindings known w (name, x) (name, y) := by
  obtain ⟨s, hs, rfl, rfl⟩ := hscope
  exact h.locateFrom name hs (h.lt_size hs) (h.twin_lt_size hs)

end Arenas

/-! ## Changes -/

/-- One slot more. -/
def push (w : Twins) (s : Slot) : Twins := { w with slots := w.slots ++ [s] }

/-- Another slot in the place of one. -/
def set (w : Twins) (k : Nat) (s : Slot) : Twins :=
  { w with slots := w.slots.set (k - w.base) s }

/-- Only the slots below an index. -/
def take (w : Twins) (m : Nat) : Twins := { w with slots := w.slots.take (m - w.base) }

@[simp]
theorem size_push : (w.push s).size = w.size + 1 := by
  rw [size, size, push, List.length_append, List.length_singleton, Nat.add_assoc]

@[simp]
theorem size_set : (w.set k s).size = w.size := by rw [size, size, set, List.length_set]

theorem slot?_of_le (h : w.base ≤ i) : w.slot? i = w.slots[i - w.base]? := if_neg (by omega)

theorem base_le_of_slot? (hs : w.slot? i = some s) : w.base ≤ i := by
  by_contra h
  rw [slot?, if_pos (by omega)] at hs
  cases hs

theorem lt_of_slot? (hs : w.slot? i = some s) : i < w.size := by
  have hbase := base_le_of_slot? hs
  rw [slot?_of_le hbase] at hs
  have := (List.getElem?_eq_some_iff.mp hs).1
  rw [size]
  omega

theorem exists_slot? (hbase : w.base ≤ i) (hi : i < w.size) : ∃ s, w.slot? i = some s := by
  rw [size] at hi
  exact ⟨w.slots[i - w.base], by rw [slot?_of_le hbase, List.getElem?_eq_getElem]⟩

theorem slot?_push : (w.push s).slot? i = if i = w.size then some s else w.slot? i := by
  by_cases hbase : w.base ≤ i
  · rw [slot?_of_le (show (w.push s).base ≤ i from hbase), slot?_of_le hbase, push, size]
    rw [List.getElem?_append]
    by_cases h : i - w.base < w.slots.length
    · rw [if_pos h, if_neg (by omega)]
    · rw [if_neg h]
      by_cases h' : i = w.base + w.slots.length
      · rw [if_pos h', h', Nat.add_sub_cancel_left, Nat.sub_self]
        rfl
      · rw [if_neg h', List.getElem?_eq_none (by simp; omega), List.getElem?_eq_none (by omega)]
  · have hlt : i < w.base := by omega
    rw [size, if_neg (by omega), slot?, slot?, push, if_pos hlt, if_pos hlt]

theorem slot?_set (hs : w.slot? k = some s) :
    (w.set k t).slot? i = if i = k then some t else w.slot? i := by
  have hbase := base_le_of_slot? hs
  have hlt := lt_of_slot? hs
  rw [size] at hlt
  rw [slot?, set, List.getElem?_set, slot?]
  dsimp only
  by_cases h : i < w.base
  · rw [if_pos h, if_neg (by omega), if_pos h]
  · by_cases h' : i = k
    · rw [if_neg h, if_pos h', if_pos (by omega), if_pos (by omega)]
    · rw [if_neg h, if_neg h', if_neg (by omega), if_neg h]

theorem set_self (hs : w.slot? k = some s) : w.set k s = w := by
  rw [slot?_of_le (base_le_of_slot? hs)] at hs
  obtain ⟨hlt, rfl⟩ := List.getElem?_eq_some_iff.mp hs
  rw [set, List.set_getElem_self]

theorem slot?_take {m : Nat} : (w.take m).slot? i = if i < m then w.slot? i else none := by
  rw [slot?, take, List.getElem?_take, slot?]
  dsimp only
  by_cases h : i < w.base
  · rw [if_pos h, if_pos h, ite_self]
  · by_cases h' : i < m
    · rw [if_neg h, if_pos h', if_pos (by omega), if_neg h]
    · rw [if_neg h, if_neg h', if_neg (by omega)]

theorem le_push : w ≤ w.push s := by
  intro i t ht
  have hi := lt_of_slot? ht
  exact ⟨t, by rw [slot?_push, if_neg (by omega), ht], .refl t⟩

theorem le_set (hs : w.slot? k = some s) (h : s.Grows t) : w ≤ w.set k t := by
  intro i u hu
  by_cases hi : i = k
  · subst hi
    obtain rfl := Option.some.inj (hs.symm.trans hu)
    exact ⟨t, by rw [slot?_set hs, if_pos rfl], h⟩
  · exact ⟨u, by rw [slot?_set hs, if_neg hi, hu], .refl u⟩

/-- A slot that is not among the old ones may change in any way. -/
theorem le_set_of_le (hw : w ≤ w') (hs : w'.slot? k = some s) (hk : w.size ≤ k) :
    w ≤ w'.set k t := by
  intro i u hu
  have hi := lt_of_slot? hu
  obtain ⟨v, hv, huv⟩ := hw i u hu
  exact ⟨v, by rw [slot?_set hs, if_neg (by omega), hv], huv⟩

/-- The old slots stay if all that are taken away lie above them. -/
theorem le_take (hw : w ≤ w') {m : Nat} (hm : w.size ≤ m) : w ≤ w'.take m := by
  intro i u hu
  have hi := lt_of_slot? hu
  obtain ⟨v, hv, huv⟩ := hw i u hu
  exact ⟨v, by rw [slot?_take, if_pos (by omega), hv], huv⟩

theorem Scope.set (hs : w.slot? k = some s) (htwin : t.twin = s.twin)
    (hlayers : t.layers = s.layers) (h : w.Scope layers i j) : (w.set k t).Scope layers i j := by
  obtain ⟨u, hu, rfl, rfl⟩ := h
  by_cases hi : i = k
  · subst hi
    obtain rfl := Option.some.inj (hs.symm.trans hu)
    exact ⟨t, by rw [slot?_set hs, if_pos rfl], htwin, hlayers⟩
  · exact ⟨u, by rw [slot?_set hs, if_neg hi, hu], rfl, rfl⟩

theorem Captured.set (hs : w.slot? k = some s) (htwin : t.twin = s.twin)
    (hlayers : t.layers = s.layers) (hcaptured : s.captured = true → t.captured = true)
    (h : w.Captured layers i j) : (w.set k t).Captured layers i j := by
  obtain ⟨u, hu, rfl, rfl, hu'⟩ := h
  by_cases hi : i = k
  · subst hi
    obtain rfl := Option.some.inj (hs.symm.trans hu)
    exact ⟨t, by rw [slot?_set hs, if_pos rfl], htwin, hlayers, hcaptured hu'⟩
  · exact ⟨u, by rw [slot?_set hs, if_neg hi, hu], rfl, rfl, hu'⟩

theorem Scope.lt (h : w.Scope layers i j) : i < w.size := by
  obtain ⟨s, hs, -⟩ := h
  exact lt_of_slot? hs

theorem Parents.mono {p q : Option Nat}
    (hscope : ∀ layers k j, k < i → w.Scope layers k j → w'.Scope layers k j)
    (h : Parents w i layers p q) : Parents w' i layers p q := by
  cases h with
  | root l => exact .root l
  | inner l hk hparent => exact .inner l hk (hscope _ _ _ hk hparent)

/-- A frame that is untouched belongs to its twin in another world too, if its parent and the frames
that its functions refer to do. -/
theorem Matches.mono {f g : Frame Value}
    (hcaptured : ∀ layers i j, w.Captured layers i j → w'.Captured layers i j)
    (hscope : ∀ layers k j, k < i → w.Scope layers k j → w'.Scope layers k j)
    (h : Matches known w i s f g) : Matches known w' i s f g where
  captured := h.captured
  released := h.released
  bindings := h.bindings.imp fun _ _ => Bindings.mono hcaptured
  names := h.names
  parent := h.parent.mono hscope

namespace Arenas

variable {a b : Arena Value} (h : Arenas known w a b)
include h

/-- A scope opened in both arenas. -/
theorem allocate {p q : Option Nat} (hparents : Parents w w.size layers p q) :
    Arenas known (w.push ⟨b.size, layers, false, false⟩) (a.allocate p) (b.allocate q) where
  size := by
    rw [Arena.size_allocate, h.size, size_push]
  frames {i s} hs := by
    rw [slot?_push] at hs
    rw [Arena.frame?_allocate, Arena.frame?_allocate, h.size]
    by_cases hi : i = w.size
    -- the new frame binds nothing yet
    · rw [if_pos hi] at hs
      obtain rfl := Option.some.inj hs
      refine ⟨{ parent := p }, { parent := q }, if_pos hi, if_pos rfl, rfl, rfl, .nil, ?_, ?_⟩
      · exact fun _ hn => absurd hn List.not_mem_nil
      · rw [hi]
        exact hparents.mono fun _ _ _ _ => .mono le_push
    · rw [if_neg hi] at hs
      obtain ⟨f, g, hf, hg, hmatches⟩ := h.frames hs
      have htwin := h.twin_lt_size hs
      refine ⟨f, g, by rw [if_neg hi, hf], by rw [if_neg (by omega), hg], ?_⟩
      exact hmatches.mono (fun _ _ _ => .mono le_push) fun _ _ _ _ => .mono le_push
  ordered {i k s t} hik hs ht := by
    rw [slot?_push] at hs ht
    split at ht
    · obtain rfl := Option.some.inj ht
      rw [if_neg (by omega)] at hs
      exact h.twin_lt_size hs
    · have hk := lt_of_slot? ht
      rw [if_neg (by omega)] at hs
      exact h.ordered hik hs ht

/-- A frame and its twin changed. The slot may change its marks, but once captured it stays so. -/
theorem modify {F G : Frame Value → Frame Value} (hs : w.slot? k = some s)
    (htwin : t.twin = s.twin) (hlayers : t.layers = s.layers)
    (hcaptured : s.captured = true → t.captured = true)
    (hFG : ∀ f g, Matches known (w.set k t) k s f g →
      Matches known (w.set k t) k t (F f) (G g)) :
    Arenas known (w.set k t) (a.modify k F) (b.modify s.twin G) := by
  -- no slot is lost, none changes its twin or its layers
  have hslot : ∀ i u, (w.set k t).slot? i = some u →
      ∃ v, w.slot? i = some v ∧ v.twin = u.twin ∧ (i ≠ k → v = u) := by
    intro i u hu
    rw [slot?_set hs] at hu
    by_cases hi : i = k
    · rw [if_pos hi] at hu
      obtain rfl := Option.some.inj hu
      exact ⟨s, hi ▸ hs, htwin.symm, fun hne => absurd hi hne⟩
    · rw [if_neg hi] at hu
      exact ⟨u, hu, rfl, fun _ => rfl⟩
  refine ⟨?_, ?_, ?_⟩
  · rw [Arena.size_modify, h.size, size_set]
  · intro i u hu
    obtain ⟨v, hv, hvtwin, hsame⟩ := hslot i u hu
    obtain ⟨f, g, hf, hg, hmatches⟩ := h.frames hv
    replace hmatches := hmatches.mono (fun _ _ _ => .set hs htwin hlayers hcaptured)
      fun _ _ _ _ => .set hs htwin hlayers
    rw [Arena.frame?_modify, Arena.frame?_modify]
    by_cases hi : i = k
    · subst hi
      rw [slot?_set hs, if_pos rfl] at hu
      obtain rfl := Option.some.inj hu
      obtain rfl := Option.some.inj (hs.symm.trans hv)
      rw [htwin, if_pos rfl, if_pos rfl, hf, hg]
      exact ⟨F f, G g, rfl, rfl, hFG f g hmatches⟩
    -- another frame has another twin, so neither is touched
    · obtain rfl := hsame hi
      have hne : s.twin ≠ v.twin := fun heq => hi (h.twin_inj hv hs heq.symm)
      rw [if_neg (Ne.symm hi), if_neg hne]
      exact ⟨f, g, hf, hg, hmatches⟩
  · intro i j u u' hij hu hu'
    obtain ⟨v, hv, hvtwin, -⟩ := hslot i u hu
    obtain ⟨v', hv', hvtwin', -⟩ := hslot j u' hu'
    rw [← hvtwin, ← hvtwin']
    exact h.ordered hij hv hv'

/-- A frame and its twin changed, with the slot as it was. -/
theorem modify_same {F G : Frame Value → Frame Value} (hs : w.slot? k = some s)
    (hFG : ∀ f g, Matches known w k s f g → Matches known w k s (F f) (G g)) :
    Arenas known w (a.modify k F) (b.modify s.twin G) := by
  have hmodify := h.modify hs rfl rfl id ((set_self hs).symm ▸ hFG)
  rwa [set_self hs] at hmodify

theorem define {name : String} {x y : Binding Value} (hscope : w.Scope layers i j)
    (hname : Layer.DeclaredIn layers name) (hxy : Bindings known w (name, x) (name, y)) :
    (∃ d, a.define i name x = .error (.rejected d) ∧ b.define j name y = .error (.rejected d)) ∨
      ∃ a' b', a.define i name x = .ok a' ∧ b.define j name y = .ok b' ∧ Arenas known w a' b' := by
  obtain ⟨s, hs, rfl, rfl⟩ := hscope
  obtain ⟨f, g, hf, hg, hmatches⟩ := h.frames hs
  rw [Arena.define, Arena.define, hf, hg]
  dsimp only
  rw [Frame.find?, Frame.find?]
  rcases lookup_entries (fun _ _ hxy => hxy.name) hmatches.bindings name with
    ⟨hnone, hnone'⟩ | ⟨b, c, hb, hc, hbc⟩
  · rw [hnone, hnone']
    exact .inr ⟨_, _, rfl, rfl, h.modify_same hs fun f g hfg => hfg.bind hname hxy⟩
  -- the message names both declarations, which stand at the same places
  · rw [hb, hc]
    refine .inl ⟨_, rfl, ?_⟩
    rw [hxy.pos, hbc.pos]

theorem undeclared (name : String) (pos : Position) (hscope : w.Scope layers i j) :
    ∃ d, a.undeclared i name pos = .rejected d ∧ b.undeclared j name pos = .rejected d := by
  obtain ⟨names, ha, hb⟩ := h.visibleNames?_eq hscope
  rw [Arena.undeclared, Arena.undeclared, ha, hb]
  exact ⟨_, rfl, rfl⟩

theorem lookup (name : String) (pos : Position) (hscope : w.Scope layers i j) :
    (∃ d, a.lookup i name pos = .error (.rejected d) ∧
      b.lookup j name pos = .error (.rejected d)) ∨
      ∃ v u, a.lookup i name pos = .ok v ∧ b.lookup j name pos = .ok u ∧
        (likeness known).Values w v u := by
  rw [Arena.lookup, Arena.lookup]
  rcases h.locate name hscope with ⟨ha, hb⟩ | ⟨k, t, x, y, -, ha, hb, hxy⟩
  · obtain ⟨d, hd, hd'⟩ := h.undeclared name pos hscope
    rw [ha, hb, hd, hd']
    exact .inl ⟨d, rfl, rfl⟩
  · rw [ha, hb]
    exact .inr ⟨_, _, rfl, rfl, hxy.value⟩

theorem assign (name : String) (pos : Position) {v u : Value} (hscope : w.Scope layers i j)
    (hv : (likeness known).Values w v u) :
    (∃ d, a.assign i name v pos = .error (.rejected d) ∧
      b.assign j name u pos = .error (.rejected d)) ∨
      ∃ a' b', a.assign i name v pos = .ok a' ∧ b.assign j name u pos = .ok b' ∧
        Arenas known w a' b' := by
  rw [Arena.assign, Arena.assign]
  rcases h.locate name hscope with ⟨ha, hb⟩ | ⟨k, t, x, y, ht, ha, hb, hxy⟩
  · obtain ⟨d, hd, hd'⟩ := h.undeclared name pos hscope
    rw [ha, hb, hd, hd']
    exact .inl ⟨d, rfl, rfl⟩
  · rw [ha, hb]
    dsimp only
    rw [hxy.kind, hxy.pos]
    split
    · exact .inl ⟨_, rfl, rfl⟩
    · exact .inr ⟨_, _, rfl, rfl, h.modify_same ht fun f g hfg => hfg.set hv⟩

/-- A frame that is not garbage is not reclaimed. -/
theorem lt_size_reclaim (hs : w.slot? i = some s) (hgarbage : s.isGarbage = false) :
    i < a.reclaim.size := by
  by_contra hle
  obtain ⟨f, g, hf, -, hmatches⟩ := h.frames hs
  have htrue := Arena.isGarbage_of_reclaim_le (by omega) hf
  rw [hmatches.isGarbage_eq, hgarbage] at htrue
  cases htrue

/-- What has a scope and was settled before is not reclaimed: its topmost frame is not garbage, and
lies above all the others. -/
theorem size_le_reclaim {v : Twins} (hsettled : v.Settled) (hscope : v.Scope layers i j)
    (hv : v ≤ w) : v.size ≤ a.reclaim.size ∧ w.base ≤ a.reclaim.size := by
  have hlt := hscope.lt
  obtain ⟨x, hx, -, -⟩ := hscope
  have hbase := base_le_of_slot? hx
  obtain ⟨y, hy⟩ := exists_slot? (w := v) (i := v.size - 1) (by omega) (by omega)
  obtain ⟨z, hz, hyz⟩ := hv _ y hy
  have htop := h.lt_size_reclaim hz (hyz.not_isGarbage (hsettled y hy))
  have hbase' := base_le_of_slot? hz
  omega

/-- Captured frames stay. -/
theorem captured_take (hc : w.Captured layers i j) :
    (w.take a.reclaim.size).Captured layers i j := by
  obtain ⟨s, hs, rfl, rfl, hcaptured⟩ := hc
  have hgarbage : s.isGarbage = false := by
    rw [Slot.isGarbage, hcaptured, Bool.not_true, Bool.and_false]
  exact ⟨s, by rw [slot?_take, if_pos (h.lt_size_reclaim hs hgarbage), hs], rfl, rfl, hcaptured⟩

theorem reclaim (hbase : w.base ≤ a.reclaim.size) :
    Arenas known (w.take a.reclaim.size) a.reclaim b where
  size := by
    have hle := a.size_reclaim_le
    rw [h.size, Twins.size] at hle
    rw [take, Twins.size, List.length_take]
    dsimp only
    omega
  frames {i s} hs := by
    rw [slot?_take] at hs
    split at hs
    · next hi =>
      obtain ⟨f, g, hf, hg, hmatches⟩ := h.frames hs
      refine ⟨f, g, by rw [Arena.frame?_reclaim hi, hf], hg, ?_⟩
      -- what functions refer to is captured, and a parent lies below its child
      apply hmatches.mono (fun _ _ _ => h.captured_take)
      rintro layers k j hk ⟨t, ht, htwin, hlayers⟩
      exact ⟨t, by rw [slot?_take, if_pos (by omega), ht], htwin, hlayers⟩
    · cases hs
  ordered {i k s t} hik hs ht := by
    rw [slot?_take] at hs ht
    split at ht
    · rw [if_pos (by omega)] at hs
      exact h.ordered hik hs ht
    · cases ht

end Arenas

end Twins

end MiniApp
