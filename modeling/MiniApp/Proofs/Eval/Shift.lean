import MiniApp.Proofs.Eval.Lockstep
import MiniApp.Proofs.Eval.Restoration

/-!
# Runs in different places

The frames of a run come behind those that are in the arena already, so two runs of one program in
different sessions use different indices for the same scope, and different identities for the same
function. But they differ by a shift only: both open, capture and reclaim frames at the same moments.
No name leads from the frames of a run to the ones that were there before, and none of these changes.

## Main definitions

* `Shift`: two sessions that runs begin in
* `Shift.likeness`: values that are the same but for the shift
* `Shift.Arenas`, `Shift.Sessions`: arenas and sessions that are the same but for the shift

## Main results

* `Shift.Arenas.locate`: names are resolved alike
* `Shift.Arenas.modify`, `Shift.Arenas.release`: what keeps arenas the same but for the shift
* `Shift.lawful_pairing`: elementary actions keep sessions the same but for the shift
-/

namespace MiniApp

/-- What two runs begin with: the arenas, and the identities of the next functions. -/
structure Shift where
  left : Arena Value
  right : Arena Value
  leftId : Nat
  rightId : Nat

namespace Shift

variable (σ : Shift)

/-- Frames that were added in the same place on both sides. -/
def Index (i j : Nat) : Prop := ∃ k, i = σ.left.size + k ∧ j = σ.right.size + k

/-- Functions that were made at the same time on both sides. -/
def Ident (i j : Nat) : Prop := ∃ k, i = σ.leftId + k ∧ j = σ.rightId + k

/-- Scopes that programs declare names in: all but the first of the frames that were added. -/
structure Scope (w : Arena Value) (i j : Nat) : Prop where
  index : σ.Index i j
  lt_size : i < w.size
  inner : σ.left.size < i

/-- Scopes that have been captured. -/
structure Captured (w : Arena Value) (i j : Nat) : Prop extends σ.Scope w i j where
  captured : ∃ f, w.frame? i = some f ∧ f.captured = true

/-- Values belong together if they are equal but for the shift. The worlds are the left arenas. -/
def likeness (known : List Layer → Node → Prop) : Likeness where
  World := Arena Value
  leeway := .exact
  ident := σ.Ident
  known := known
  captured w _ := σ.Captured w

variable {σ} {known : List Layer → Node → Prop} {w w' : Arena Value} {i j k l : Nat}

namespace Index

theorem lt_iff (h : σ.Index i j) (h' : σ.Index k l) : i < k ↔ j < l := by
  obtain ⟨m, rfl, rfl⟩ := h
  obtain ⟨n, rfl, rfl⟩ := h'
  omega

theorem eq_iff (h : σ.Index i j) (h' : σ.Index k l) : i = k ↔ j = l := by
  obtain ⟨m, rfl, rfl⟩ := h
  obtain ⟨n, rfl, rfl⟩ := h'
  omega

theorem le_left (h : σ.Index i j) : σ.left.size ≤ i := by
  obtain ⟨m, rfl, rfl⟩ := h
  omega

theorem le_right (h : σ.Index i j) : σ.right.size ≤ j := by
  obtain ⟨m, rfl, rfl⟩ := h
  omega

theorem base (σ : Shift) : σ.Index σ.left.size σ.right.size := ⟨0, rfl, rfl⟩

theorem succ (h : σ.Index i j) : σ.Index (i + 1) (j + 1) := by
  obtain ⟨m, rfl, rfl⟩ := h
  exact ⟨m + 1, rfl, rfl⟩

end Index

theorem Ident.eq_iff (h : σ.Ident i j) (h' : σ.Ident k l) : i = k ↔ j = l := by
  obtain ⟨m, rfl, rfl⟩ := h
  obtain ⟨n, rfl, rfl⟩ := h'
  omega

theorem Scope.mono (hw : w ≤ w') (h : σ.Scope w i j) : σ.Scope w' i j :=
  { h with lt_size := h.lt_size.trans_le (Arena.size_le_of_le hw) }

theorem Captured.mono (hw : w ≤ w') (h : σ.Captured w i j) : σ.Captured w' i j := by
  obtain ⟨f, hf, hcaptured⟩ := h.captured
  obtain ⟨g, hg, hkept⟩ := hw i f hf
  exact { h.toScope.mono hw with captured := ⟨g, hg, hkept.captured hcaptured⟩ }

theorem Captured.modify {F : Frame Value → Frame Value}
    (hF : ∀ f, f.captured = true → (F f).captured = true) (h : σ.Captured w i j) :
    σ.Captured (w.modify k F) i j := by
  obtain ⟨f, hf, hcaptured⟩ := h.captured
  refine { h with lt_size := (Arena.size_modify F).symm ▸ h.lt_size, captured := ?_ }
  rw [Arena.frame?_modify, hf]
  split
  · exact ⟨F f, rfl, hF f hcaptured⟩
  · exact ⟨f, rfl, hcaptured⟩

/-- A frame that is captured is not reclaimed. -/
theorem Captured.reclaim (h : σ.Captured w i j) : σ.Captured w.reclaim i j := by
  obtain ⟨f, hf, hcaptured⟩ := h.captured
  have hstays : i < w.reclaim.size := by
    by_contra hcut
    have hgarbage := Arena.isGarbage_of_reclaim_le (not_lt.mp hcut) hf
    rw [Frame.isGarbage, hcaptured, Bool.not_true, Bool.and_false] at hgarbage
    cases hgarbage
  exact { h with
    lt_size := hstays
    captured := ⟨f, by rw [Arena.frame?_reclaim hstays, hf], hcaptured⟩ }

theorem Captured.release (h : σ.Captured w i j) : σ.Captured (w.release .eager k) i j :=
  (h.modify (F := ({ · with released := true })) fun _ => id).reclaim

/-! ## Frames -/

/-- Bindings that belong together. -/
structure Bindings (σ : Shift) (known : List Layer → Node → Prop) (w : Arena Value)
    (x y : String × Binding Value) : Prop where
  name : x.1 = y.1
  kind : x.2.kind = y.2.kind
  pos : x.2.pos = y.2.pos
  value : (σ.likeness known).Values w x.2.value y.2.value

/-- Parents that belong together. They lie further down in the arena. -/
inductive Parents (σ : Shift) (i : Nat) : Option Nat → Option Nat → Prop
  | root : Parents σ i none none
  | inner {k l : Nat} : k < i → σ.Index k l → Parents σ i (some k) (some l)

/-- Frames that belong together. -/
structure Matches (σ : Shift) (known : List Layer → Node → Prop) (w : Arena Value) (i : Nat)
    (f g : Frame Value) : Prop where
  captured : f.captured = g.captured
  released : f.released = g.released
  bindings : List.Forall₂ (Bindings σ known w) f.bindings g.bindings
  parent : Parents σ i f.parent g.parent

theorem Bindings.mono {x y : String × Binding Value}
    (hw : ∀ i j, σ.Captured w i j → σ.Captured w' i j) (h : Bindings σ known w x y) :
    Bindings σ known w' x y :=
  { h with value := h.value.mono fun _ => hw }

namespace Matches

variable {f g : Frame Value}

theorem mono (hw : ∀ i j, σ.Captured w i j → σ.Captured w' i j) (h : Matches σ known w i f g) :
    Matches σ known w' i f g :=
  { h with bindings := h.bindings.imp fun _ _ => .mono hw }

theorem isGarbage_eq (h : Matches σ known w i f g) : f.isGarbage = g.isGarbage := by
  rw [Frame.isGarbage, Frame.isGarbage, h.captured, h.released]

theorem names_eq (h : Matches σ known w i f g) : f.names = g.names :=
  names_eq_of_entries (fun _ _ hxy => hxy.name) h.bindings

theorem bind {name : String} {b c : Binding Value} (h : Matches σ known w i f g)
    (hb : Bindings σ known w (name, b) (name, c)) :
    Matches σ known w i (f.bind name b) (g.bind name c) :=
  { h with bindings := List.rel_append h.bindings (.cons hb .nil) }

theorem set {name : String} {v u : Value} (h : Matches σ known w i f g)
    (hv : (σ.likeness known).Values w v u) :
    Matches σ known w i (f.set name v) (g.set name u) where
  captured := h.captured
  released := h.released
  bindings := by
    refine List.rel_map (fun x y hxy => ?_) h.bindings
    rw [hxy.name]
    split
    · exact { hxy with name := rfl, value := hv }
    · exact hxy
  parent := h.parent

end Matches

/-! ## Arenas -/

/-- The first of the frames that a run adds, that of the builtin functions. -/
structure IsRoot (f : Frame Value) : Prop where
  parent : f.parent = none
  names : f.names = ["print", "len"]
  captured : f.captured = false
  released : f.released = false

/-- Arenas that are the same but for the shift, beyond the frames that were there before. -/
structure Arenas (σ : Shift) (known : List Layer → Node → Prop) (a b : Arena Value) : Prop where
  size : σ.Index a.size b.size
  frames {i j : Nat} {f g : Frame Value} :
    σ.Index i j → a.frame? i = some f → b.frame? j = some g → Matches σ known a i f g
  root : ∃ f, a.frame? σ.left.size = some f ∧ IsRoot f
  left {i : Nat} : i < σ.left.size → a.frame? i = σ.left.frame? i
  right {i : Nat} : i < σ.right.size → b.frame? i = σ.right.frame? i

/-- Two arenas with garbage in the same places are cut off at the same place. -/
theorem lt_reclaim_of_isGarbage_eq {a b : Arena Value} {m n N : Nat} (ha : a.size = m + N)
    (hb : b.size = n + N)
    (hgarbage : ∀ k f g, a.frame? (m + k) = some f → b.frame? (n + k) = some g →
      f.isGarbage = g.isGarbage) (hk : m + k < a.reclaim.size) : n + k < b.reclaim.size := by
  -- the topmost frame that stays on one side is garbage on neither
  obtain ⟨top, htop⟩ : ∃ top, a.reclaim.size - 1 = m + top := ⟨a.reclaim.size - 1 - m, by omega⟩
  have hle := a.size_reclaim_le
  obtain ⟨f, hf⟩ := Arena.exists_frame? (a := a.reclaim) (i := m + top) (by omega)
  obtain ⟨g, hg⟩ := Arena.exists_frame? (a := b) (i := n + top) (by omega)
  have hf' : f.isGarbage = false := Arena.not_isGarbage_of_reclaim (htop ▸ hf)
  rw [Arena.frame?_reclaim (Arena.lt_size_of_frame? hf)] at hf
  by_contra hcut
  rw [hgarbage top f g hf hg, Arena.isGarbage_of_reclaim_le (by omega) hg] at hf'
  cases hf'

namespace Arenas

variable {a b : Arena Value} (h : Arenas σ known a b)
include h

theorem exists_frames (hij : σ.Index i j) (hi : i < a.size) :
    ∃ f g, a.frame? i = some f ∧ b.frame? j = some g ∧ Matches σ known a i f g := by
  obtain ⟨f, hf⟩ := Arena.exists_frame? hi
  obtain ⟨g, hg⟩ := Arena.exists_frame? ((hij.lt_iff h.size).mp hi)
  exact ⟨f, g, hf, hg, h.frames hij hf hg⟩

/-- A chain is followed in both arenas alike. -/
theorem chainFrom? (hij : σ.Index i j) (hi : i < a.size) {m n : Nat} (hm : i < m) (hn : j < n) :
    ∃ fs gs, a.chainFrom? m (some i) = some fs ∧ b.chainFrom? n (some j) = some gs ∧
      fs.map Frame.names = gs.map Frame.names := by
  -- parents lie further down, so the chain is no longer than the index is large
  induction i using Nat.strong_induction_on generalizing j m n with
  | _ i ih =>
    obtain ⟨f, g, hf, hg, hmatches⟩ := h.exists_frames hij hi
    obtain ⟨m, rfl⟩ : ∃ m', m = m' + 1 := ⟨m - 1, by omega⟩
    obtain ⟨n, rfl⟩ : ∃ n', n = n' + 1 := ⟨n - 1, by omega⟩
    rw [Arena.chainFrom?_of_frame? m hf, Arena.chainFrom?_of_frame? n hg]
    have hparent := hmatches.parent
    generalize f.parent = p, g.parent = q at hparent
    cases hparent with
    | root =>
      refine ⟨[f], [g], ?_, ?_, ?_⟩
      · rw [Arena.chainFrom?, Option.map_some]
      · rw [Arena.chainFrom?, Option.map_some]
      · rw [List.map_singleton, List.map_singleton, hmatches.names_eq]
    | @inner k l hk hkl =>
      have hl := (hkl.lt_iff hij).mp hk
      have hkm : k < m := by omega
      have hln : l < n := by omega
      obtain ⟨fs, gs, hfs, hgs, hnames⟩ := ih k hk hkl (hk.trans hi) hkm hln
      refine ⟨f :: fs, g :: gs, ?_, ?_, ?_⟩
      · rw [hfs, Option.map_some]
      · rw [hgs, Option.map_some]
      · rw [List.map_cons, List.map_cons, hmatches.names_eq, hnames]

theorem visibleNames?_eq (hij : σ.Index i j) (hi : i < a.size) :
    ∃ names, a.visibleNames? i = some names ∧ b.visibleNames? j = some names := by
  obtain ⟨fs, gs, hfs, hgs, hnames⟩ := h.chainFrom? hij hi hi ((hij.lt_iff h.size).mp hi)
  refine ⟨Arena.namesOf fs, ?_, ?_⟩
  · rw [Arena.visibleNames?, Arena.chain?, hfs, Option.map_some]
  · rw [Arena.visibleNames?, Arena.chain?, hgs, Option.map_some, Arena.namesOf_congr hnames]

/-- A name is bound along both chains or along neither, and in frames of the same place. -/
theorem locateFrom (name : String) (hij : σ.Index i j) (hi : i < a.size) {m n : Nat} (hm : i < m)
    (hn : j < n) :
    (a.locateFrom name m (some i) = .unbound ∧ b.locateFrom name n (some j) = .unbound) ∨
      ∃ k l x y, σ.Index k l ∧ a.locateFrom name m (some i) = .bound k x ∧
        b.locateFrom name n (some j) = .bound l y ∧ Bindings σ known a (name, x) (name, y) := by
  induction i using Nat.strong_induction_on generalizing j m n with
  | _ i ih =>
    obtain ⟨f, g, hf, hg, hmatches⟩ := h.exists_frames hij hi
    obtain ⟨m, rfl⟩ : ∃ m', m = m' + 1 := ⟨m - 1, by omega⟩
    obtain ⟨n, rfl⟩ : ∃ n', n = n' + 1 := ⟨n - 1, by omega⟩
    rw [Arena.locateFrom_of_frame? m hf, Arena.locateFrom_of_frame? n hg, Frame.find?, Frame.find?]
    -- frames that match bind the same names: the search stops in both or goes on in both
    rcases lookup_entries (fun _ _ hxy => hxy.name) hmatches.bindings name with
      ⟨hnone, hnone'⟩ | ⟨x, y, hx, hy, hxy⟩
    · rw [hnone, hnone']
      have hparent := hmatches.parent
      generalize f.parent = p, g.parent = q at hparent
      cases hparent with
      | root => exact .inl ⟨Arena.locateFrom_none name m, Arena.locateFrom_none name n⟩
      | @inner k l hk hkl =>
        have hl := (hkl.lt_iff hij).mp hk
        exact ih k hk hkl (hk.trans hi) (by omega) (by omega)
    · rw [hx, hy]
      exact .inr ⟨i, j, x, y, hij, rfl, rfl, hxy⟩

theorem locate (name : String) (hij : σ.Index i j) (hi : i < a.size) :
    (a.locate i name = .unbound ∧ b.locate j name = .unbound) ∨
      ∃ k l x y, σ.Index k l ∧ a.locate i name = .bound k x ∧ b.locate j name = .bound l y ∧
        Bindings σ known a (name, x) (name, y) :=
  h.locateFrom name hij hi hi ((hij.lt_iff h.size).mp hi)

theorem undeclared (name : String) (pos : Position) (hij : σ.Index i j) (hi : i < a.size) :
    a.undeclared i name pos = b.undeclared j name pos := by
  obtain ⟨names, ha, hb⟩ := h.visibleNames?_eq hij hi
  rw [Arena.undeclared, Arena.undeclared, ha, hb]

/-! ### Changes -/

theorem allocate {p q : Option Nat} (hparents : Parents σ a.size p q) :
    Arenas σ known (a.allocate p) (b.allocate q) where
  size := by
    rw [Arena.size_allocate, Arena.size_allocate]
    exact h.size.succ
  frames {i j f g} hij hf hg := by
    have hcaptured := fun i j => Captured.mono (σ := σ) (i := i) (j := j) (a.le_allocate p)
    have heq := hij.eq_iff h.size
    rw [Arena.frame?_allocate] at hf hg
    -- the new frames match each other, and all others are what they were
    by_cases hi : i = a.size
    · rw [if_pos hi] at hf
      rw [if_pos (heq.mp hi)] at hg
      cases hf
      cases hg
      exact ⟨rfl, rfl, .nil, hi ▸ hparents⟩
    · rw [if_neg hi] at hf
      rw [if_neg (heq.not.mp hi)] at hg
      exact (h.frames hij hf hg).mono hcaptured
  root := by
    obtain ⟨f, hf, hroot⟩ := h.root
    exact ⟨f, by rw [Arena.frame?_allocate, if_neg (Arena.lt_size_of_frame? hf).ne, hf], hroot⟩
  left hi := by
    rw [Arena.frame?_allocate, if_neg (hi.trans_le h.size.le_left).ne, h.left hi]
  right hi := by
    rw [Arena.frame?_allocate, if_neg (hi.trans_le h.size.le_right).ne, h.right hi]

/-- Frames of the same place are changed alike. -/
theorem modify {F G : Frame Value → Frame Value} (hij : σ.Index i j)
    (hcaptured : ∀ i' j', σ.Captured a i' j' → σ.Captured (a.modify i F) i' j')
    (hroot : ∀ f, i = σ.left.size → IsRoot f → IsRoot (F f))
    (hFG : ∀ f g, Matches σ known (a.modify i F) i f g →
      Matches σ known (a.modify i F) i (F f) (G g)) :
    Arenas σ known (a.modify i F) (b.modify j G) where
  size := by
    rw [Arena.size_modify, Arena.size_modify]
    exact h.size
  frames {i' j' f g} hij' hf hg := by
    rw [Arena.frame?_modify] at hf hg
    -- of frames that match, both are changed or neither
    by_cases hi : i = i'
    · subst hi
      obtain rfl := (hij.eq_iff hij').mp rfl
      rw [if_pos rfl] at hf hg
      obtain ⟨f', hf', rfl⟩ := Option.map_eq_some_iff.mp hf
      obtain ⟨g', hg', rfl⟩ := Option.map_eq_some_iff.mp hg
      exact hFG f' g' ((h.frames hij hf' hg').mono hcaptured)
    · rw [if_neg hi] at hf
      rw [if_neg ((hij.eq_iff hij').not.mp hi)] at hg
      exact (h.frames hij' hf hg).mono hcaptured
  root := by
    obtain ⟨f, hf, hf'⟩ := h.root
    rw [Arena.frame?_modify, hf]
    split
    · next hi => exact ⟨F f, rfl, hroot f hi hf'⟩
    · exact ⟨f, rfl, hf'⟩
  left hi := by
    rw [Arena.frame?_modify, if_neg (hi.trans_le hij.le_left).ne', h.left hi]
  right hi := by
    rw [Arena.frame?_modify, if_neg (hi.trans_le hij.le_right).ne', h.right hi]

theorem define {name : String} {x y : Binding Value} (hscope : σ.Scope a i j)
    (hxy : Bindings σ known a (name, x) (name, y)) :
    (∃ d, a.define i name x = .error (.rejected d) ∧ b.define j name y = .error (.rejected d)) ∨
      ∃ a' b', a.define i name x = .ok a' ∧ b.define j name y = .ok b' ∧ a ≤ a' ∧
        Arenas σ known a' b' := by
  obtain ⟨f, g, hf, hg, hmatches⟩ := h.exists_frames hscope.index hscope.lt_size
  -- the message names both declarations, which stand at the same places
  have hpos : x.pos = y.pos := hxy.pos
  rw [Arena.define, Arena.define, hf, hg]
  dsimp only
  rw [Frame.find?, Frame.find?]
  rcases lookup_entries (fun _ _ hxy => hxy.name) hmatches.bindings name with
    ⟨hnone, hnone'⟩ | ⟨first, first', hx, hy, hfirst⟩
  · rw [hnone, hnone']
    have hle := a.le_modify i (Arena.kept_bind name x)
    have hcaptured := fun i j => Captured.mono (σ := σ) (i := i) (j := j) hle
    refine .inr ⟨_, _, rfl, rfl, hle, h.modify hscope.index hcaptured ?_ ?_⟩
    · intro f hi
      exact absurd hi hscope.inner.ne'
    · intro f g hfg
      exact hfg.bind (hxy.mono hcaptured)
  · have hplace : first.pos = first'.pos := hfirst.pos
    rw [hx, hy]
    dsimp only
    rw [hpos, hplace]
    exact .inl ⟨_, rfl, rfl⟩

theorem lookup (name : String) (pos : Position) (hscope : σ.Scope a i j) :
    (∃ e, a.lookup i name pos = .error e ∧ b.lookup j name pos = .error e) ∨
      ∃ v u, a.lookup i name pos = .ok v ∧ b.lookup j name pos = .ok u ∧
        (σ.likeness known).Values a v u := by
  rw [Arena.lookup, Arena.lookup]
  rcases h.locate name hscope.index hscope.lt_size with
    ⟨ha, hb⟩ | ⟨k, l, x, y, -, ha, hb, hxy⟩
  · rw [ha, hb, h.undeclared name pos hscope.index hscope.lt_size]
    exact .inl ⟨_, rfl, rfl⟩
  · rw [ha, hb]
    exact .inr ⟨x.value, y.value, rfl, rfl, hxy.value⟩

theorem assign (name : String) (pos : Position) {v u : Value} (hscope : σ.Scope a i j)
    (hv : (σ.likeness known).Values a v u) :
    (∃ e, a.assign i name v pos = .error e ∧ b.assign j name u pos = .error e) ∨
      ∃ a' b', a.assign i name v pos = .ok a' ∧ b.assign j name u pos = .ok b' ∧ a ≤ a' ∧
        Arenas σ known a' b' := by
  rw [Arena.assign, Arena.assign]
  rcases h.locate name hscope.index hscope.lt_size with
    ⟨ha, hb⟩ | ⟨k, l, x, y, hkl, ha, hb, hxy⟩
  · rw [ha, hb, h.undeclared name pos hscope.index hscope.lt_size]
    exact .inl ⟨_, rfl, rfl⟩
  · have hkind : x.kind = y.kind := hxy.kind
    have hpos : x.pos = y.pos := hxy.pos
    rw [ha, hb]
    dsimp only
    rw [hkind, hpos]
    split
    · exact .inl ⟨_, rfl, rfl⟩
    · have hle := a.le_modify k (Arena.kept_set name v)
      have hcaptured := fun i j => Captured.mono (σ := σ) (i := i) (j := j) hle
      refine .inr ⟨_, _, rfl, rfl, hle, h.modify hkl hcaptured ?_ ?_⟩
      -- a builtin function may be assigned to, but its name stays
      · intro f _ hroot
        exact { hroot with names := (Frame.names_set v).trans hroot.names }
      · intro f g hfg
        exact hfg.set (hv.mono fun _ => hcaptured)

/-- Both arenas are cut off at the same place, and nothing is cut off below the root. -/
theorem reclaim : σ.Index a.reclaim.size b.reclaim.size ∧ σ.left.size < a.reclaim.size := by
  obtain ⟨n, ha, hb⟩ := h.size
  obtain ⟨f, hf, hroot⟩ := h.root
  have hgarbage : f.isGarbage = false := by rw [Frame.isGarbage, hroot.released, Bool.false_and]
  have hbase : σ.left.size < a.reclaim.size := by
    by_contra hle
    rw [Arena.isGarbage_of_reclaim_le (not_lt.mp hle) hf] at hgarbage
    cases hgarbage
  have hcut := fun k => lt_reclaim_of_isGarbage_eq (k := k) ha hb fun k f g hf hg =>
    (h.frames ⟨k, rfl, rfl⟩ hf hg).isGarbage_eq
  have hcut' := fun k => lt_reclaim_of_isGarbage_eq (k := k) hb ha fun k g f hg hf =>
    (h.frames ⟨k, rfl, rfl⟩ hf hg).isGarbage_eq.symm
  refine ⟨⟨a.reclaim.size - σ.left.size, by omega, ?_⟩, hbase⟩
  have := hcut (a.reclaim.size - σ.left.size - 1) (by omega)
  have := hcut' (a.reclaim.size - σ.left.size)
  omega

/-- A scope is left on both sides. -/
theorem release (hij : σ.Index i j) (hi : σ.left.size < i) :
    Arenas σ known (a.release .eager i) (b.release .eager j) := by
  have hmarked : Arenas σ known (a.modify i ({ · with released := true }))
      (b.modify j ({ · with released := true })) := by
    refine h.modify hij (fun _ _ => .modify fun _ => id) (fun f heq => absurd heq hi.ne') ?_
    exact fun f g hfg => { hfg with released := rfl }
  obtain ⟨hsize, hbase⟩ := hmarked.reclaim
  have hleft : ∀ {k}, k < (a.release .eager i).size → (a.release .eager i).frame? k =
      (a.modify i ({ · with released := true })).frame? k := Arena.frame?_reclaim
  have hright : ∀ {k}, k < (b.release .eager j).size → (b.release .eager j).frame? k =
      (b.modify j ({ · with released := true })).frame? k := Arena.frame?_reclaim
  -- what stays after the cut is as it was marked
  constructor
  · exact hsize
  · intro k l f g hkl hf hg
    rw [hleft (Arena.lt_size_of_frame? hf)] at hf
    rw [hright (Arena.lt_size_of_frame? hg)] at hg
    exact (hmarked.frames hkl hf hg).mono fun _ _ => .reclaim
  · rw [hleft hbase]
    exact hmarked.root
  · intro k hk
    rw [hleft (hk.trans hbase), hmarked.left hk]
  · intro k hk
    rw [hright (hk.trans_le hsize.le_right), hmarked.right hk]

end Arenas

end Shift

/-! ## Application records -/

/-- Records in which the same has been declared, in the same places. -/
structure App.DeclaredAlike (a b : App) : Prop where
  declared (field : String) : a.declared.lookup field = b.declared.lookup field
  body : a.body.isSome = b.body.isSome

namespace App.DeclaredAlike

variable {a b : App} (h : a.DeclaredAlike b)
include h

/-- A field is reserved in both records or in neither. -/
theorem reserve (field keyword : String) (pos : Position) :
    (∃ d, a.reserve field keyword pos = .error d ∧ b.reserve field keyword pos = .error d) ∨
      ∃ a' b', a.reserve field keyword pos = .ok a' ∧ b.reserve field keyword pos = .ok b' ∧
        a'.DeclaredAlike b' := by
  rw [App.reserve, App.reserve, ← h.declared field]
  cases a.declared.lookup field with
  | some first => exact .inl ⟨_, rfl, rfl⟩
  | none =>
    refine .inr ⟨_, _, rfl, rfl, fun field' => ?_, h.body⟩
    rw [List.lookup_append, List.lookup_append, h.declared]

theorem setProperty (p : Property) (value : Data) (pos : Position) :
    (∃ d, a.setProperty p value pos = .error d ∧ b.setProperty p value pos = .error d) ∨
      ∃ a' b', a.setProperty p value pos = .ok a' ∧ b.setProperty p value pos = .ok b' ∧
        a'.DeclaredAlike b' := by
  rw [App.setProperty, App.setProperty]
  rcases h.reserve p.field p.keyword pos with ⟨d, ha, hb⟩ | ⟨a', b', ha, hb, h'⟩
  · rw [ha, hb]
    exact .inl ⟨d, rfl, rfl⟩
  · rw [ha, hb]
    refine .inr ⟨_, _, rfl, rfl, fun field => ?_, ?_⟩
    · rw [declared_write, declared_write, h'.declared]
    · rw [body_write, body_write, h'.body]

theorem openBody (style : String) (pos : Position) :
    (∃ d, a.openBody style pos = .error d ∧ b.openBody style pos = .error d) ∨
      ∃ a' b', a.openBody style pos = .ok a' ∧ b.openBody style pos = .ok b' ∧
        a'.DeclaredAlike b' := by
  rw [App.openBody, App.openBody]
  rcases h.reserve "body" "body" pos with ⟨d, ha, hb⟩ | ⟨a', b', ha, hb, h'⟩
  · rw [ha, hb]
    exact .inl ⟨d, rfl, rfl⟩
  · rw [ha, hb]
    exact .inr ⟨_, _, rfl, rfl, h'.declared, rfl⟩

theorem emit (n m : Nat) (v u : Value) : (a.emit n v).DeclaredAlike (b.emit m u) := by
  refine ⟨h.declared, ?_⟩
  rw [App.emit, App.emit, Option.isSome_map, Option.isSome_map, h.body]

end App.DeclaredAlike

theorem Session.output_push (s : Session) (e : Event) :
    Session.output { s with trace := s.trace.push e } = s.output ++ e.text := by
  apply String.toList_injective
  simp [Session.output]

/-- The printed texts stay equal if both grow by the same. -/
theorem Session.output_push_congr {s t : Session} {a b : Event} (h : s.output = t.output)
    (hab : a.text = b.text) :
    Session.output { s with trace := s.trace.push a } =
      Session.output { t with trace := t.trace.push b } := by
  rw [output_push, output_push, h, hab]

namespace Shift

/-! ## Sessions -/

/-- Sessions that are the same but for the shift, as far as programs can tell. -/
structure Sessions (σ : Shift) (known : List Layer → Node → Prop) (w : Arena Value)
    (s t : Session) : Prop where
  world : s.arena = w
  arena : Arenas σ known s.arena t.arena
  settled : s.arena.Settled
  app : s.app.DeclaredAlike t.app
  meter : s.meter = t.meter
  inBody : s.inBody = t.inBody
  nextId : σ.Ident s.nextId t.nextId
  output : s.output = t.output

/-- A run beside another one in a different place. -/
def pairing (σ : Shift) (known : List Layer → Node → Prop) (left right : Context) : Pairing where
  toLikeness := σ.likeness known
  order := inferInstanceAs (Preorder (Arena Value))
  left := left
  right := right
  scope w _ := σ.Scope w
  sections _ _ := True
  state := Sessions σ known
  failure := (· = ·)

section Actions

variable {σ : Shift} {known : List Layer → Node → Prop} {left right : Context}
variable {w w' : Arena Value} {i j : Nat} {name : String} {pos : Position} {v u : Value}

/-- Counting and checking against a limit agree, since the counters are the same. -/
theorem agree_meter (count : Meter → Meter) (check : Meter → Except Diagnostic Unit) :
    (pairing σ known left right).Agree w (pairing σ known left right).Done
      (do
        modify fun s => { s with meter := count s.meter }
        Run.ofDiagnostic (check (← get).meter))
      (do
        modify fun s => { s with meter := count s.meter }
        Run.ofDiagnostic (check (← get).meter)) := by
  intro s t hs
  have hcounted : Sessions σ known w { s with meter := count s.meter }
      { t with meter := count t.meter } := { hs with meter := congrArg count hs.meter }
  change (pairing σ known left right).Ends w _ (Run.ofDiagnostic (check (count s.meter)) _)
    (Run.ofDiagnostic (check (count t.meter)) _)
  rw [hs.meter]
  cases check (count t.meter) with
  | ok _ => exact .ok le_rfl hcounted trivial
  | error d => exact .error le_rfl hcounted rfl

theorem agree_visit {n m : Node} :
    (pairing σ known left right).Agree w (pairing σ known left right).Done
      (Run.visit left i n) (Run.visit right j m) := by
  intro s t hs
  refine .ok le_rfl ?_ trivial
  -- what is recorded does not matter
  change Sessions σ known w (if left.recording then _ else _) (if right.recording then _ else _)
  split <;> split <;> exact { hs with }

theorem agree_define (kind : BindingKind) (hscope : σ.Scope w i j)
    (hv : (σ.likeness known).Values w v u) :
    (pairing σ known left right).Agree w (pairing σ known left right).Done
      (Run.define i name v kind pos) (Run.define j name u kind pos) := by
  intro s t hs
  obtain rfl := hs.world
  have hbindings : Bindings σ known s.arena (name, ⟨v, kind, pos⟩) (name, ⟨u, kind, pos⟩) :=
    ⟨rfl, rfl, rfl, hv⟩
  rw [Run.define, Run.define]
  rcases hs.arena.define hscope hbindings with ⟨d, ha, hb⟩ | ⟨a, b, ha, hb, hle, harena⟩
  · rw [ha, hb]
    exact .error le_rfl hs rfl
  · rw [ha, hb]
    have hsettled : a.Settled := by
      rw [Arena.define_eq_ok ha]
      exact (Arena.Restored.modify _ _ (Arena.kept_bind _ _)).settled hs.settled
    exact .ok hle { hs with world := rfl, arena := harena, settled := hsettled } trivial

theorem agree_lookup (name : String) (pos : Position) (hscope : σ.Scope w i j) :
    (pairing σ known left right).Agree w (pairing σ known left right).Values
      (Run.lookup i name pos) (Run.lookup j name pos) := by
  intro s t hs
  obtain rfl := hs.world
  rw [Run.lookup, Run.lookup]
  rcases hs.arena.lookup name pos hscope with ⟨e, ha, hb⟩ | ⟨v, u, ha, hb, hv⟩
  · rw [ha, hb]
    exact .error le_rfl hs rfl
  · rw [ha, hb]
    exact .ok le_rfl hs hv

theorem agree_assign (name : String) (pos : Position) (hscope : σ.Scope w i j)
    (hv : (σ.likeness known).Values w v u) :
    (pairing σ known left right).Agree w (pairing σ known left right).Done
      (Run.assign i name v pos) (Run.assign j name u pos) := by
  intro s t hs
  obtain rfl := hs.world
  rw [Run.assign, Run.assign]
  rcases hs.arena.assign name pos hscope hv with ⟨e, ha, hb⟩ | ⟨a, b, ha, hb, hle, harena⟩
  · rw [ha, hb]
    exact .error le_rfl hs rfl
  · rw [ha, hb]
    have hsettled : a.Settled := by
      obtain ⟨owner, rfl⟩ := Arena.assign_eq_ok ha
      exact (Arena.Restored.modify _ _ (Arena.kept_set _ _)).settled hs.settled
    exact .ok hle { hs with world := rfl, arena := harena, settled := hsettled } trivial

theorem agree_isBound (name : String) (hscope : σ.Scope w i j) :
    (pairing σ known left right).Agree w (fun _ => (· = ·)) (Run.isBound i name)
      (Run.isBound j name) := by
  intro s t hs
  obtain rfl := hs.world
  rw [Run.isBound, Run.isBound]
  rcases hs.arena.locate name hscope.index hscope.lt_size with
    ⟨ha, hb⟩ | ⟨k, l, x, y, -, ha, hb, -⟩
  · rw [ha, hb]
    exact .ok le_rfl hs rfl
  · rw [ha, hb]
    exact .ok le_rfl hs rfl

theorem agree_emit (v u : Value) :
    (pairing σ known left right).Agree w (pairing σ known left right).Done (Run.emit v)
      (Run.emit u) := by
  intro s t hs
  have hactive := hs.inBody
  rw [Session.inBody, Session.inBody] at hactive
  rw [Run.emit, Run.emit]
  cases hleft : s.active with
  | none =>
    rw [hleft, Option.isSome_none, eq_comm, Option.isSome_eq_false_iff,
      Option.isNone_iff_eq_none] at hactive
    rw [hactive]
    exact .error le_rfl hs rfl
  | some n =>
    rw [hleft, Option.isSome_some, eq_comm] at hactive
    obtain ⟨m, hright⟩ := Option.isSome_iff_exists.mp hactive
    rw [hright]
    -- content is no output, so its values need not be the same
    have houtput := Session.output_push_congr (a := .emitted v) (b := .emitted u) hs.output rfl
    exact .ok le_rfl
      { hs with app := hs.app.emit n m v u, inBody := rfl, output := houtput } trivial

theorem agree_setProperty (p : Property) (value : Data) (pos : Position) :
    (pairing σ known left right).Agree w (pairing σ known left right).Done
      (Run.setProperty p value pos) (Run.setProperty p value pos) := by
  intro s t hs
  rw [Run.setProperty, Run.setProperty]
  rcases hs.app.setProperty p value pos with ⟨d, ha, hb⟩ | ⟨a, b, ha, hb, happ⟩
  · rw [ha, hb]
    exact .error le_rfl hs rfl
  · rw [ha, hb]
    exact .ok le_rfl
      { hs with app := happ, output := Session.output_push_congr hs.output rfl } trivial

theorem agree_openBody (style : String) (pos : Position) :
    (pairing σ known left right).Agree w (fun _ => (pairing σ known left right).sections)
      (Run.openBody style pos) (Run.openBody style pos) := by
  intro s t hs
  rw [Run.openBody, Run.openBody]
  rcases hs.app.openBody style pos with ⟨d, ha, hb⟩ | ⟨a, b, ha, hb, happ⟩
  · rw [ha, hb]
    exact .error le_rfl hs rfl
  · rw [ha, hb]
    exact .ok le_rfl { hs with app := happ } trivial

theorem agree_printed (pos : Position) (text : String) :
    (pairing σ known left right).Agree w (pairing σ known left right).Done
      (Run.note (.printed pos text)) (Run.note (.printed pos text)) := by
  intro s t hs
  exact .ok le_rfl { hs with output := Session.output_push_congr hs.output rfl } trivial

theorem agree_freshId :
    (pairing σ known left right).Agree w (fun _ => σ.Ident) Run.freshId Run.freshId := by
  intro s t hs
  obtain ⟨k, hk, hl⟩ := hs.nextId
  exact .ok le_rfl { hs with nextId := ⟨k + 1, congrArg (· + 1) hk, congrArg (· + 1) hl⟩ }
    ⟨k, hk, hl⟩

/-- Capturing a scope leads to a world in which it is captured. -/
theorem agree_capture (hscope : σ.Scope w i j) :
    (pairing σ known left right).Agree w (fun w' _ _ => σ.Captured w' i j) (Run.capture i)
      (Run.capture j) := by
  intro s t hs
  obtain rfl := hs.world
  have hle : s.arena ≤ s.arena.capture i := s.arena.le_modify i Arena.kept_capture
  have harena : Arenas σ known (s.arena.capture i) (t.arena.capture j) := by
    refine hs.arena.modify hscope.index (fun _ _ => .mono hle)
      (fun f hi => absurd hi hscope.inner.ne') fun f g hfg => ?_
    exact { hfg with captured := rfl }
  have hsettled : (s.arena.capture i).Settled :=
    (Arena.Restored.modify _ _ Arena.kept_capture).settled hs.settled
  rw [Run.capture, Run.capture, if_pos hscope.lt_size,
    if_pos ((hscope.index.lt_iff hs.arena.size).mp hscope.lt_size)]
  refine .ok hle { hs with world := rfl, arena := harena, settled := hsettled } ?_
  obtain ⟨f, hf⟩ := Arena.exists_frame? hscope.lt_size
  refine { hscope.mono hle with captured := ⟨{ f with captured := true }, ?_, rfl⟩ }
  rw [Arena.capture, Arena.frame?_modify, if_pos rfl, hf]
  rfl

theorem agree_inScope (hleft : left.reclamation = .eager) (hright : right.reclamation = .eager)
    {x y : Nat → Run Completion} (hscope : σ.Scope w i j)
    (h : ∀ w' i' j', w ≤ w' → σ.Scope w' i' j' →
      (pairing σ known left right).Agree w' (pairing σ known left right).Completions (x i') (y j')) :
    (pairing σ known left right).Agree w (pairing σ known left right).Completions
      (Run.inScope left i x) (Run.inScope right j y) := by
  intro s t hs
  obtain rfl := hs.world
  have hinner : σ.Scope (s.arena.allocate (some i)) s.arena.size t.arena.size :=
    ⟨hs.arena.size, by rw [Arena.size_allocate]; omega, hscope.inner.trans hscope.lt_size⟩
  have hopened : Sessions σ known (s.arena.allocate (some i))
      { s with arena := s.arena.allocate (some i) }
      { t with arena := t.arena.allocate (some j) } :=
    { hs with
      world := rfl
      arena := hs.arena.allocate (.inner hscope.lt_size hscope.index)
      settled := Arena.settled_allocate _ _ }
  have hends := h _ _ _ (s.arena.le_allocate _) hinner _ _ hopened
  -- the scope is left whether its statements succeed or fail
  have hclose : ∀ {w' s' t'}, s.arena.allocate (some i) ≤ w' → Sessions σ known w' s' t' →
      Run.closeScope left s.arena.size s' = .ok () (s'.closed left s.arena.size) ∧
        Run.closeScope right t.arena.size t' = .ok () (t'.closed right t.arena.size) ∧
        s.arena ≤ w'.release .eager s.arena.size ∧
        Sessions σ known (w'.release .eager s.arena.size) (s'.closed left s.arena.size)
          (t'.closed right t.arena.size) := by
    intro w' s' t' hw hs'
    obtain rfl := hs'.world
    have hthere : s.arena.size < s'.arena.size :=
      hinner.lt_size.trans_le (Arena.size_le_of_le hw)
    have hthere' : t.arena.size < t'.arena.size :=
      (hs.arena.size.lt_iff hs'.arena.size).mp hthere
    refine ⟨Run.closeScope_eq hthere, Run.closeScope_eq hthere',
      Arena.le_release hs.settled hw, ?_⟩
    rw [Session.closed, Session.closed, hleft, hright]
    exact { hs' with
      world := rfl
      arena := hs'.arena.release hs.arena.size hinner.inner
      settled := Arena.settled_release _ _ }
  change (pairing σ known left right).Ends s.arena _
    (Run.closing (x s.arena.size) (Run.closeScope left s.arena.size) _)
    (Run.closing (y t.arena.size) (Run.closeScope right t.arena.size) _)
  rw [Run.closing, Run.closing]
  generalize x s.arena.size _ = r, y t.arena.size _ = r' at hends
  cases hends with
  | ok hw hs' hc =>
    obtain ⟨hthere, hthere', hle, hclosed⟩ := hclose hw hs'
    dsimp only
    rw [hthere, hthere']
    exact .ok hle hclosed (hc.mono fun _ _ _ => .release)
  | error hw hs' hf =>
    obtain ⟨hthere, hthere', hle, hclosed⟩ := hclose hw hs'
    dsimp only
    rw [hthere, hthere']
    exact .error hle hclosed hf

theorem agree_declareFunction (hknown : KnowsParts known) {layers : List Layer}
    {parameters : List String} {b : Block} (hscope : σ.Scope w i j)
    (hfunc : known layers (.stmt (.func pos name parameters b))) :
    (pairing σ known left right).Agree w (pairing σ known left right).Completions
      (Run.declareFunction i pos name parameters b)
      (Run.declareFunction j pos name parameters b) := by
  apply agree_freshId.bind
  intro w₁ m n hw₁ hident
  apply (agree_capture (hscope.mono hw₁)).bind
  intro w₂ _ _ hw₂ hcaptured
  have hclosure : (σ.likeness known).Closures w₂ ⟨m, name, parameters, b, i, pos⟩
      ⟨n, name, parameters, b, j, pos⟩ := by
    refine ⟨hident, rfl, rfl, .refl b, rfl, layers, hcaptured, fun s hs => ?_⟩
    exact hknown.stmt hfunc (List.Subset.refl _) hs
  exact (agree_define .func hcaptured.toScope (.closure hclosure)).bind fun _ _ _ _ _ =>
    .pure .normal

end Actions

/-- Elementary actions keep sessions the same but for the shift. -/
theorem lawful_pairing {σ : Shift} {known : List Layer → Node → Prop} {left right : Context}
    (hknown : KnowsParts known) (hsettings : left.settings = right.settings)
    (hpatience : left.patience = right.patience) (hleft : left.reclamation = .eager)
    (hright : right.reclamation = .eager) : (pairing σ known left right).Lawful where
  patience := hpatience
  defaultWebVersion := congrArg (·.defaultWebVersion) hsettings
  ident_iff := Ident.eq_iff
  knowsParts := hknown
  captured_mono := .mono
  scope_mono := .mono
  scope_of_captured := Captured.toScope
  rejected {p q} trouble message _ hp := by
    obtain rfl : p = q := hp
    rfl
  fault f := rfl
  nestedTooDeeply := rfl
  outOfPatience := rfl
  inBody_eq hs := hs.inBody
  activate _ hs := { hs with inBody := rfl }
  restore hs hs' := { hs' with inBody := hs.inBody }
  exitCall hs := { hs with meter := congrArg Meter.exit hs.meter }
  enterCall {w p q} name hp := by
    obtain rfl : p = q := hp
    change (pairing σ known left right).Agree w _ (Run.enterCall left name p)
      (Run.enterCall right name p)
    rw [Run.enterCall, Run.enterCall, hsettings]
    exact agree_meter (·.enter name) (·.checkDepth right.settings.toLimits p)
  step {w p q} hp := by
    obtain rfl : p = q := hp
    change (pairing σ known left right).Agree w _ (Run.step left p) (Run.step right p)
    rw [Run.step, Run.step, hsettings]
    exact agree_meter Meter.step (·.checkSteps right.settings.toLimits p)
  visit _ _ _ := agree_visit
  define {_ _ _ _ p q _ _ _} kind hscope _ hp hv := by
    obtain rfl : p = q := hp
    exact agree_define kind hscope hv
  lookup {_ _ _ _ p q} name hscope hp := by
    obtain rfl : p = q := hp
    exact agree_lookup name p hscope
  assign {_ _ _ _ p q _ _} name hscope hp hv := by
    obtain rfl : p = q := hp
    exact agree_assign name p hscope hv
  isBound name hscope := agree_isBound name hscope
  declareFunction {_ _ _ _ p q _ _ b b'} hscope hfunc hp hb := by
    obtain rfl : p = q := hp
    obtain rfl : b = b' := hb.eq Leeway.rigid_exact
    exact agree_declareFunction hknown hscope hfunc
  inScope l hscope h := agree_inScope hleft hright hscope h
  printed {w p q} text hp := by
    obtain rfl : p = q := hp
    exact agree_printed p text
  emit {_ v u} _ := agree_emit v u
  setProperty {w p q} kind value hp := by
    obtain rfl : p = q := hp
    exact agree_setProperty kind value p
  openBody {w p q} style hp := by
    obtain rfl : p = q := hp
    exact agree_openBody style p

end Shift

end MiniApp
