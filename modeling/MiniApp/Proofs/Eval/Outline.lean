import Mathlib.Data.List.Forall2
import Mathlib.Data.Option.Basic
import MiniApp.Proofs.Arena

/-!
# Arenas with the same outline

Frames remember where names were declared, and diagnostics say where something went wrong. Two
diagnostics are alike if they differ in such places only; two arenas are alike if they differ in
places and in the values bound, as far as a given relation allows. Operations on names never look at
the places: in arenas that are alike they succeed or fail together.

## Main definitions

* `Diagnostic.Alike`, `ScopeFailure.Alike`: failures that differ in places only
* `Frame.outline`, `Arena.outline`: parents, marks and names
* `Frame.Alike`, `Arena.Alike`: frames and arenas that differ in places and values only

## Main results

* `Arena.Alike.outline_eq`: arenas that are alike have the same outline
* `Arena.Alike.define`, `Arena.Alike.lookup`, `Arena.Alike.assign`: what operations on names keep
* `Arena.Alike.allocate`, `Arena.Alike.release`: what opening and leaving scopes keeps
-/

namespace MiniApp

/-! ## Diagnostics -/

/-- A trouble with every place that it names made the same. -/
def Trouble.unplaced : Trouble → Trouble
  | .duplicateDeclaration name line column =>
    .duplicateDeclaration name (line.map fun _ => 0) (column.map fun _ => 0)
  | .constReassignment name line column =>
    .constReassignment name (line.map fun _ => 0) (column.map fun _ => 0)
  | t => t

/-- A message that ends with a place. -/
def placedMessage (text : String) (p : Position) : String :=
  text ++ toString p.line ++ ":" ++ toString p.column

/-- Diagnostics that differ in lines and columns only. The message for a property that is declared
twice ends with the place of the first declaration. -/
structure Diagnostic.Alike (d e : Diagnostic) : Prop where
  trouble : d.trouble.unplaced = e.trouble.unplaced
  message : d.message = e.message ∨ ∃ keyword text p q, d.trouble = .duplicateProperty keyword ∧
    d.message = placedMessage text p ∧ e.message = placedMessage text q
  path : d.path = e.path
  line : d.line.isSome = e.line.isSome
  column : d.column.isSome = e.column.isSome
  code : d.code = e.code

theorem Trouble.code_unplaced (t : Trouble) : t.unplaced.code = t.code := by cases t <;> rfl

namespace Diagnostic

variable {p q : Position} {t u : Trouble}

/-- Diagnostics at two places. -/
theorem alike_located (htrouble : t.unplaced = u.unplaced) (message : String) :
    Alike (.located p t message) (.located q u message) where
  trouble := htrouble
  message := .inl rfl
  path := rfl
  line := rfl
  column := rfl
  code := by rw [located, located, ← t.code_unplaced, htrouble, u.code_unplaced]

theorem Alike.inFileIfUnnamed {d e : Diagnostic} (h : d.Alike e) (path : String) :
    (d.inFileIfUnnamed path).Alike (e.inFileIfUnnamed path) := by
  rw [Diagnostic.inFileIfUnnamed, Diagnostic.inFileIfUnnamed, h.path]
  split
  · exact { h with path := rfl }
  · exact h

end Diagnostic

/-- Failures of scopes that differ in places only. -/
inductive ScopeFailure.Alike : ScopeFailure → ScopeFailure → Prop
  | dangling : Alike .dangling .dangling
  | rejected {d e : Diagnostic} : d.Alike e → Alike (.rejected d) (.rejected e)

/-- Results of operations on scopes that belong together: both fail, in ways that differ in places
only, or both succeed with results that are related. -/
inductive ScopeResults {α β : Type} (Q : α → β → Prop) :
    Except ScopeFailure α → Except ScopeFailure β → Prop
  | ok {a : α} {b : β} : Q a b → ScopeResults Q (.ok a) (.ok b)
  | error {e f : ScopeFailure} : e.Alike f → ScopeResults Q (.error e) (.error f)

/-! ## Frames -/

/-- Entries of two tables under one name. -/
structure Named {α β : Type} (Q : α → β → Prop) (x : String × α) (y : String × β) : Prop where
  name : x.1 = y.1
  entry : Q x.2 y.2

/-- A name stands in both tables or in neither. -/
theorem Named.lookup {α β : Type} {Q : α → β → Prop} {xs : List (String × α)}
    {ys : List (String × β)} (h : List.Forall₂ (Named Q) xs ys) (name : String) :
    Option.Rel Q (xs.lookup name) (ys.lookup name) := by
  rcases lookup_entries (fun _ _ hxy => hxy.name) h name with ⟨hx, hy⟩ | ⟨a, b, hx, hy, hab⟩
  · rw [hx, hy]
    exact .none
  · rw [hx, hy]
    exact .some hab.entry

/-- Bindings that differ in the place and, as far as `V` allows, in the value. -/
structure Binding.Alike {α β : Type} (V : α → β → Prop) (b : Binding α) (c : Binding β) : Prop where
  kind : b.kind = c.kind
  value : V b.value c.value

namespace Frame

/-- Parent, marks and names of a frame. -/
def outline {α : Type} (f : Frame α) : Option Nat × Bool × Bool × List String :=
  (f.parent, f.captured, f.released, f.names)

variable {α β : Type} {V : α → β → Prop}

/-- Frames that differ in places and values only. -/
structure Alike (V : α → β → Prop) (f : Frame α) (g : Frame β) : Prop where
  parent : f.parent = g.parent
  captured : f.captured = g.captured
  released : f.released = g.released
  bindings : List.Forall₂ (Named (Binding.Alike V)) f.bindings g.bindings

namespace Alike

variable {f : Frame α} {g : Frame β} (h : f.Alike V g) {name : String}
include h

theorem names_eq : f.names = g.names :=
  names_eq_of_entries (fun _ _ hxy => hxy.name) h.bindings

theorem outline_eq : f.outline = g.outline := by
  rw [outline, outline, h.parent, h.captured, h.released, h.names_eq]

theorem isGarbage_eq : f.isGarbage = g.isGarbage := by
  rw [isGarbage, isGarbage, h.captured, h.released]

/-- A name is bound in both frames or in neither. -/
theorem find? (name : String) : Option.Rel (Binding.Alike V) (f.find? name) (g.find? name) :=
  Named.lookup h.bindings name

theorem bind {b : Binding α} {c : Binding β} (hbc : b.Alike V c) :
    (f.bind name b).Alike V (g.bind name c) :=
  { h with bindings := List.rel_append h.bindings (.cons ⟨rfl, hbc⟩ .nil) }

theorem set {v : α} {u : β} (hvu : V v u) : (f.set name v).Alike V (g.set name u) := by
  refine { h with bindings := List.rel_map (fun x y hxy => ?_) h.bindings }
  rw [hxy.name]
  split
  · exact ⟨rfl, hxy.entry.kind, hvu⟩
  · exact hxy

end Alike

end Frame

/-! ## Arenas -/

namespace Arena

/-- Parents, marks and names of all frames, oldest first. -/
def outline {α : Type} (a : Arena α) : List (Option Nat × Bool × Bool × List String) :=
  a.frames.toList.map Frame.outline

variable {α β : Type} {V : α → β → Prop}

/-- Arenas that differ in places and values only. -/
def Alike (V : α → β → Prop) (a : Arena α) (b : Arena β) : Prop :=
  ∀ i, Option.Rel (Frame.Alike V) (a.frame? i) (b.frame? i)

/-- What resolution of a name finds in two arenas. -/
inductive Found.Alike (V : α → β → Prop) : Found α → Found β → Prop
  | bound (k : Nat) {x : Binding α} {y : Binding β} :
      x.Alike V y → Alike V (.bound k x) (.bound k y)
  | unbound : Alike V .unbound .unbound
  | dangling : Alike V .dangling .dangling

variable {a : Arena α} {b : Arena β} {i : Nat}

/-- How far an arena is reclaimed depends only on which of its frames are garbage. -/
theorem size_reclaim (a : Arena α) :
    a.reclaim.size = ((a.frames.toList.map Frame.isGarbage).rdropWhile id).length := by
  rw [size_eq_length, toList_reclaim, List.rdropWhile, List.rdropWhile, ← List.map_reverse,
    List.dropWhile_map, List.length_reverse, List.length_reverse, List.length_map]
  rfl

theorem frame?_eq_none_iff : a.frame? i = none ↔ a.size ≤ i := Array.getElem?_eq_none_iff

namespace Alike

theorem empty : Alike V ({} : Arena α) ({} : Arena β) := fun _ => .none

variable (h : a.Alike V b)
include h

/-- An index leads to frames that are alike, or out of both arenas. -/
theorem frame?_cases (i : Nat) : (a.frame? i = none ∧ b.frame? i = none) ∨
    ∃ f g, a.frame? i = some f ∧ b.frame? i = some g ∧ f.Alike V g := by
  have hi := h i
  generalize a.frame? i = x, b.frame? i = y at hi ⊢
  cases hi with
  | none => exact .inl ⟨rfl, rfl⟩
  | some hfg => exact .inr ⟨_, _, rfl, rfl, hfg⟩

theorem size_eq : a.size = b.size := by
  have hnone : ∀ i, a.size ≤ i ↔ b.size ≤ i := by
    intro i
    rw [← frame?_eq_none_iff, ← frame?_eq_none_iff]
    rcases h.frame?_cases i with ⟨ha, hb⟩ | ⟨f, g, ha, hb, -⟩ <;> simp [ha, hb]
  exact le_antisymm ((hnone b.size).mpr le_rfl) ((hnone a.size).mp le_rfl)

theorem outline_eq : a.outline = b.outline := by
  apply List.ext_getElem?
  intro i
  rw [outline, outline, List.getElem?_map, List.getElem?_map, ← frame?_eq_toList,
    ← frame?_eq_toList]
  rcases h.frame?_cases i with ⟨ha, hb⟩ | ⟨f, g, ha, hb, hfg⟩
  · rw [ha, hb]
    rfl
  · rw [ha, hb, Option.map_some, Option.map_some, hfg.outline_eq]

/-! ### Opening and leaving scopes -/

theorem allocate (parent : Option Nat) : (a.allocate parent).Alike V (b.allocate parent) := by
  intro i
  rw [frame?_allocate, frame?_allocate, h.size_eq]
  split
  · exact .some ⟨rfl, rfl, rfl, .nil⟩
  · exact h i

theorem modify {F : Frame α → Frame α} {G : Frame β → Frame β} (k : Nat)
    (hFG : ∀ f g, f.Alike V g → (F f).Alike V (G g)) : (a.modify k F).Alike V (b.modify k G) := by
  intro i
  rw [frame?_modify, frame?_modify]
  split
  · rcases h.frame?_cases i with ⟨ha, hb⟩ | ⟨f, g, ha, hb, hfg⟩
    · rw [ha, hb]
      exact .none
    · rw [ha, hb]
      exact .some (hFG f g hfg)
  · exact h i

theorem capture (k : Nat) : (a.capture k).Alike V (b.capture k) :=
  h.modify k fun _ _ hfg => { hfg with captured := rfl }

theorem reclaim : a.reclaim.Alike V b.reclaim := by
  have hsize : a.reclaim.size = b.reclaim.size := by
    have hgarbage : a.frames.toList.map Frame.isGarbage = b.frames.toList.map Frame.isGarbage := by
      have houtline := congrArg (List.map fun x => x.2.2.1 && !x.2.1) h.outline_eq
      rwa [outline, outline, List.map_map, List.map_map] at houtline
    rw [size_reclaim, size_reclaim, hgarbage]
  intro i
  by_cases hi : i < a.reclaim.size
  · rw [frame?_reclaim hi, frame?_reclaim (hsize ▸ hi)]
    exact h i
  · rw [frame?_eq_none_iff.mpr (by omega), frame?_eq_none_iff.mpr (by omega)]
    exact .none

theorem release (policy : Reclamation) (k : Nat) :
    (a.release policy k).Alike V (b.release policy k) := by
  have hmarked := h.modify k (F := ({ · with released := true })) (G := ({ · with released := true }))
    fun _ _ hfg => { hfg with released := rfl }
  cases policy with
  | eager => exact hmarked.reclaim
  | never => exact hmarked

/-! ### Names -/

/-- Chains are followed in both arenas alike. -/
theorem chainFrom?_names (m : Nat) (p : Option Nat) :
    (a.chainFrom? m p).map (·.map Frame.names) = (b.chainFrom? m p).map (·.map Frame.names) := by
  induction m generalizing p with
  | zero => cases p <;> rfl
  | succ m ih =>
    cases p with
    | none => rfl
    | some i =>
      rcases h.frame?_cases i with ⟨ha, hb⟩ | ⟨f, g, ha, hb, hfg⟩
      · simp [chainFrom?, ha, hb]
      · rw [chainFrom?_of_frame? m ha, chainFrom?_of_frame? m hb, hfg.parent]
        have hrest := ih g.parent
        generalize a.chainFrom? m g.parent = fs, b.chainFrom? m g.parent = gs at hrest ⊢
        cases fs <;> cases gs <;> simp_all [hfg.names_eq]

theorem visibleNames?_eq (i : Nat) : a.visibleNames? i = b.visibleNames? i := by
  have hchain := h.chainFrom?_names a.size (some i)
  rw [visibleNames?, visibleNames?, chain?, chain?, ← h.size_eq]
  generalize a.chainFrom? a.size (some i) = fs, b.chainFrom? a.size (some i) = gs at hchain ⊢
  cases fs with
  | none => rw [Option.map_eq_none_iff.mp hchain.symm, Option.map_none, Option.map_none]
  | some fs =>
    obtain ⟨gs, rfl, hnames⟩ := Option.map_eq_some_iff.mp hchain.symm
    rw [Option.map_some, Option.map_some, namesOf_congr hnames]

theorem locateFrom (name : String) (m : Nat) (p : Option Nat) :
    Found.Alike V (a.locateFrom name m p) (b.locateFrom name m p) := by
  -- both arenas lead from frame to frame along the same parents
  induction m generalizing p with
  | zero => cases p <;> constructor
  | succ m ih =>
    cases p with
    | none =>
      rw [locateFrom_none, locateFrom_none]
      exact .unbound
    | some i =>
      rcases h.frame?_cases i with ⟨ha, hb⟩ | ⟨f, g, ha, hb, hfg⟩
      · simp only [Arena.locateFrom, ha, hb]
        exact .dangling
      · rw [locateFrom_of_frame? m ha, locateFrom_of_frame? m hb, hfg.parent]
        have hfind := hfg.find? name
        generalize f.find? name = x, g.find? name = y at hfind
        cases hfind with
        | none => exact ih g.parent
        | some hxy => exact .bound i hxy

theorem locate (i : Nat) (name : String) : Found.Alike V (a.locate i name) (b.locate i name) := by
  rw [Arena.locate, Arena.locate, h.size_eq]
  exact h.locateFrom name b.size (some i)

theorem undeclared (i : Nat) (name : String) (p q : Position) :
    (a.undeclared i name p).Alike (b.undeclared i name q) := by
  rw [Arena.undeclared, Arena.undeclared, h.visibleNames?_eq i]
  cases b.visibleNames? i with
  | none => exact .dangling
  | some names => exact .rejected (Diagnostic.alike_located rfl _)

theorem define (i : Nat) (name : String) {x : Binding α} {y : Binding β} (hxy : x.Alike V y) :
    ScopeResults (Alike V) (a.define i name x) (b.define i name y) := by
  rw [Arena.define, Arena.define]
  rcases h.frame?_cases i with ⟨ha, hb⟩ | ⟨f, g, ha, hb, hfg⟩
  · rw [ha, hb]
    exact .error .dangling
  · rw [ha, hb]
    dsimp only
    have hfind := hfg.find? name
    generalize f.find? name = z, g.find? name = z' at hfind
    cases hfind with
    | none => exact .ok (h.modify i fun _ _ hfg => hfg.bind hxy)
    | some _ =>
      refine .error (.rejected (Diagnostic.alike_located ?_ _))
      rfl

theorem lookup (i : Nat) (name : String) (p q : Position) :
    ScopeResults V (a.lookup i name p) (b.lookup i name q) := by
  rw [Arena.lookup, Arena.lookup]
  have hfound := h.locate i name
  generalize a.locate i name = x, b.locate i name = y at hfound
  cases hfound with
  | bound k hxy => exact .ok hxy.value
  | unbound => exact .error (h.undeclared i name p q)
  | dangling => exact .error .dangling

theorem assign (i : Nat) (name : String) {v : α} {u : β} (p q : Position) (hvu : V v u) :
    ScopeResults (Alike V) (a.assign i name v p) (b.assign i name u q) := by
  rw [Arena.assign, Arena.assign]
  have hfound := h.locate i name
  generalize a.locate i name = x, b.locate i name = y at hfound
  cases hfound with
  | bound k hxy =>
    dsimp only
    rw [hxy.kind]
    split
    · refine .error (.rejected (Diagnostic.alike_located ?_ _))
      rfl
    · exact .ok (h.modify k fun _ _ hfg => hfg.set hvu)
  | unbound => exact .error (h.undeclared i name p q)
  | dangling => exact .error .dangling

end Alike

end Arena

end MiniApp
