import Mathlib.Data.List.Chain
import Mathlib.Data.List.Nodup
import MiniApp.Proofs.Arena.History

/-!
# Bindings in histories

As long as a frame is in the arena, its bindings are there: none is removed, each keeps its kind and
the place of its declaration, and a constant keeps its value. Binding a name adds one binding to one
frame, and assigning to a name changes the value of its innermost visible binding and nothing else.

## Main definitions

* `Binding.Stays`, `Frame.Stays`: what may become of bindings and of the bindings of a frame
* `Arena.Step`, `Arena.Trajectory`: arenas that come one after another
* `Arena.Visible`: the innermost binding of a name that is visible from a frame
* `Arena.Defines`, `Arena.Assigns`: one binding is added, one value is changed

## Main results

* `Arena.Trajectory.stays`: bindings stay as long as their frame is there
* `Arena.defines_of_define`, `Arena.assigns_of_assign`
-/

namespace MiniApp

variable {α : Type}

/-- What may become of a binding: it keeps its kind and place, and if it is constant, its value. -/
structure Binding.Stays (x y : Binding α) : Prop where
  kind : y.kind = x.kind
  pos : y.pos = x.pos
  value : x.kind = .const → y.value = x.value

theorem Binding.Stays.refl (x : Binding α) : x.Stays x := ⟨rfl, rfl, fun _ => rfl⟩

theorem Binding.Stays.trans {x y z : Binding α} (hxy : x.Stays y) (hyz : y.Stays z) :
    x.Stays z where
  kind := hyz.kind.trans hxy.kind
  pos := hyz.pos.trans hxy.pos
  value h := (hyz.value (hxy.kind.trans h)).trans (hxy.value h)

namespace Frame

variable {f g k : Frame α} {name : String} {x : Binding α}

/-- The bindings of a frame are still there. -/
def Stays (f g : Frame α) : Prop :=
  ∀ name x, f.find? name = some x → ∃ y, g.find? name = some y ∧ x.Stays y

theorem Stays.refl (f : Frame α) : f.Stays f := fun _ x hx => ⟨x, hx, .refl x⟩

theorem Stays.trans (hfg : f.Stays g) (hgk : g.Stays k) : f.Stays k := by
  intro name x hx
  obtain ⟨y, hy, hxy⟩ := hfg name x hx
  obtain ⟨z, hz, hyz⟩ := hgk name y hy
  exact ⟨z, hz, hxy.trans hyz⟩

theorem not_mem_names_of_find? (h : f.find? name = none) : name ∉ f.names := by
  intro hmem
  obtain ⟨entry, hentry, rfl⟩ := List.mem_map.mp hmem
  have hne := List.lookup_eq_none_iff.mp h entry hentry
  simp at hne

/-- The entry of a name, with those before and behind it. -/
theorem exists_entry (h : f.find? name = some x) :
    ∃ before after, f.bindings = before ++ (name, x) :: after := by
  obtain ⟨before, after, hb, -⟩ := List.lookup_eq_some_iff.mp h
  exact ⟨before, after, hb⟩

theorem stays_bind (name : String) (x : Binding α) : f.Stays (f.bind name x) := by
  intro n y hy
  refine ⟨y, ?_, .refl y⟩
  rw [find?, bind, List.lookup_append, ← find?, hy]
  rfl

theorem find?_set (value : α) (n : String) :
    (f.set name value).find? n =
      (f.find? n).map fun y => if n = name then { y with value } else y := by
  rw [find?, set, find?]
  induction f.bindings with
  | nil => rfl
  | cons entry rest ih =>
    obtain ⟨m, y⟩ := entry
    by_cases hn : n = m
    · subst hn
      rw [List.map_cons, List.lookup_cons_self]
      by_cases hname : n = name
      · simp only [if_pos hname, List.lookup_cons_self, Option.map_some]
      · simp only [if_neg hname, List.lookup_cons_self, Option.map_some]
    · have hbeq : (n == m) = false := beq_eq_false_iff_ne.mpr hn
      rw [List.map_cons]
      by_cases hname : m = name
      · rw [if_pos hname, List.lookup_cons, List.lookup_cons, hbeq]
        exact ih
      · rw [if_neg hname, List.lookup_cons, List.lookup_cons, hbeq]
        exact ih

theorem stays_set (hx : f.find? name = some x) (hkind : x.kind ≠ .const) (value : α) :
    f.Stays (f.set name value) := by
  intro n y hy
  rw [find?_set, hy]
  refine ⟨_, rfl, ?_⟩
  dsimp only
  by_cases hn : n = name
  · subst hn
    obtain rfl := Option.some.inj (hx.symm.trans hy)
    rw [if_pos rfl]
    exact ⟨rfl, rfl, fun hconst => absurd hconst hkind⟩
  · rw [if_neg hn]
    exact .refl y

/-- With names bound only once, exactly one entry is changed. -/
theorem bindings_set (hnodup : f.names.Nodup) {before after : List (String × Binding α)}
    (hf : f.bindings = before ++ (name, x) :: after) (value : α) :
    (f.set name value).bindings = before ++ (name, { x with value }) :: after := by
  rw [names, hf, List.map_append, List.map_cons, List.nodup_middle, List.nodup_cons,
    List.mem_append, not_or] at hnodup
  have hsame : ∀ entries : List (String × Binding α), name ∉ entries.map (·.1) →
      entries.map (fun entry =>
        if entry.1 = name then (entry.1, { entry.2 with value }) else entry) = entries := by
    intro entries hentries
    refine (List.map_congr_left fun entry hentry => ?_).trans (List.map_id entries)
    exact if_neg fun h : entry.1 = name => hentries (h ▸ List.mem_map_of_mem hentry)
  rw [set, hf, List.map_append, List.map_cons, hsame before hnodup.1.1, hsame after hnodup.1.2]
  exact congrArg (fun entry => before ++ entry :: after) (if_pos rfl)

end Frame

namespace Arena

variable {a b : Arena α} {i owner : Nat} {f g : Frame α} {name : String} {x : Binding α} {v : α}
variable {pos : Position}

/-! ## Visible bindings -/

/-- The innermost binding of a name that is visible from a frame, with the index of the frame that
it stands in. -/
inductive Visible (a : Arena α) (name : String) : Nat → Nat → Binding α → Prop
  | here {i : Nat} {f : Frame α} {x : Binding α} :
      a.frame? i = some f → f.find? name = some x → Visible a name i i x
  | outward {i p owner : Nat} {f : Frame α} {x : Binding α} :
      a.frame? i = some f → f.find? name = none → f.parent = some p →
      Visible a name p owner x → Visible a name i owner x

theorem visible_of_locateFrom {m : Nat} (h : a.locateFrom name m (some i) = .bound owner x) :
    a.Visible name i owner x := by
  induction m generalizing i with
  | zero => cases h
  | succ m ih =>
    cases hf : a.frame? i with
    | none => simp [locateFrom, hf] at h
    | some f =>
      rw [locateFrom_of_frame? m hf] at h
      cases hx : f.find? name with
      | some y =>
        rw [hx] at h
        obtain ⟨rfl, rfl⟩ := Found.bound.inj h
        exact .here hf hx
      | none =>
        rw [hx] at h
        cases hp : f.parent with
        | none => simp [hp, locateFrom_none] at h
        | some p =>
          rw [hp] at h
          exact .outward hf hx hp (ih h)

theorem Visible.exists_frame? (h : a.Visible name i owner x) :
    ∃ f, a.frame? owner = some f ∧ f.find? name = some x := by
  induction h with
  | here hf hx => exact ⟨_, hf, hx⟩
  | outward _ _ _ _ ih => exact ih

/-- What is assigned to is the innermost visible binding, and it is not constant. -/
theorem visible_of_assign (h : a.assign i name v pos = .ok b) :
    ∃ owner x, a.Visible name i owner x ∧ x.kind ≠ .const ∧ b = a.modify owner (·.set name v) := by
  rw [assign] at h
  split at h
  · next owner x hlocate =>
    split at h
    · cases h
    · next hkind =>
      exact ⟨owner, x, visible_of_locateFrom hlocate, hkind, (Except.ok.inj h).symm⟩
  · cases h
  · cases h

/-! ## Bindings stay -/

/-- One operation, through whatever handle. -/
def Step (a b : Arena α) : Prop := ∃ c : Command α, b = c.perform a

theorem Step.of_result {c : Command α} (h : c.result a = .ok b) : a.Step b :=
  ⟨c, by rw [Command.perform, h]⟩

/-- Looking up a name changes nothing. -/
theorem Step.refl (a : Arena α) : a.Step a := by
  refine ⟨.lookup 0 "" .start, ?_⟩
  rw [Command.perform, Command.result]
  cases a.lookup 0 "" .start <;> rfl

/-- The frame at an index, if it was there, is there with all its bindings. -/
def Stays (i : Nat) (a b : Arena α) : Prop :=
  ∀ f, a.frame? i = some f → ∃ g, b.frame? i = some g ∧ f.Stays g

theorem Stays.refl (i : Nat) (a : Arena α) : Stays i a a := fun f hf => ⟨f, hf, .refl f⟩

theorem Stays.trans {c : Arena α} (hab : Stays i a b) (hbc : Stays i b c) : Stays i a c := by
  intro f hf
  obtain ⟨g, hg, hfg⟩ := hab f hf
  obtain ⟨k, hk, hgk⟩ := hbc g hg
  exact ⟨k, hk, hfg.trans hgk⟩

theorem stays_allocate (i : Nat) (a : Arena α) (p : Option Nat) : Stays i a (a.allocate p) := by
  intro f hf
  refine ⟨f, ?_, .refl f⟩
  rw [frame?_allocate, if_neg (lt_size_of_frame? hf).ne, hf]

theorem stays_modify {k : Nat} {h : Frame α → Frame α}
    (hh : ∀ f, a.frame? k = some f → f.Stays (h f)) : Stays i a (a.modify k h) := by
  intro f hf
  rw [frame?_modify, hf]
  split
  · next hk => exact ⟨h f, rfl, hh f (hk ▸ hf)⟩
  · exact ⟨f, rfl, .refl f⟩

theorem stays_release {k : Nat} (hi : i < (a.release .eager k).size) :
    Stays i a (a.release .eager k) := by
  intro f hf
  obtain ⟨g, hg⟩ := Arena.exists_frame? hi
  obtain ⟨f', hf', rfl⟩ := frame?_of_release hg
  obtain rfl := Option.some.inj (hf.symm.trans hf')
  refine ⟨_, hg, ?_⟩
  split
  · exact .refl f
  · exact .refl f

/-- An operation that leaves a frame in the arena leaves its bindings. -/
theorem stays_perform (c : Command α) (hi : i < (c.perform a).size) : Stays i a (c.perform a) := by
  cases c with
  | root => exact stays_allocate i a none
  | child p => exact stays_allocate i a (some p)
  | define k name x =>
    rw [Command.perform, Command.result]
    cases h : a.define k name x with
    | ok b =>
      rw [define_eq_ok h]
      exact stays_modify fun f _ => f.stays_bind name x
    | error e => exact .refl i a
  | lookup k name pos =>
    rw [Command.perform, Command.result]
    cases a.lookup k name pos <;> exact .refl i a
  | assign k name v pos =>
    rw [Command.perform, Command.result]
    cases h : a.assign k name v pos with
    | ok b =>
      obtain ⟨owner, x, hvisible, hkind, rfl⟩ := visible_of_assign h
      obtain ⟨g, hg, hx⟩ := hvisible.exists_frame?
      -- the frame that is changed is the one in which the binding is not constant
      refine stays_modify fun f hf => ?_
      obtain rfl := Option.some.inj (hg.symm.trans hf)
      exact Frame.stays_set hx hkind v
    | error e => exact .refl i a
  | capture k =>
    rcases Command.perform_capture_cases a k with h | h
    · rw [h]
      exact stays_modify fun f _ => Frame.Stays.refl f
    · rw [h]
      exact .refl i a
  | release k =>
    rcases Command.perform_release_cases a k with h | h
    · rw [h] at hi ⊢
      exact stays_release hi
    · rw [h]
      exact .refl i a

/-! ## Trajectories -/

/-- Arenas that come one after another, from a first one to a last one, by one operation each. -/
structure Trajectory (a : Arena α) (moments : List (Arena α)) (b : Arena α) : Prop where
  steps : moments.IsChain Step
  head : moments.head? = some a
  last : moments.getLast? = some b

namespace Trajectory

variable {c : Arena α} {ms ns : List (Arena α)}

theorem single (a : Arena α) : Trajectory a [a] a := ⟨.singleton a, rfl, rfl⟩

theorem cons (hab : a.Step b) (h : Trajectory b ms c) : Trajectory a (a :: ms) c where
  steps := by
    refine List.isChain_cons.mpr ⟨fun y hy => ?_, h.steps⟩
    obtain rfl := Option.some.inj (h.head.symm.trans hy)
    exact hab
  head := rfl
  last := by rw [List.getLast?_cons, h.last]; rfl

theorem append (h : Trajectory a ms b) (h' : Trajectory b ns c) : Trajectory a (ms ++ ns) c where
  steps := by
    refine List.isChain_append.mpr ⟨h.steps, h'.steps, fun x hx y hy => ?_⟩
    obtain rfl := Option.some.inj (h.last.symm.trans hx)
    obtain rfl := Option.some.inj (h'.head.symm.trans hy)
    exact .refl b
  head := by rw [List.head?_append, h.head]; rfl
  last := by rw [List.getLast?_append, h'.last]; rfl

theorem reaches (h : Trajectory a ms b) : Relation.ReflTransGen Step a b := by
  have hne : ms ≠ [] := by
    rintro rfl
    cases h.head
  have hhead : ms.head hne = a := Option.some.inj ((List.head?_eq_some_head hne).symm.trans h.head)
  have hlast : ms.getLast hne = b :=
    Option.some.inj ((List.getLast?_eq_some_getLast hne).symm.trans h.last)
  have hsteps := List.relationReflTransGen_of_exists_isChain ms h.steps hne
  rwa [hhead, hlast] at hsteps

/-- As long as a frame is there, its bindings stay. -/
theorem stays (h : Trajectory a ms b) (hi : ∀ c ∈ ms, i < c.size) : ms.Pairwise (Stays i) := by
  have : Trans (Stays (α := α) i) (Stays i) (Stays i) := ⟨Stays.trans⟩
  refine List.isChain_iff_pairwise.mp (h.steps.imp_of_mem_imp fun c d _ hd hstep => ?_)
  obtain ⟨command, rfl⟩ := hstep
  exact stays_perform command (hi _ hd)

end Trajectory

/-! ## What is changed -/

/-- No frame binds a name twice. -/
def Distinct (a : Arena α) : Prop := ∀ i f, a.frame? i = some f → f.names.Nodup

namespace Distinct

theorem empty : Distinct ({} : Arena α) := fun _ _ h => nomatch h

theorem allocate (ha : a.Distinct) (p : Option Nat) : (a.allocate p).Distinct := by
  intro i f hf
  obtain ⟨-, rfl⟩ | hf := frame?_of_allocate hf
  · exact List.nodup_nil
  · exact ha i f hf

theorem modify (ha : a.Distinct) {k : Nat} {h : Frame α → Frame α}
    (hh : ∀ f, a.frame? k = some f → (h f).names.Nodup) : (a.modify k h).Distinct := by
  intro i g hg
  obtain ⟨f, hf, ⟨rfl, rfl⟩ | ⟨-, rfl⟩⟩ := frame?_of_modify hg
  · exact hh f hf
  · exact ha i g hf

end Distinct

/-- A name is bound where it was not bound before, and nothing else happens. -/
def Defines (a : Arena α) (i : Nat) (name : String) (x : Binding α) (b : Arena α) : Prop :=
  ∃ f, a.frame? i = some f ∧ f.find? name = none ∧
    b.frame? i = some { f with bindings := f.bindings ++ [(name, x)] } ∧
    ∀ j ≠ i, b.frame? j = a.frame? j

theorem defines_of_define (h : a.define i name x = .ok b) : a.Defines i name x b := by
  have hb := define_eq_ok h
  cases hf : a.frame? i with
  | none => simp [define, hf] at h
  | some f =>
    cases hx : f.find? name with
    | some y => simp [define, hf, hx] at h
    | none =>
      refine ⟨f, hf, hx, ?_, fun j hj => ?_⟩
      · rw [hb, frame?_modify, if_pos rfl, hf]
        rfl
      · rw [hb, frame?_modify, if_neg hj.symm]

/-- The innermost visible binding of a name, which is not constant, is given another value, and
nothing else happens. -/
def Assigns (a : Arena α) (i : Nat) (name : String) (v : α) (b : Arena α) : Prop :=
  ∃ owner x f before after, a.Visible name i owner x ∧ x.kind ≠ .const ∧
    a.frame? owner = some f ∧ f.bindings = before ++ (name, x) :: after ∧
    b.frame? owner =
      some { f with bindings := before ++ (name, { x with value := v }) :: after } ∧
    ∀ j ≠ owner, b.frame? j = a.frame? j

theorem assigns_of_assign (ha : a.Distinct) (h : a.assign i name v pos = .ok b) :
    a.Assigns i name v b := by
  obtain ⟨owner, x, hvisible, hkind, rfl⟩ := visible_of_assign h
  obtain ⟨f, hf, hx⟩ := hvisible.exists_frame?
  obtain ⟨before, after, hbindings⟩ := Frame.exists_entry hx
  refine ⟨owner, x, f, before, after, hvisible, hkind, hf, hbindings, ?_, fun j hj => ?_⟩
  · rw [frame?_modify, if_pos rfl, hf, ← Frame.bindings_set (ha owner f hf) hbindings v]
    rfl
  · rw [frame?_modify, if_neg hj.symm]

theorem Distinct.perform (ha : a.Distinct) (c : Command α) : (c.perform a).Distinct := by
  cases c with
  | root => exact ha.allocate none
  | child p => exact ha.allocate (some p)
  | define k name x =>
    rw [Command.perform, Command.result]
    cases h : a.define k name x with
    | ok b =>
      obtain ⟨f, hf, hx, -⟩ := defines_of_define h
      rw [define_eq_ok h]
      refine ha.modify fun f' hf' => ?_
      obtain rfl := Option.some.inj (hf.symm.trans hf')
      rw [Frame.names_bind, List.nodup_append]
      refine ⟨ha k f hf, List.nodup_singleton name, fun n hn m hm hnm => ?_⟩
      -- the name was not bound before
      rw [hnm, List.mem_singleton.mp hm] at hn
      exact Frame.not_mem_names_of_find? hx hn
    | error e => exact ha
  | lookup k name pos =>
    rw [Command.perform, Command.result]
    cases a.lookup k name pos <;> exact ha
  | assign k name v pos =>
    rw [Command.perform, Command.result]
    cases h : a.assign k name v pos with
    | ok b =>
      obtain ⟨owner, rfl⟩ := assign_eq_ok h
      refine ha.modify fun f hf => ?_
      rw [Frame.names_set]
      exact ha owner f hf
    | error e => exact ha
  | capture k =>
    rcases Command.perform_capture_cases a k with h | h
    · rw [h]
      exact ha.modify fun f hf => ha k f hf
    · rw [h]
      exact ha
  | release k =>
    rcases Command.perform_release_cases a k with h | h
    · rw [h]
      intro i g hg
      obtain ⟨f, hf, rfl⟩ := frame?_of_release hg
      have hnodup := ha i f hf
      split <;> exact hnodup
    · rw [h]
      exact ha

theorem Distinct.of_steps (ha : a.Distinct) (h : Relation.ReflTransGen Step a b) :
    b.Distinct := by
  induction h with
  | refl => exact ha
  | tail _ hstep ih =>
    obtain ⟨c, rfl⟩ := hstep
    exact ih.perform c

end Arena

end MiniApp
