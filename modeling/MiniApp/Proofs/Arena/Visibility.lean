import Mathlib.Data.List.Nodup
import Mathlib.Data.Prod.Lex
import MiniApp.Proofs.Arena.Bindings

/-!
# Resolving names and listing them

A name is resolved by going up the chain of frames until one binds it; the visible names are listed
by going up the same chain and collecting what is new. Both agree in an arena that only live handles
have been used on: the names listed are those that are resolved, each once, in the order of the
frames that they are resolved to and of the declarations in these frames. So a name that is reported
as not declared is not among the names reported with it, and all other names are found.

## Main definitions

* `Arena.Ascends`: the frames of a chain of parents
* `Arena.Nearest`: the place in a chain at which a name is bound first
* `Arena.Unknown`: operations that report a name as not declared

## Main results

* `Arena.namesOf_cons`: the names of a frame come before those that it does not hide
* `Arena.resolution_of_live`: resolving and listing agree
-/

namespace MiniApp

namespace Arena

variable {α : Type} {a : Arena α} {i m owner : Nat} {p : Option Nat} {f : Frame α}
variable {frames : List (Frame α)} {name : String} {x : Binding α} {pos : Position}

/-! ## Chains -/

/-- The frames of a chain of parents, innermost first; the last one has no parent. -/
inductive Ascends (a : Arena α) : Option Nat → List (Frame α) → Prop
  | root : Ascends a none []
  | step {i : Nat} {f : Frame α} {frames : List (Frame α)} :
      a.frame? i = some f → Ascends a f.parent frames → Ascends a (some i) (f :: frames)

theorem ascends_of_chainFrom? (h : a.chainFrom? m p = some frames) : a.Ascends p frames := by
  induction frames generalizing m p with
  | nil =>
    obtain rfl := eq_none_of_chainFrom?_nil h
    exact .root
  | cons f frames ih =>
    obtain ⟨n, i, rfl, rfl, hf, habove⟩ := exists_of_chainFrom?_cons h
    exact .step hf (ih habove)

theorem Ascends.forall_frames (h : a.Ascends p frames) (ha : a.Distinct) :
    ∀ f ∈ frames, f.names.Nodup := by
  induction h with
  | root => exact fun _ hf => nomatch hf
  | step hf _ ih => exact List.forall_mem_cons.mpr ⟨ha _ _ hf, ih⟩

/-! ## Resolution -/

/-- A name that is bound in a chain is found, and what is not found is bound nowhere in it. -/
theorem locateFrom_cases (name : String) (h : a.chainFrom? m p = some frames) :
    (∃ owner x, a.locateFrom name m p = .bound owner x ∧ ∃ f ∈ frames, name ∈ f.names) ∨
      a.locateFrom name m p = .unbound ∧ ∀ f ∈ frames, name ∉ f.names := by
  -- resolution visits the frames of the chain one after the other
  induction frames generalizing m p with
  | nil =>
    obtain rfl := eq_none_of_chainFrom?_nil h
    exact .inr ⟨locateFrom_none name _, by simp⟩
  | cons f frames ih =>
    obtain ⟨n, i, rfl, rfl, hf, habove⟩ := exists_of_chainFrom?_cons h
    rw [locateFrom_of_frame? n hf]
    cases hx : f.find? name with
    | some x => exact .inl ⟨i, x, rfl, f, List.mem_cons_self, Frame.mem_names_of_find? hx⟩
    | none =>
      obtain ⟨owner, x, hfound, g, hg, hname⟩ | ⟨hfound, hnames⟩ := ih habove
      · exact .inl ⟨owner, x, hfound, g, List.mem_cons_of_mem f hg, hname⟩
      · exact .inr ⟨hfound, List.forall_mem_cons.mpr
          ⟨Frame.not_mem_names_of_find? hx, hnames⟩⟩

/-- The innermost visible binding is the one that is found. -/
theorem WellFormed.locateFrom_of_visible (ha : a.WellFormed) (h : a.Visible name i owner x)
    (hm : i < m) : a.locateFrom name m (some i) = .bound owner x := by
  obtain ⟨m, rfl⟩ := Nat.exists_eq_add_one_of_ne_zero (Nat.ne_zero_of_lt hm)
  induction h generalizing m with
  | here hf hx => rw [locateFrom_of_frame? m hf, hx]
  | outward hf hx hp _ ih =>
    -- the parent stands below, so one round less is enough for it
    have hlt := ha.parent hf hp
    obtain ⟨m, rfl⟩ := Nat.exists_eq_add_one_of_ne_zero (n := m) (by omega)
    rw [locateFrom_of_frame? _ hf, hx, hp]
    exact ih m (by omega)

theorem WellFormed.locate_eq_bound_iff (ha : a.WellFormed) (hi : i < a.size) :
    a.locate i name = .bound owner x ↔ a.Visible name i owner x :=
  ⟨visible_of_locateFrom, fun h => ha.locateFrom_of_visible h hi⟩

/-! ## Listing -/

/-- Names without those that came before. -/
private abbrev collect (seen names : List String) : List String :=
  names.foldl (fun seen n => if seen.contains n then seen else seen ++ [n]) seen

private theorem collect_concat (seen names : List String) (n : String) :
    collect seen (names ++ [n]) =
      if n ∈ collect seen names then collect seen names else collect seen names ++ [n] := by
  simp only [collect, List.foldl_append, List.foldl_cons, List.foldl_nil, List.contains_iff_mem]

/-- What is collected behind some names is what is collected without them, less these names. -/
private theorem collect_eq_append (seen names : List String) :
    collect seen names = seen ++ (collect [] names).filter (· ∉ seen) := by
  induction names using List.reverseRecOn with
  | nil => simp [collect]
  | append_singleton names n ih =>
    rw [collect_concat, collect_concat, ih]
    by_cases hn : n ∈ collect [] names <;> by_cases hseen : n ∈ seen <;> simp [hn, hseen]

private theorem collect_of_nodup {names : List String} (h : names.Nodup) :
    collect [] names = names := by
  induction names using List.reverseRecOn with
  | nil => rfl
  | append_singleton names n ih =>
    rw [← List.concat_eq_append, List.nodup_concat] at h
    rw [collect_concat, ih h.2, if_neg h.1]

private theorem mem_collect {names : List String} : name ∈ collect [] names ↔ name ∈ names := by
  induction names using List.reverseRecOn with
  | nil => simp [collect]
  | append_singleton names n ih =>
    rw [collect_concat, List.mem_append, ← ih, List.mem_singleton]
    split
    · next hn => exact ⟨.inl, Or.rec id fun h => h ▸ hn⟩
    · rw [List.mem_append, List.mem_singleton]

theorem mem_namesOf : name ∈ namesOf frames ↔ ∃ f ∈ frames, name ∈ f.names := by
  rw [← List.mem_flatMap]
  exact mem_collect

/-- The names of a frame come first, and behind them those further out that it does not hide. -/
theorem namesOf_cons (h : f.names.Nodup) :
    namesOf (f :: frames) = f.names ++ (namesOf frames).filter (· ∉ f.names) := by
  change collect [] (f.names ++ frames.flatMap Frame.names) = _
  rw [collect, List.foldl_append]
  change collect (collect [] f.names) _ = _
  rw [collect_of_nodup h, collect_eq_append]
  rfl

/-- `Nearest frames name (d, n)`: the name is bound in the frame at depth `d` of the chain, as the
entry number `n` of that frame, and in no frame further in. -/
structure Nearest (frames : List (Frame α)) (name : String) (place : ℕ × ℕ) : Prop where
  entry : ∃ f, frames[place.1]? = some f ∧ f.names[place.2]? = some name
  first : ∀ f ∈ frames.take place.1, name ∉ f.names

/-- One place comes before another one: its frame is further in, or it is declared earlier in the
same frame. -/
abbrev Sooner : ℕ × ℕ → ℕ × ℕ → Prop := Prod.Lex (· < ·) (· < ·)

theorem nearest_here {n : ℕ} (h : f.names[n]? = some name) : Nearest (f :: frames) name (0, n) where
  entry := ⟨f, rfl, h⟩
  first _ hg := nomatch hg

theorem Nearest.outward {place : ℕ × ℕ} (h : Nearest frames name place) (hname : name ∉ f.names) :
    Nearest (f :: frames) name (place.1 + 1, place.2) where
  entry := h.entry
  first := List.forall_mem_cons.mpr ⟨hname, h.first⟩

/-- A name that is bound in a chain has a place in it. -/
theorem exists_nearest (h : ∃ f ∈ frames, name ∈ f.names) :
    ∃ place, Nearest frames name place := by
  induction frames with
  | nil => simp at h
  | cons f frames ih =>
    by_cases hname : name ∈ f.names
    · obtain ⟨n, hn⟩ := List.mem_iff_getElem?.mp hname
      exact ⟨_, nearest_here hn⟩
    · obtain ⟨g, hg, hgname⟩ := h
      obtain rfl | hg := List.mem_cons.mp hg
      · exact absurd hgname hname
      · obtain ⟨place, hplace⟩ := ih ⟨g, hg, hgname⟩
        exact ⟨_, hplace.outward hname⟩

/-- Of two names the first one is bound sooner. -/
def Precedes (frames : List (Frame α)) (n m : String) : Prop :=
  ∃ p q, Nearest frames n p ∧ Nearest frames m q ∧ Sooner p q

/-- Names are listed in the order of the places at which they are bound first. -/
theorem pairwise_namesOf (h : ∀ f ∈ frames, f.names.Nodup) :
    (namesOf frames).Pairwise (Precedes frames) := by
  induction frames with
  | nil => exact .nil
  | cons f frames ih =>
    obtain ⟨hf, hframes⟩ := List.forall_mem_cons.mp h
    rw [namesOf_cons hf, List.pairwise_append]
    refine ⟨?_, ?_, ?_⟩
    · -- in one frame the order is that of the declarations
      rw [List.pairwise_iff_getElem]
      intro k l hk hl hkl
      exact ⟨(0, k), (0, l), nearest_here (List.getElem?_eq_getElem hk),
        nearest_here (List.getElem?_eq_getElem hl), .right 0 hkl⟩
    -- further out every frame is one step further from here, in the same order
    · refine ((ih hframes).sublist List.filter_sublist).imp_of_mem ?_
      rintro n m hn hm ⟨p, q, hp, hq, hpq⟩
      have hn' : n ∉ f.names := by simpa using List.of_mem_filter hn
      have hm' : m ∉ f.names := by simpa using List.of_mem_filter hm
      refine ⟨_, _, hp.outward hn', hq.outward hm', ?_⟩
      obtain hlt | ⟨heq, hlt⟩ := Prod.lex_def.mp hpq
      · exact Prod.lex_def.mpr (.inl (Nat.succ_lt_succ hlt))
      · exact Prod.lex_def.mpr (.inr ⟨congrArg (· + 1) heq, hlt⟩)
    -- a name of this frame precedes those that are found further out
    · intro n hn m hm
      obtain ⟨k, hk⟩ := List.mem_iff_getElem?.mp hn
      have hm' : m ∉ f.names := by simpa using List.of_mem_filter hm
      obtain ⟨q, hq⟩ := exists_nearest (mem_namesOf.mp (List.mem_of_mem_filter hm))
      exact ⟨_, _, nearest_here hk, hq.outward hm', .left _ _ (Nat.succ_pos _)⟩

theorem nodup_namesOf (h : ∀ f ∈ frames, f.names.Nodup) : (namesOf frames).Nodup := by
  induction frames with
  | nil => exact .nil
  | cons f frames ih =>
    obtain ⟨hf, hframes⟩ := List.forall_mem_cons.mp h
    rw [namesOf_cons hf, List.nodup_append]
    refine ⟨hf, (ih hframes).filter _, fun n hn m hm hnm => ?_⟩
    have hm' : m ∉ f.names := by simpa using List.of_mem_filter hm
    exact hm' (hnm ▸ hn)

/-- A name is bound and among the names of the chain, or neither. -/
theorem bound_or_unbound (h : a.chain? i = some frames) (name : String) :
    (∃ owner x, a.locate i name = .bound owner x ∧ name ∈ namesOf frames) ∨
      a.locate i name = .unbound ∧ name ∉ namesOf frames := by
  obtain ⟨owner, x, hfound, hmem⟩ | ⟨hfound, hnames⟩ := locateFrom_cases name h
  · exact .inl ⟨owner, x, hfound, mem_namesOf.mpr hmem⟩
  · refine .inr ⟨hfound, fun hmem => ?_⟩
    obtain ⟨f, hf, hmem⟩ := mem_namesOf.mp hmem
    exact hnames f hf hmem

/-! ## Names that are not declared -/

/-- An operation fails because a name is not declared, and reports the names that are. -/
def Unknown {β : Type} (r : Except ScopeFailure β) (name : String) (available : List String) :
    Prop :=
  ∃ d, r = .error (.rejected d) ∧ d.trouble = .undeclaredName (some name) available

section Unknown

variable {names available : List String} (hvisible : a.visibleNames? i = some names)

include hvisible

theorem unknown_undeclared {β : Type} (name : String) (pos : Position) :
    Unknown (.error (a.undeclared i name pos) : Except ScopeFailure β) name available ↔
      available = names := by
  rw [undeclared, hvisible]
  constructor
  · rintro ⟨d, hd, htrouble⟩
    obtain rfl := ScopeFailure.rejected.inj (Except.error.inj hd)
    exact (Trouble.undeclaredName.inj htrouble).2.symm
  · rintro rfl
    exact ⟨_, rfl, rfl⟩

variable (hname : (∃ owner x, a.locate i name = .bound owner x ∧ name ∈ names) ∨
  a.locate i name = .unbound ∧ name ∉ names)

include hname

theorem unknown_lookup_iff (pos : Position) :
    Unknown (a.lookup i name pos) name available ↔ name ∉ available ∧ available = names := by
  rw [lookup]
  obtain ⟨owner, x, hfound, hmem⟩ | ⟨hfound, hmem⟩ := hname
  · rw [hfound]
    constructor
    · rintro ⟨d, h, -⟩
      cases h
    · rintro ⟨hnot, rfl⟩
      exact absurd hmem hnot
  · rw [hfound, unknown_undeclared hvisible name pos]
    refine ⟨?_, And.right⟩
    rintro rfl
    exact ⟨hmem, rfl⟩

theorem unknown_assign_iff (v : α) (pos : Position) :
    Unknown (a.assign i name v pos) name available ↔ name ∉ available ∧ available = names := by
  rw [assign]
  obtain ⟨owner, x, hfound, hmem⟩ | ⟨hfound, hmem⟩ := hname
  · rw [hfound]
    constructor
    · rintro ⟨d, h, htrouble⟩
      -- a constant is not given another value, but it is declared
      dsimp only at h
      split at h
      · obtain rfl := ScopeFailure.rejected.inj (Except.error.inj h)
        cases htrouble
      · cases h
    · rintro ⟨hnot, rfl⟩
      exact absurd hmem hnot
  · rw [hfound, unknown_undeclared hvisible name pos]
    refine ⟨?_, And.right⟩
    rintro rfl
    exact ⟨hmem, rfl⟩

end Unknown

/-! ## Agreement -/

/-- Resolving and listing agree from every frame of an arena that only live handles have been used
on. The chain of its parents is complete. A name is found exactly if it is listed, and what is found
is its innermost visible binding. The list has no name twice and is in the order of the frames, from
the innermost one outward, and of the declarations in each frame. Looking up a name and assigning to
it report the name as not declared exactly if it is not listed, and the names reported with it are
those listed. -/
theorem resolution_of_live (h : Relation.ReflTransGen LiveStep {} a) (hi : i < a.size) :
    ∃ frames names, a.Ascends (some i) frames ∧ a.visibleNames? i = some names ∧
      (∀ name, (∃ owner x, a.locate i name = .bound owner x) ↔ name ∈ names) ∧
      (∀ name owner x, a.locate i name = .bound owner x ↔ a.Visible name i owner x) ∧
      names.Nodup ∧ names.Pairwise (Precedes frames) ∧
      (∀ name pos available, Unknown (a.lookup i name pos) name available ↔
        name ∉ available ∧ available = names) ∧
      ∀ name v pos available, Unknown (a.assign i name v pos) name available ↔
        name ∉ available ∧ available = names := by
  have ha : a.WellFormed := wellFormed_empty.of_live h
  have hdistinct : a.Distinct :=
    Distinct.empty.of_steps (h.lift id fun _ _ ⟨c, _, hc⟩ => ⟨c, hc⟩)
  obtain ⟨frames, hframes⟩ := ha.exists_chain? hi
  have hascends : a.Ascends (some i) frames := ascends_of_chainFrom? hframes
  have hnodup : ∀ f ∈ frames, f.names.Nodup := hascends.forall_frames hdistinct
  have hvisible : a.visibleNames? i = some (namesOf frames) := by rw [visibleNames?, hframes]; rfl
  have hname := bound_or_unbound hframes
  refine ⟨frames, namesOf frames, hascends, hvisible, fun name => ?_,
    fun name owner x => ha.locate_eq_bound_iff hi, nodup_namesOf hnodup, pairwise_namesOf hnodup,
    fun name pos available => unknown_lookup_iff hvisible (hname name) pos,
    fun name v pos available => unknown_assign_iff hvisible (hname name) v pos⟩
  obtain ⟨owner, x, hfound, hmem⟩ | ⟨hfound, hmem⟩ := hname name
  · exact ⟨fun _ => hmem, fun _ => ⟨owner, x, hfound⟩⟩
  · refine ⟨fun ⟨owner, x, hbound⟩ => ?_, fun hmem' => absurd hmem' hmem⟩
    rw [hfound] at hbound
    cases hbound

/-- A name that is declared anew further in is listed once, at its new place. -/
theorem resolution_of_live_hidden :
    ∃ a : Arena Nat, (Relation.ReflTransGen LiveStep {} a ∧ 1 < a.size) ∧
      a.visibleNames? 1 = some ["b", "a", "c"] ∧
      ∀ pos, Unknown (a.lookup 1 "d" pos) "d" ["b", "a", "c"] := by
  have hstep : ∀ {a : Arena Nat} (c : Command Nat), Relation.ReflTransGen LiveStep {} a →
      decide (c.Live a) = true → Relation.ReflTransGen LiveStep {} (c.perform a) :=
    fun c h hlive => h.tail ⟨c, of_decide_eq_true hlive, rfl⟩
  have h := hstep (.define 1 "a" ⟨4, .let, ⟨3, 3⟩⟩) (hstep (.define 1 "b" ⟨3, .let, ⟨2, 3⟩⟩)
    (hstep (.child 0) (hstep (.define 0 "c" ⟨2, .const, ⟨1, 9⟩⟩)
    (hstep (.define 0 "a" ⟨1, .let, ⟨1, 1⟩⟩) (hstep .root .refl
      (by cbv)) (by cbv)) (by cbv)) (by cbv)) (by cbv)) (by cbv)
  obtain ⟨frames, names, -, hvisible, -, -, -, -, hlookup, -⟩ :=
    resolution_of_live (i := 1) h (by cbv)
  refine ⟨_, ⟨h, by cbv⟩, by cbv, fun pos => (hlookup "d" pos _).mpr ⟨by decide, ?_⟩⟩
  refine Option.some.inj (Eq.trans ?_ hvisible)
  cbv

end Arena

end MiniApp
