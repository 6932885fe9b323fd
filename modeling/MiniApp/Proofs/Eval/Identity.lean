import Mathlib
import MiniApp.Proofs.Equality
import MiniApp.Proofs.Eval.Tracing

/-!
# Functions and their identity

In the accounts of any runs in one session, one run after another, each declaration of a function
that has been executed has made a function of its own. Its identity tells it from all others, and so
do its frame and its name. Whatever a function was bound to, passed to or returned from in between,
where it turns up as the value of an expression it is one of those that have been made before.

A function is equal to itself only, then, so equal values cannot be told apart: not by their types,
not in a test, and not by the texts that show them.

## Main definitions

* `Session.chronicle`: the account of several runs
* `MadeAt`: functions made by an entry of an account
* `Value.OfRuns`: the values that runs work with

## Main results

* `Session.chronicle_functions`: functions are equal if and only if one entry has made both
* `Value.equal_congruence`: equality of values
-/

namespace MiniApp

/-! ## Functions in orderly accounts -/

/-- The entry at an index of the account tells that the function has been made. -/
def MadeAt (l : List Entry) (k : Nat) (f : Closure) : Prop := ∃ m, l[k]? = some m ∧ m.Makes f

namespace Orderly

variable {bs : List Builtin} {l : List Entry} {i j k : Nat} {m n : Entry} {f g : Closure}
variable (h : Orderly bs l)
include h

theorem eq_of_madeAt (hf : MadeAt l k f) (hg : MadeAt l k g) : f = g := by
  obtain ⟨m, hm, hf⟩ := hf
  obtain ⟨n, hn, hg⟩ := hg
  obtain rfl := Option.some.inj (hm.symm.trans hn)
  exact (h k m hm).unique hf hg

theorem existsUnique_madeAt (hm : l[k]? = some m) (hfunction : m.deed.IsFunction) :
    ∃! f, MadeAt l k f := by
  obtain ⟨f, hf⟩ := (h k m hm).makes hfunction
  exact ⟨f, ⟨m, hm, hf⟩, fun g hg => h.eq_of_madeAt hg ⟨m, hm, hf⟩⟩

theorem apart_of_lt (hij : i < j) (hf : MadeAt l i f) (hg : MadeAt l j g) :
    f.id ≠ g.id ∧ ¬ (f.frame = g.frame ∧ f.name = g.name) := by
  obtain ⟨m, hm, hf⟩ := hf
  obtain ⟨n, hn, hg⟩ := hg
  have hmem : m ∈ l.take j := by
    rw [← List.getElem?_take_of_lt hij] at hm
    exact List.mem_of_getElem? hm
  exact (h j n hn).apart hmem hf hg

/-- Functions that different entries have made differ in identity, and in frame or name. -/
theorem apart (hij : i ≠ j) (hf : MadeAt l i f) (hg : MadeAt l j g) :
    f.id ≠ g.id ∧ ¬ (f.frame = g.frame ∧ f.name = g.name) := by
  rcases Nat.lt_or_gt_of_ne hij with hlt | hgt
  · exact h.apart_of_lt hlt hf hg
  · obtain ⟨hid, hplace⟩ := h.apart_of_lt hgt hg hf
    exact ⟨hid.symm, fun ⟨hframe, hname⟩ => hplace ⟨hframe.symm, hname.symm⟩⟩

theorem id_eq_iff (hf : MadeAt l i f) (hg : MadeAt l j g) : f.id = g.id ↔ i = j := by
  refine ⟨fun hid => by_contra fun hij => (h.apart hij hf hg).1 hid, ?_⟩
  rintro rfl
  rw [h.eq_of_madeAt hf hg]

theorem place_eq_iff (hf : MadeAt l i f) (hg : MadeAt l j g) :
    f.frame = g.frame ∧ f.name = g.name ↔ i = j := by
  refine ⟨fun hplace => by_contra fun hij => (h.apart hij hf hg).2 hplace, ?_⟩
  rintro rfl
  rw [h.eq_of_madeAt hf hg]
  exact ⟨rfl, rfl⟩

/-- A function that turns up as a value has been made before. -/
theorem exists_earlier {e : Expr} (hm : l[k]? = some m)
    (hdeed : m.deed = .evaluated e (.closure f)) : ∃ i < k, MadeAt l i f := by
  obtain ⟨n, hn, hf⟩ := (h k m hm).evaluated hdeed
  obtain ⟨i, hi⟩ := List.mem_iff_getElem?.mp hn
  rw [List.getElem?_take] at hi
  split at hi
  · next hlt => exact ⟨i, hlt, n, hi, hf⟩
  · cases hi

/-- A function is the only one with its identity. -/
theorem closure_eq (hf : (Value.closure f).Comes bs l) (hg : (Value.closure g).Comes bs l)
    (hid : f.id = g.id) : f = g := by
  obtain ⟨m, hm, hf⟩ := hf
  obtain ⟨n, hn, hg⟩ := hg
  obtain ⟨i, hi⟩ := List.mem_iff_getElem?.mp hm
  obtain ⟨j, hj⟩ := List.mem_iff_getElem?.mp hn
  have hf : MadeAt l i f := ⟨m, hi, hf⟩
  have hg : MadeAt l j g := ⟨n, hj, hg⟩
  obtain rfl := (h.id_eq_iff hf hg).mp hid
  exact h.eq_of_madeAt hf hg

end Orderly

/-! ## Several runs -/

namespace Session

/-- The account of runs of several programs in one session, one run after another. -/
def chronicle (cx : Context) (allowance : Nat) : List (String × Program) → Session → List Entry
  | [], _ => []
  | (path, p) :: runs, s =>
    s.account cx allowance p ++ chronicle cx allowance runs (run cx allowance path p s).2

theorem Traced.chronicle {bs : List Builtin} {l : List Entry} {s : Session} (h : s.Traced bs l)
    (cx : Context) (allowance : Nat) (runs : List (String × Program)) :
    ∃ bs' t, Traced bs' (l ++ chronicle cx allowance runs s) t := by
  induction runs generalizing bs l s with
  | nil => exact ⟨bs, s, by rwa [Session.chronicle, List.append_nil]⟩
  | cons r runs ih =>
    obtain ⟨path, p⟩ := r
    -- the account of the run goes to what has been told before the others
    rw [Session.chronicle, ← List.append_assoc]
    exact ih (h.run cx allowance path p)

/-- Functions have an identity. Over any runs in one session, each declaration of a function that
has been executed has made one function. Two functions that have been made are equal, as the
operator says, if and only if one and the same entry tells of both, and this is so if and only if
they have the same frame and the same name. Every declared function that an expression has been
evaluated to is one that has been made before. -/
theorem chronicle_functions (cx : Context) (allowance : Nat) (runs : List (String × Program)) :
    let es := chronicle cx allowance runs {}
    (∀ (k : Nat) (m : Entry), es[k]? = some m → m.deed.IsFunction → ∃! f, MadeAt es k f) ∧
    (∀ i j f g, MadeAt es i f → MadeAt es j g →
      (∀ pos, Operation.binary pos .eq (.closure f) (.closure g) =
        .ok (.bool (decide (i = j)))) ∧
      (f.frame = g.frame ∧ f.name = g.name ↔ i = j)) ∧
    ∀ (k : Nat) (m : Entry) (e : Expr) (f : Closure), es[k]? = some m →
      m.deed = .evaluated e (.closure f) → ∃ i < k, MadeAt es i f := by
  obtain ⟨bs, t, htraced⟩ := Traced.fresh.chronicle cx allowance runs
  have horderly := htraced.orderly
  refine ⟨fun k m => horderly.existsUnique_madeAt, fun i j f g hf hg =>
    ⟨fun pos => ?_, horderly.place_eq_iff hf hg⟩, fun k m e f => horderly.exists_earlier⟩
  have hequal : (Value.closure f).equal (.closure g) = decide (i = j) :=
    decide_eq_decide.mpr (horderly.id_eq_iff hf hg)
  change Except.ok (Value.bool ((Value.closure f).equal (.closure g))) = _
  rw [hequal]

/-- Two runs of a program that calls a function twice, which declares another one and returns it:
the two functions that are returned are different ones, in frames of their own. -/
theorem chronicle_functions_twice :
    let cx : Context := { settings := {}, patience := 5 }
    ∃ (p : Program) (deed : Deed), let es := chronicle cx 20 [("", p), ("", p)] {}
      (es[2]?.map (·.deed) = some deed ∧ es[7]?.map (·.deed) = some deed ∧ deed.IsFunction) ∧
      ∃ f g, MadeAt es 2 f ∧ MadeAt es 7 g ∧ ¬ (f.frame = g.frame ∧ f.name = g.name) ∧
        ∀ pos, Operation.binary pos .eq (.closure f) (.closure g) = .ok (.bool false) := by
  intro cx
  let p : Program := ⟨⟨1, 1⟩, [
    .func ⟨1, 1⟩ "f" [] (.mk ⟨1, 10⟩ [.func ⟨1, 12⟩ "g" [] (.mk ⟨1, 21⟩ []),
      .return ⟨1, 24⟩ (some (.ident ⟨1, 31⟩ "g"))]),
    .expr ⟨2, 1⟩ (.binary ⟨2, 1⟩ .eq (.call ⟨2, 1⟩ (.ident ⟨2, 1⟩ "f") [])
      (.call ⟨2, 8⟩ (.ident ⟨2, 8⟩ "f") []))]⟩
  let deed : Deed := .executed (.func ⟨1, 12⟩ "g" [] (.mk ⟨1, 21⟩ []))
  have hi : (chronicle cx 20 [("", p), ("", p)] {})[2]?.map (·.deed) = some deed := by cbv
  have hj : (chronicle cx 20 [("", p), ("", p)] {})[7]?.map (·.deed) = some deed := by cbv
  obtain ⟨hmakes, hequal, -⟩ := chronicle_functions cx 20 [("", p), ("", p)]
  obtain ⟨m, hm, hmdeed⟩ := Option.map_eq_some_iff.mp hi
  obtain ⟨n, hn, hndeed⟩ := Option.map_eq_some_iff.mp hj
  have hfunction : deed.IsFunction := trivial
  obtain ⟨f, hf, -⟩ := hmakes 2 m hm (hmdeed ▸ hfunction)
  obtain ⟨g, hg, -⟩ := hmakes 7 n hn (hndeed ▸ hfunction)
  obtain ⟨hbinary, hplace⟩ := hequal 2 7 f g hf hg
  exact ⟨p, deed, ⟨hi, hj, hfunction⟩, f, g, hf, hg, fun h => absurd (hplace.mp h) (by decide),
    hbinary⟩

end Session

/-! ## Equality of values -/

namespace Value

/-- The values that runs in one session work with: values that are no functions, and those that
expressions have been evaluated to. -/
def OfRuns (cx : Context) (allowance : Nat) (runs : List (String × Program)) (v : Value) : Prop :=
  v.IsData ∨ ∃ m ∈ Session.chronicle cx allowance runs {}, ∃ e, m.deed = .evaluated e v

theorem OfRuns.comes {cx : Context} {allowance : Nat} {runs : List (String × Program)} {v : Value}
    (h : v.OfRuns cx allowance runs) {bs : List Builtin}
    (horderly : Orderly bs (Session.chronicle cx allowance runs {})) :
    v.Comes bs (Session.chronicle cx allowance runs {}) := by
  rcases h with hdata | ⟨m, hm, e, hdeed⟩
  · exact hdata.comes
  · obtain ⟨k, hk⟩ := List.mem_iff_getElem?.mp hm
    exact ((horderly k m hk).evaluated hdeed).later (List.take_subset k _)

/-- Equality is a congruence. It is symmetric and transitive, and reflexive but for the double that
is no number. Equal values are of the same type and count the same in a test, and if they are values
that runs in one session work with, the same text shows them, or neither can be shown. -/
theorem equal_congruence :
    (∀ v w : Value, v.equal w = w.equal v) ∧
    (∀ v w u : Value, v.equal w = true → w.equal u = true → v.equal u = true) ∧
    (∀ v : Value, v.equal v = true ↔ v ≠ .number (.double .nan)) ∧
    (∀ v w : Value, v.equal w = true → v.typeName = w.typeName ∧ v.isTruthy = w.isTruthy) ∧
    ∀ cx allowance runs (v w : Value), v.OfRuns cx allowance runs → w.OfRuns cx allowance runs →
      v.equal w = true → v.display = w.display := by
  refine ⟨fun v w => Bool.eq_iff_iff.mpr ⟨equal_symm, equal_symm⟩, fun v w u => equal_trans,
    fun v => equal_self_iff, fun v w h => ⟨typeName_eq_of_equal h, isTruthy_eq_of_equal h⟩,
    fun cx allowance runs v w hv hw h => ?_⟩
  obtain ⟨bs, t, htraced⟩ := Session.Traced.fresh.chronicle cx allowance runs
  have hv := hv.comes htraced.orderly
  have hw := hw.comes htraced.orderly
  refine display_eq_of_equal h ?_ ?_
  · rintro f g rfl rfl
    exact htraced.orderly.closure_eq hv hw
  · rintro f g rfl rfl
    exact List.inj_on_of_nodup_map htraced.distinct hv hw

/-- Zero is equal to the negative zero among the doubles, and a function that is declared to itself:
they are shown the same. -/
theorem equal_congruence_zero :
    let cx : Context := { settings := {}, patience := 5 }
    ∃ (p : Program) (v w f : Value),
      (v.OfRuns cx 20 [("", p)] ∧ w.OfRuns cx 20 [("", p)] ∧ v ≠ w ∧ v.equal w = true) ∧
      w.equal v = true ∧ v.typeName = w.typeName ∧ v.isTruthy = w.isTruthy ∧
      v.display = w.display ∧
      (f.OfRuns cx 20 [("", p)] ∧ f.typeName = "function") ∧ f.equal f = true := by
  intro cx
  let p : Program := ⟨⟨1, 1⟩, [.func ⟨1, 1⟩ "f" [] (.mk ⟨1, 10⟩ []),
    .expr ⟨2, 1⟩ (.ident ⟨2, 1⟩ "f")]⟩
  let f : Closure := ⟨2, "f", [], .mk ⟨1, 10⟩ [], 1, ⟨1, 1⟩⟩
  have hdeed : (Session.chronicle cx 20 [("", p)] {})[1]?.map (·.deed) =
      some (.evaluated (.ident ⟨2, 1⟩ "f") (.closure f)) := by cbv
  obtain ⟨m, hm, hmdeed⟩ := Option.map_eq_some_iff.mp hdeed
  have hf : (Value.closure f).OfRuns cx 20 [("", p)] :=
    .inr ⟨m, List.mem_of_getElem? hm, _, hmdeed⟩
  let v : Value := .number (.int 0)
  let w : Value := .number (.double (.zero true))
  have hv : v.OfRuns cx 20 [("", p)] := .inl trivial
  have hw : w.OfRuns cx 20 [("", p)] := .inl trivial
  have hne : v ≠ w := by simp [v, w]
  have hfunction : Value.closure f ≠ .number (.double .nan) := by simp
  have hequal : v.equal w = true := by decide +kernel
  obtain ⟨hsymm, -, hself, hsame, hshown⟩ := equal_congruence
  obtain ⟨htype, htruthy⟩ := hsame _ _ hequal
  exact ⟨p, v, w, .closure f, ⟨hv, hw, hne, hequal⟩, hsymm v w ▸ hequal, htype, htruthy,
    hshown cx 20 _ v w hv hw hequal, ⟨hf, rfl⟩, (hself _).mpr hfunction⟩

end Value

end MiniApp
