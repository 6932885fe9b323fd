import Mathlib.Data.List.Infix
import Mathlib.Logic.Function.Basic
import MiniApp.Proofs.Eval.Calm

/-!
# What runs leave behind only grows

A run adds to its trace and to the application record, and takes nothing back: properties and the
body section are declared at most once, and content is appended. One session *extends* another one
if it can have come about from it in this way.

## Main definitions

* `App.Sound`: records in which a body section has been declared if there is one
* `App.Extends`, `Session.Extends`: records and sessions that have grown

## Main results

* `App.Extends.trans`, `Session.Extends.trans`
* `App.extends_setProperty`, `App.extends_openBody`, `App.extends_emit`: changes let records grow
* `Session.Extends.output`: what was printed stays printed
-/

namespace MiniApp

namespace App

variable {a b c : App} {p : Property} {v : Data} {pos : Position}

/-- The fields that have been declared. -/
def fields (a : App) : List String := a.declared.map (·.1)

/-- A body section has been declared if there is one. -/
def Sound (a : App) : Prop := a.body.isSome = true → "body" ∈ a.fields

/-- A record that has grown: further fields may have been declared and content may have been
appended, but what was declared before is as it was. -/
structure Extends (a b : App) : Prop where
  fields : a.fields <+: b.fields
  get : ∀ p : Property, p.field ∈ a.fields → b.get p = a.get p
  body : ∀ x ∈ a.body, ∃ y ∈ b.body, y.style = x.style ∧ x.content.toList <+: y.content.toList
  id : ∀ x ∈ a.body, ∀ y ∈ b.body, y.id = x.id

theorem Extends.refl (a : App) : a.Extends a where
  fields := List.prefix_rfl
  get _ _ := rfl
  body x hx := ⟨x, hx, rfl, List.prefix_rfl⟩
  id x hx y hy := by rw [Option.some.inj (hx.symm.trans hy)]

theorem Extends.trans (h : a.Extends b) (h' : b.Extends c) : a.Extends c where
  fields := h.fields.trans h'.fields
  get p hp := (h'.get p (h.fields.subset hp)).trans (h.get p hp)
  body x hx := by
    obtain ⟨y, hy, hstyle, hcontent⟩ := h.body x hx
    obtain ⟨z, hz, hstyle', hcontent'⟩ := h'.body y hy
    exact ⟨z, hz, hstyle'.trans hstyle, hcontent.trans hcontent'⟩
  id x hx z hz := by
    obtain ⟨y, hy, -⟩ := h.body x hx
    exact (h'.id y hy z hz).trans (h.id x hx y hy)

theorem get_write (a : App) (v : Data) (p : Property) :
    (a.write v p).get = Function.update a.get p v := by
  funext p'
  cases p <;> cases p' <;> rfl

theorem get_withBody (a : App) (body : Option Section) : { a with body }.get = a.get := by
  funext p
  cases p <;> rfl

theorem body_write (a : App) (v : Data) (p : Property) : (a.write v p).body = a.body := by
  cases p <;> rfl

theorem declared_write (a : App) (v : Data) (p : Property) :
    (a.write v p).declared = a.declared := by
  cases p <;> rfl

/-- A field is reserved only if it has not been declared before. -/
theorem reserve_eq_ok {field keyword : String} (h : a.reserve field keyword pos = .ok b) :
    field ∉ a.fields ∧ b = { a with declared := a.declared ++ [(field, pos)] } := by
  rw [reserve] at h
  split at h
  · cases h
  · next hnone =>
    refine ⟨fun hmem => ?_, (Except.ok.inj h).symm⟩
    obtain ⟨x, hx, rfl⟩ := List.mem_map.mp hmem
    simpa using List.lookup_eq_none_iff.mp hnone x hx

theorem setProperty_eq_ok (h : a.setProperty p v pos = .ok b) :
    p.field ∉ a.fields ∧ b.fields = a.fields ++ [p.field] ∧ b.body = a.body ∧
      b.get = Function.update a.get p v := by
  rw [setProperty] at h
  cases hr : a.reserve p.field p.keyword pos with
  | error d =>
    rw [hr] at h
    cases h
  | ok r =>
    rw [hr] at h
    obtain ⟨hnew, rfl⟩ := reserve_eq_ok hr
    obtain rfl := Except.ok.inj h
    refine ⟨hnew, ?_, body_write .., ?_⟩
    · rw [fields, declared_write]
      simp [fields]
    · rw [get_write]
      rfl

theorem openBody_eq_ok {style : String} (h : a.openBody style pos = .ok b) :
    "body" ∉ a.fields ∧ b.fields = a.fields ++ ["body"] ∧
      b.body = some { id := a.nextSection, style } ∧ b.get = a.get := by
  rw [openBody] at h
  cases hr : a.reserve "body" "body" pos with
  | error d =>
    rw [hr] at h
    cases h
  | ok r =>
    rw [hr] at h
    obtain ⟨hnew, rfl⟩ := reserve_eq_ok hr
    obtain rfl := Except.ok.inj h
    exact ⟨hnew, by simp [fields], rfl, get_withBody ..⟩

theorem mem_body_emit {id : Nat} {u : Value} {y : Section} (h : y ∈ (a.emit id u).body) :
    ∃ x ∈ a.body, y = if x.id = id then { x with content := x.content.push u } else x := by
  obtain ⟨x, hx, rfl⟩ := Option.map_eq_some_iff.mp h
  exact ⟨x, hx, rfl⟩

theorem get_emit (a : App) (id : Nat) (u : Value) : (a.emit id u).get = a.get :=
  get_withBody ..

theorem fields_emit (a : App) (id : Nat) (u : Value) : (a.emit id u).fields = a.fields := rfl

theorem extends_setProperty (h : a.setProperty p v pos = .ok b) : a.Extends b := by
  obtain ⟨hnew, hfields, hbody, hget⟩ := setProperty_eq_ok h
  refine ⟨hfields ▸ List.prefix_append _ _, fun p' hp' => ?_, fun x hx => ?_, fun x hx y hy => ?_⟩
  -- a property that has been declared is another one
  · rw [hget, Function.update_of_ne]
    rintro rfl
    exact hnew hp'
  · exact ⟨x, hbody ▸ hx, rfl, List.prefix_rfl⟩
  · rw [hbody] at hy
    rw [Option.some.inj (hx.symm.trans hy)]

theorem Sound.setProperty (ha : a.Sound) (h : a.setProperty p v pos = .ok b) : b.Sound := by
  obtain ⟨-, hfields, hbody, -⟩ := setProperty_eq_ok h
  intro hsome
  rw [hbody] at hsome
  rw [hfields]
  exact List.mem_append_left _ (ha hsome)

theorem extends_openBody {style : String} (ha : a.Sound) (h : a.openBody style pos = .ok b) :
    a.Extends b := by
  obtain ⟨hnew, hfields, -, hget⟩ := openBody_eq_ok h
  -- there is no body section yet that could be lost
  have hnone : ∀ x, x ∉ a.body := fun x hx => hnew (ha (Option.isSome_iff_exists.mpr ⟨x, hx⟩))
  exact ⟨hfields ▸ List.prefix_append _ _, fun p _ => by rw [hget],
    fun x hx => absurd hx (hnone x), fun x hx => absurd hx (hnone x)⟩

theorem sound_openBody {style : String} (h : a.openBody style pos = .ok b) : b.Sound := by
  obtain ⟨-, hfields, -, -⟩ := openBody_eq_ok h
  intro _
  rw [hfields]
  exact List.mem_append_right _ (List.mem_singleton_self _)

theorem extends_emit (a : App) (id : Nat) (u : Value) : a.Extends (a.emit id u) := by
  refine ⟨List.prefix_rfl, fun p _ => by rw [get_emit], fun x hx => ?_, fun x hx y hy => ?_⟩
  · refine ⟨_, Option.map_eq_some_iff.mpr ⟨x, hx, rfl⟩, ?_⟩
    split <;> simp
  · obtain ⟨x', hx', rfl⟩ := mem_body_emit hy
    obtain rfl := Option.some.inj (hx.symm.trans hx')
    split <;> rfl

theorem Sound.emit (ha : a.Sound) (id : Nat) (u : Value) : (a.emit id u).Sound := by
  intro hsome
  obtain ⟨y, hy⟩ := Option.isSome_iff_exists.mp hsome
  obtain ⟨x, hx, -⟩ := mem_body_emit hy
  exact ha (Option.isSome_iff_exists.mpr ⟨x, hx⟩)

end App

namespace Session

variable {s t u : Session}

/-- A session that has grown: more has been printed, emitted and declared. -/
structure Extends (s t : Session) : Prop where
  app : s.app.Extends t.app
  trace : s.trace.toList <+: t.trace.toList

theorem Extends.refl (s : Session) : s.Extends s := ⟨.refl _, List.prefix_rfl⟩

theorem Extends.trans (h : s.Extends t) (h' : t.Extends u) : s.Extends u :=
  ⟨h.app.trans h'.app, h.trace.trans h'.trace⟩

theorem Keeps.extends (h : s.Keeps t) : s.Extends t :=
  ⟨h.app ▸ .refl _, h.trace ▸ List.prefix_rfl⟩

/-- What was printed stays printed. -/
theorem Extends.output (h : s.Extends t) : ∃ rest, t.output = s.output ++ rest := by
  obtain ⟨events, hevents⟩ := h.trace
  refine ⟨String.join (events.map Event.text), ?_⟩
  rw [Session.output, Session.output, ← hevents, List.map_append]
  apply String.toList_injective
  simp

end Session

end MiniApp
