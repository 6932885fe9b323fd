import Mathlib.Data.List.Nodup
import MiniApp.Proofs.Eval.Growth

/-!
# Declarations

The record of an application has six fields, and a declaration writes one of them. A field is written
by the first declaration that it has, and every later one is refused with the place of the first: so
what a list of declarations makes of a record can be read off the list, field by field. Content is
apart from this. It is appended to the body section and declares nothing.

## Main definitions

* `App.Field`, `App.value`: the fields of a record, and what stands in them
* `App.Declaration`, `App.declare`, `App.after`: declarations, one by one and in a row
* `App.Records`: records that declarations of distinct fields have made
* `App.Declares`: records to which further declarations have been added

## Main results

* `App.declare_after`: the first declaration of a field is carried out, later ones are refused
* `App.value_after`: a field has the value of its first declaration
* `App.Records.kept`: what has been declared stays
-/

namespace MiniApp

namespace App

/-- The fields of a record. -/
inductive Field where
  | property (p : Property)
  | body
  deriving DecidableEq, Repr

namespace Field

/-- The name under which it is remembered where the field was declared. -/
def name : Field → String
  | .property p => p.field
  | .body => "body"

/-- The keyword that declares the field. -/
def keyword : Field → String
  | .property p => p.keyword
  | .body => "body"

theorem name_injective : Function.Injective name := by
  rintro (p | _) (q | _) h
  · cases p <;> cases q <;> first | rfl | exact absurd h (by decide)
  · cases p <;> exact absurd h (by decide)
  · cases q <;> exact absurd h (by decide)
  · rfl

end Field

/-- What stands in a field: the value of a property, or the style of the body section. -/
def value (a : App) : Field → Option Data
  | .property p => some (a.get p)
  | .body => a.body.map (.str ·.style)

/-- The declaration of a property or of the body section, at a place. -/
inductive Declaration where
  | property (p : Property) (value : Data) (pos : Position)
  | body (style : String) (pos : Position)

namespace Declaration

/-- The field that is declared. -/
def field : Declaration → Field
  | property p _ _ => .property p
  | body _ _ => .body

/-- What is to stand in the field. -/
def value : Declaration → Data
  | property _ v _ => v
  | body style _ => .str style

/-- Where the declaration stands. -/
def pos : Declaration → Position
  | property _ _ pos | body _ pos => pos

/-- The diagnostic of a declaration whose field has been declared before. -/
def duplicate (d : Declaration) (first : Position) : Diagnostic :=
  .located d.pos (.duplicateProperty (some d.field.keyword))
    ("'" ++ d.field.keyword ++ "' is already declared at " ++ toString first.line ++ ":" ++
      toString first.column)

end Declaration

/-- Carry out a declaration. -/
def declare (a : App) : Declaration → Except Diagnostic App
  | .property p v pos => a.setProperty p v pos
  | .body style pos => a.openBody style pos

/-- The record after a declaration, which changes nothing if it is refused. -/
def step (a : App) (d : Declaration) : App :=
  match a.declare d with
  | .ok b => b
  | .error _ => a

/-- The record after some declarations. -/
def after (a : App) (ds : List Declaration) : App := ds.foldl step a

/-- The record without the content of its body section. -/
def heading (a : App) : App := { a with body := a.body.map ({ · with content := #[] }) }

/-- The record, content aside, is what some declarations of distinct fields have made of the empty
one. -/
structure Records (a : App) (ds : List Declaration) : Prop where
  heading : a.heading = ({} : App).after ds
  nodup : (ds.map Declaration.field).Nodup

variable {a b c : App} {d first : Declaration} {ds more : List Declaration} {f : Field}
variable {pos : Position}

/-! ## One declaration -/

theorem value_write (a : App) (v : Data) (p : Property) :
    (a.write v p).value = Function.update a.value (.property p) (some v) := by
  funext f
  cases f with
  | property q =>
    rw [value, get_write]
    by_cases hq : q = p
    · simp [hq]
    · rw [Function.update_of_ne hq, Function.update_of_ne (by simpa using hq)]
      rfl
  | body =>
    rw [value, body_write, Function.update_of_ne (by simp)]
    rfl

theorem value_withBody (a : App) (body : Option Section) : { a with body }.value =
    Function.update a.value .body (body.map (.str ·.style)) := by
  funext f
  cases f with
  | property q =>
    rw [value, get_withBody, Function.update_of_ne (by simp)]
    rfl
  | body => simp [value]

theorem declare_of_declared (h : a.declared.lookup d.field.name = some pos) :
    a.declare d = .error (d.duplicate pos) := by
  cases d with
  | property p v at' =>
    have h : a.declared.lookup p.field = some pos := h
    rw [declare, setProperty, reserve, h]
    rfl
  | body style at' =>
    have h : a.declared.lookup "body" = some pos := h
    rw [declare, openBody, reserve, h]
    rfl

theorem declare_of_undeclared (h : a.declared.lookup d.field.name = none) :
    ∃ b, a.declare d = .ok b ∧ b.declared = a.declared ++ [(d.field.name, d.pos)] ∧
      b.value = Function.update a.value d.field (some d.value) := by
  cases d with
  | property p v pos =>
    have h : a.declared.lookup p.field = none := h
    rw [declare, setProperty, reserve, h]
    refine ⟨_, rfl, declared_write .., ?_⟩
    rw [value_write]
    rfl
  | body style pos =>
    have h : a.declared.lookup "body" = none := h
    rw [declare, openBody, reserve, h]
    refine ⟨_, rfl, rfl, ?_⟩
    rw [value_withBody]
    rfl

theorem undeclared_of_declare (h : a.declare d = .ok b) :
    a.declared.lookup d.field.name = none := by
  cases hd : a.declared.lookup d.field.name with
  | none => rfl
  | some pos =>
    rw [declare_of_declared hd] at h
    cases h

/-- A declaration declares its field, unless that has been declared before, and no other one. -/
theorem lookup_step : (a.step d).declared.lookup f.name =
    (a.declared.lookup f.name).or (if d.field = f then some d.pos else none) := by
  cases hd : a.declared.lookup d.field.name with
  | some pos =>
    rw [step, declare_of_declared hd]
    dsimp only
    split
    · next heq =>
      rw [← heq, hd]
      rfl
    · rw [Option.or_none]
  | none =>
    obtain ⟨b, hb, hdeclared, -⟩ := declare_of_undeclared hd
    rw [step, hb]
    dsimp only
    rw [hdeclared, List.lookup_append]
    congr 1
    by_cases heq : d.field = f
    · simp [heq]
    -- fields are registered by their names, so two fields must not share one
    · have hname : f.name ≠ d.field.name := fun h => heq (Field.name_injective h).symm
      simp [heq, List.lookup_cons, beq_eq_false_iff_ne.mpr hname]

/-- A declaration writes its field, unless that has been declared before, and no other one. -/
theorem value_step : (a.step d).value f =
    if a.declared.lookup f.name = none ∧ d.field = f then some d.value else a.value f := by
  cases hd : a.declared.lookup d.field.name with
  | some pos =>
    rw [step, declare_of_declared hd, if_neg]
    rintro ⟨hnone, rfl⟩
    simp [hd] at hnone
  | none =>
    obtain ⟨b, hb, -, hvalue⟩ := declare_of_undeclared hd
    rw [step, hb]
    dsimp only
    rw [hvalue, Function.update_apply]
    by_cases heq : d.field = f
    · subst heq
      simp [hd]
    · rw [if_neg fun h => heq h.symm, if_neg fun h => heq h.2]

/-! ## Declarations in a row -/

theorem after_append : a.after (ds ++ more) = (a.after ds).after more := List.foldl_append ..

/-- A field has been declared where it was declared first. -/
theorem lookup_after : (a.after ds).declared.lookup f.name =
    (a.declared.lookup f.name).or ((ds.find? (·.field = f)).map (·.pos)) := by
  induction ds generalizing a with
  | nil => simp [after]
  | cons d ds ih =>
    change ((a.step d).after ds).declared.lookup f.name = _
    rw [ih, lookup_step, Option.or_assoc, List.find?_cons]
    by_cases heq : d.field = f <;> simp [heq]

/-- A field has the value of its first declaration. -/
theorem value_after : (a.after ds).value f =
    match a.declared.lookup f.name, ds.find? (·.field = f) with
    | none, some first => some first.value
    | _, _ => a.value f := by
  induction ds generalizing a with
  | nil => cases h : a.declared.lookup f.name <;> simp [after]
  | cons d ds ih =>
    change ((a.step d).after ds).value f = _
    rw [ih, lookup_step, value_step, List.find?_cons]
    by_cases heq : d.field = f <;> cases a.declared.lookup f.name <;> simp [heq]

/-- In the empty record nothing has been declared. -/
theorem value_after_empty : (({} : App).after ds).value f =
    match ds.find? (·.field = f) with
    | some first => some first.value
    | none => ({} : App).value f := by
  rw [value_after]
  cases ds.find? (·.field = f) <;> rfl

/-- The first declaration of a field is carried out, every later one is refused. -/
theorem declare_after : match ds.find? (·.field = d.field) with
    | some first => (({} : App).after ds).declare d = .error (d.duplicate first.pos)
    | none => ∃ b, (({} : App).after ds).declare d = .ok b ∧
        b.value = Function.update (({} : App).after ds).value d.field (some d.value) := by
  have hlookup : (({} : App).after ds).declared.lookup d.field.name =
      (ds.find? (·.field = d.field)).map (·.pos) := lookup_after
  cases hfirst : ds.find? (·.field = d.field) with
  | some first =>
    rw [hfirst] at hlookup
    exact declare_of_declared hlookup
  | none =>
    rw [hfirst] at hlookup
    obtain ⟨b, hb, -, hvalue⟩ := declare_of_undeclared hlookup
    exact ⟨b, hb, hvalue⟩

/-! ## Records of declarations -/

theorem value_heading (a : App) : a.heading.value = a.value := by
  rw [heading, value_withBody, Option.map_map]
  exact Function.update_eq_self (Field.body) a.value

/-- Content has no part in declarations. -/
theorem heading_declare (h : a.declare d = .ok b) : a.heading.declare d = .ok b.heading := by
  cases d with
  | property p v pos =>
    rw [declare, setProperty, reserve] at h ⊢
    rw [show a.heading.declared = a.declared from rfl]
    split at h
    · cases h
    · obtain rfl := Except.ok.inj h
      cases p <;> rfl
  | body style pos =>
    rw [declare, openBody, reserve] at h ⊢
    rw [show a.heading.declared = a.declared from rfl]
    split at h
    · cases h
    · obtain rfl := Except.ok.inj h
      rfl

theorem heading_emit (id : Nat) (u : Value) : (a.emit id u).heading = a.heading := by
  rw [heading, heading, emit]
  cases a.body with
  | none => rfl
  | some x =>
    dsimp only [Option.map_some]
    split <;> rfl

namespace Records

theorem empty : ({} : App).Records [] := ⟨rfl, List.nodup_nil⟩

theorem lookup (h : a.Records ds) (f : Field) :
    a.declared.lookup f.name = (ds.find? (·.field = f)).map (·.pos) := by
  have hdeclared : a.heading.declared = (({} : App).after ds).declared := by rw [h.heading]
  change a.heading.declared.lookup f.name = _
  rw [hdeclared, lookup_after]
  rfl

theorem value (h : a.Records ds) : a.value = (({} : App).after ds).value := by
  rw [← h.heading, value_heading]

theorem find? (h : a.Records ds) (hd : d ∈ ds) : ds.find? (·.field = d.field) = some d := by
  cases hfind : ds.find? (·.field = d.field) with
  | none => simpa using List.find?_eq_none.mp hfind d hd
  | some first =>
    have hfield : first.field = d.field := by simpa using List.find?_some hfind
    rw [List.inj_on_of_nodup_map h.nodup (List.mem_of_find?_eq_some hfind) hd hfield]

/-- What has been declared stands in the record, -/
theorem value_eq (h : a.Records ds) (hd : d ∈ ds) : a.value d.field = some d.value := by
  rw [h.value, value_after, h.find? hd]
  rfl

/-- and it is remembered where. -/
theorem lookup_eq (h : a.Records ds) (hd : d ∈ ds) :
    a.declared.lookup d.field.name = some d.pos := by
  rw [h.lookup, h.find? hd]
  rfl

theorem declare (h : a.Records ds) (hb : a.declare d = .ok b) : b.Records (ds ++ [d]) := by
  constructor
  · rw [after_append, ← h.heading]
    change _ = a.heading.step d
    rw [step, heading_declare hb]
  · have hnone := undeclared_of_declare hb
    rw [h.lookup, Option.map_eq_none_iff, List.find?_eq_none] at hnone
    rw [List.map_append, List.nodup_append]
    refine ⟨h.nodup, by simp, fun f hf g hg => ?_⟩
    obtain ⟨first, hfirst, rfl⟩ := List.mem_map.mp hf
    obtain rfl := List.mem_singleton.mp hg
    simpa using hnone first hfirst

theorem emit (h : a.Records ds) (id : Nat) (u : Value) : (a.emit id u).Records ds :=
  ⟨(heading_emit id u).trans h.heading, h.nodup⟩

end Records

/-! ## Further declarations -/

/-- Further declarations, each of which is as `P` says, have been added to those of a record. -/
def Declares (P : Declaration → Prop) (a b : App) : Prop :=
  ∀ ds, a.Records ds → ∃ more, b.Records (ds ++ more) ∧ ∀ d ∈ more, P d

namespace Declares

variable {P Q : Declaration → Prop}

theorem refl (a : App) : Declares P a a := fun ds h => ⟨[], by simpa using h, by simp⟩

theorem trans (h : Declares P a b) (h' : Declares P b c) : Declares P a c := by
  intro ds hds
  obtain ⟨more, hmore, hP⟩ := h ds hds
  obtain ⟨rest, hrest, hP'⟩ := h' _ hmore
  refine ⟨more ++ rest, by rwa [← List.append_assoc], fun d hd => ?_⟩
  exact (List.mem_append.mp hd).elim (hP d) (hP' d)

theorem mono (h : Declares P a b) (hPQ : ∀ d, P d → Q d) : Declares Q a b := by
  intro ds hds
  obtain ⟨more, hmore, hP⟩ := h ds hds
  exact ⟨more, hmore, fun d hd => hPQ d (hP d hd)⟩

theorem declare (hP : P d) (h : a.declare d = .ok b) : Declares P a b :=
  fun _ hds => ⟨[d], hds.declare h, List.forall_mem_singleton.mpr hP⟩

theorem emit (a : App) (id : Nat) (u : Value) : Declares P a (a.emit id u) :=
  fun _ hds => ⟨[], by simpa using hds.emit id u, by simp⟩

end Declares

end App

end MiniApp
