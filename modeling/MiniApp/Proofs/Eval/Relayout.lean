import MiniApp.Proofs.Eval.Growth
import MiniApp.Proofs.Eval.Lockstep
import MiniApp.Proofs.Eval.Outline
import MiniApp.Proofs.Format.RoundTrip

/-!
# Layout does not affect behaviour

Places flow from a program into bindings, functions, the table of declared properties and every
diagnostic. Two programs that differ in places, and in the spelling of numbers, nevertheless run
alike: the pairing of their runs keeps everything in common but the places. The canonical text of a
program is read back as such a program, so it runs like the text that was formatted.

## Main definitions

* `Leeway.any`: any place may stand for any other, and any spelling
* `RunsAlike`: runs that differ in places only
* `Relaid.pairing`: the runs of two programs that differ in layout

## Main results

* `Relaid.lawful_pairing`: elementary actions never look at places
* `Program.alike_of_unplaced`: programs that agree without places are alike
* `Session.run_relayout`: layout does not affect behaviour
-/

namespace MiniApp

/-- Any place may stand for any other, and any spelling of a number for any other. -/
def Leeway.any : Leeway := ⟨fun _ _ => True, fun _ _ => True⟩

/-- Failures that differ in places only. -/
inductive RunFailure.Alike : RunFailure → RunFailure → Prop
  | rejected {d e : Diagnostic} : d.Alike e → Alike (.rejected d) (.rejected e)
  | same (f : RunFailure) : Alike f f

/-- Runs that differ in places only: they fail alike or succeed both, print the same, describe the
same application and leave the same counters, the same calls in progress and an arena of the same
outline. -/
structure RunsAlike (r r' : Option RunFailure × Session) : Prop where
  outcome : Option.Rel RunFailure.Alike r.1 r'.1
  output : r.2.output = r'.2.output
  app : r.2.app.toData = r'.2.app.toData
  meter : r.2.meter = r'.2.meter
  arena : r.2.arena.outline = r'.2.arena.outline

theorem RunFailure.Alike.inFile {e f : RunFailure} (h : e.Alike f) (path : String) :
    (e.inFile path).Alike (f.inFile path) := by
  cases h with
  | rejected h => exact .rejected (h.inFileIfUnnamed path)
  | same f => exact .same _

theorem ScopeFailure.Alike.toRun {e f : ScopeFailure} (h : e.Alike f) :
    e.toRun.Alike f.toRun := by
  cases h with
  | dangling => exact .same _
  | rejected h => exact .rejected h

/-! ## Application records -/

namespace App

/-- Body sections that differ, as far as `V` allows, in their content. -/
structure SectionsAlike (V : Value → Value → Prop) (s t : Section) : Prop where
  id : s.id = t.id
  style : s.style = t.style
  content : List.Forall₂ V s.content.toList t.content.toList

/-- Application records that differ in the places of declarations and, as far as `V` allows, in the
content of the body section. -/
structure Alike (V : Value → Value → Prop) (a b : App) : Prop where
  get : a.get = b.get
  body : Option.Rel (SectionsAlike V) a.body b.body
  declared : List.Forall₂ (Named fun _ _ => True) a.declared b.declared

/-- Results of changes to application records that belong together. -/
inductive Results (V : Value → Value → Prop) : Except Diagnostic App → Except Diagnostic App → Prop
  | ok {a b : App} : a.Alike V b → Results V (.ok a) (.ok b)
  | error {d e : Diagnostic} : d.Alike e → Results V (.error d) (.error e)

namespace Alike

variable {V : Value → Value → Prop} {a b : App} (h : a.Alike V b)
include h

theorem toData_eq (hV : ∀ v u, V v u → v.toData = u.toData) : a.toData = b.toData := by
  have hbody : a.body.map sectionData = b.body.map sectionData := by
    have hrel := h.body
    generalize a.body = x, b.body = y at hrel
    cases hrel with
    | none => rfl
    | @some s t hst =>
      have hcontent : s.content.toList.map Value.toData = t.content.toList.map Value.toData := by
        have hvalues := hst.content
        generalize s.content.toList = vs, t.content.toList = us at hvalues
        induction hvalues with
        | nil => rfl
        | cons hvu _ ih => rw [List.map_cons, List.map_cons, hV _ _ hvu, ih]
      rw [Option.map_some, Option.map_some, sectionData, sectionData, hst.style, hcontent]
  have hget : ∀ p, a.get p = b.get p := congrFun h.get
  have hname : a.name = b.name := hget .appName
  have hpackage : a.isWebPackage = b.isWebPackage := hget .webPackage
  have hweb : a.webVersion = b.webVersion := hget .webVersion
  have hmini : a.miniVersion = b.miniVersion := hget .miniVersion
  have hicon : a.iconPath = b.iconPath := hget .appIcon
  rw [toData, toData, hname, hpackage, hweb, hmini, hicon, hbody]

/-- A field is declared in both records or in neither; where it is, the messages name the places of
the first declarations. -/
theorem reserve (field keyword : String) (p q : Position) :
    Results V (a.reserve field keyword p) (b.reserve field keyword q) := by
  rw [App.reserve, App.reserve]
  have hlookup := Named.lookup h.declared field
  generalize a.declared.lookup field = x, b.declared.lookup field = y at hlookup
  cases hlookup with
  | none => exact .ok { h with declared := List.rel_append h.declared (.cons ⟨rfl, trivial⟩ .nil) }
  | @some first first' _ =>
    refine .error ⟨rfl, .inr ⟨some keyword, _, first, first', rfl, rfl, rfl⟩, rfl, rfl, rfl, rfl⟩

theorem setProperty (kind : Property) (v : Data) (p q : Position) :
    Results V (a.setProperty kind v p) (b.setProperty kind v q) := by
  rw [App.setProperty, App.setProperty]
  have hreserve := h.reserve kind.field kind.keyword p q
  generalize a.reserve kind.field kind.keyword p = x, b.reserve kind.field kind.keyword q = y
    at hreserve
  cases hreserve with
  | error hd => exact .error hd
  | ok h =>
    refine .ok ⟨?_, ?_, ?_⟩
    · rw [get_write, get_write, h.get]
    · cases kind <;> exact h.body
    · cases kind <;> exact h.declared

theorem nextSection_eq : a.nextSection = b.nextSection := h.declared.length_eq

theorem openBody (style : String) (p q : Position) :
    Results V (a.openBody style p) (b.openBody style q) := by
  rw [App.openBody, App.openBody, h.nextSection_eq]
  have hreserve := h.reserve "body" "body" p q
  generalize a.reserve "body" "body" p = x, b.reserve "body" "body" q = y at hreserve
  cases hreserve with
  | error hd => exact .error hd
  | ok h =>
    refine .ok ⟨?_, .some ⟨rfl, rfl, .nil⟩, h.declared⟩
    exact (get_withBody _ _).trans (h.get.trans (get_withBody _ _).symm)

theorem emit (id : Nat) {v u : Value} (hvu : V v u) : (a.emit id v).Alike V (b.emit id u) := by
  refine ⟨?_, ?_, h.declared⟩
  · exact (get_withBody _ _).trans (h.get.trans (get_withBody _ _).symm)
  rw [App.emit, App.emit]
  have hbody := h.body
  generalize a.body = x, b.body = y at hbody
  cases hbody with
  | none => exact .none
  | @some s t hst =>
    rw [Option.map_some, Option.map_some, hst.id]
    split
    · refine .some ⟨rfl, hst.style, ?_⟩
      rw [Array.toList_push, Array.toList_push]
      exact List.rel_append hst.content (.cons hvu .nil)
    · exact .some hst

end Alike

end App

/-! ## The pairing -/

namespace Relaid

/-- Values belong together if they differ in places and spellings only. -/
def likeness (known : List Layer → Node → Prop) : Likeness where
  World := Unit
  leeway := .any
  ident := (· = ·)
  known := known
  captured _ _ i j := i = j

/-- Sessions that differ in places and spellings only. What they have recorded does not matter. -/
structure Sessions (known : List Layer → Node → Prop) (s t : Session) : Prop where
  arena : s.arena.Alike ((likeness known).Values ()) t.arena
  app : s.app.Alike ((likeness known).Values ()) t.app
  meter : s.meter = t.meter
  active : s.active = t.active
  nextId : s.nextId = t.nextId
  trace : s.trace.map Event.text = t.trace.map Event.text

/-- The runs of two programs that differ in layout. -/
def pairing (known : List Layer → Node → Prop) (cx : Context) : Pairing where
  toLikeness := likeness known
  order := inferInstanceAs (Preorder Unit)
  left := cx
  right := cx
  scope _ _ i j := i = j
  sections := (· = ·)
  state _ := Sessions known
  failure := RunFailure.Alike

variable {known : List Layer → Node → Prop} {cx : Context} {w : Unit} {i : Nat} {p q : Position}
variable {v u : Value} {α β : Type} {Q : Unit → α → β → Prop}

theorem toData_eq (h : (likeness known).Values w v u) : v.toData = u.toData := by
  cases h with
  | closure h => rw [Value.toData, Value.toData, h.name]
  | _ => rfl

/-! ### Elementary actions -/

/-- Counting and checking against a limit agree. -/
theorem agree_meter (count : Meter → Meter) {check check' : Meter → Except Diagnostic Unit}
    (h : ∀ m, (check m = .ok () ∧ check' m = .ok ()) ∨
      ∃ d e, check m = .error d ∧ check' m = .error e ∧ d.Alike e) :
    (pairing known cx).Agree w (pairing known cx).Done
      (do
        modify fun s => { s with meter := count s.meter }
        Run.ofDiagnostic (check (← get).meter))
      (do
        modify fun s => { s with meter := count s.meter }
        Run.ofDiagnostic (check' (← get).meter)) := by
  intro s t hs
  have hcounted : Sessions known { s with meter := count s.meter }
      { t with meter := count t.meter } := { hs with meter := congrArg count hs.meter }
  change (pairing known cx).Ends w _ (Run.ofDiagnostic (check (count s.meter)) _)
    (Run.ofDiagnostic (check' (count t.meter)) _)
  rw [hs.meter]
  rcases h (count t.meter) with ⟨hok, hok'⟩ | ⟨d, e, hd, he, hde⟩
  · rw [hok, hok']
    exact .ok le_rfl hcounted trivial
  · rw [hd, he]
    exact .error le_rfl hcounted (.rejected hde)

theorem agree_visit {n m : Node} : (pairing known cx).Agree w (pairing known cx).Done
    (Run.visit cx i n) (Run.visit cx i m) := by
  intro s t hs
  refine .ok le_rfl ?_ trivial
  change Sessions known (if cx.recording then _ else _) (if cx.recording then _ else _)
  split
  · exact { hs with }
  · exact hs

theorem agree_define (name : String) (kind : BindingKind)
    (hv : (likeness known).Values () v u) :
    (pairing known cx).Agree w (pairing known cx).Done
      (Run.define i name v kind p) (Run.define i name u kind q) := by
  intro s t hs
  rw [Run.define, Run.define]
  have hdefine := hs.arena.define i name (x := ⟨v, kind, p⟩) (y := ⟨u, kind, q⟩) ⟨rfl, hv⟩
  generalize s.arena.define i name _ = r, t.arena.define i name _ = r' at hdefine
  cases hdefine with
  | ok h => exact .ok le_rfl { hs with arena := h } trivial
  | error h => exact .error le_rfl hs h.toRun

theorem agree_lookup (name : String) : (pairing known cx).Agree w (pairing known cx).Values
    (Run.lookup i name p) (Run.lookup i name q) := by
  intro s t hs
  rw [Run.lookup, Run.lookup]
  have hlookup := hs.arena.lookup i name p q
  generalize s.arena.lookup i name p = r, t.arena.lookup i name q = r' at hlookup
  cases hlookup with
  | ok h => exact .ok le_rfl hs h
  | error h => exact .error le_rfl hs h.toRun

theorem agree_assign (name : String) (hv : (likeness known).Values () v u) :
    (pairing known cx).Agree w (pairing known cx).Done
      (Run.assign i name v p) (Run.assign i name u q) := by
  intro s t hs
  rw [Run.assign, Run.assign]
  have hassign := hs.arena.assign i name p q hv
  generalize s.arena.assign i name v p = r, t.arena.assign i name u q = r' at hassign
  cases hassign with
  | ok h => exact .ok le_rfl { hs with arena := h } trivial
  | error h => exact .error le_rfl hs h.toRun

theorem agree_isBound (name : String) : (pairing known cx).Agree w (fun _ => (· = ·))
    (Run.isBound i name) (Run.isBound i name) := by
  intro s t hs
  rw [Run.isBound, Run.isBound]
  have hfound := hs.arena.locate i name
  generalize s.arena.locate i name = r, t.arena.locate i name = r' at hfound
  cases hfound with
  | bound _ _ => exact .ok le_rfl hs rfl
  | unbound => exact .ok le_rfl hs rfl
  | dangling => exact .error le_rfl hs (.same _)

theorem agree_capture : (pairing known cx).Agree w (pairing known cx).Done
    (Run.capture i) (Run.capture i) := by
  intro s t hs
  rw [Run.capture, Run.capture, hs.arena.size_eq]
  split
  · exact .ok le_rfl { hs with arena := hs.arena.capture i } trivial
  · exact .error le_rfl hs (.same _)

theorem agree_freshId : (pairing known cx).Agree w (fun _ => (· = ·)) Run.freshId Run.freshId :=
  fun _ _ hs => .ok le_rfl { hs with nextId := congrArg (· + 1) hs.nextId } hs.nextId

theorem agree_openScope (parent : Option Nat) :
    (pairing known cx).Agree w (fun _ => (· = ·)) (Run.openScope parent) (Run.openScope parent) :=
  fun _ _ hs => .ok le_rfl { hs with arena := hs.arena.allocate parent } hs.arena.size_eq

theorem agree_closeScope : (pairing known cx).Agree w (pairing known cx).Done
    (Run.closeScope cx i) (Run.closeScope cx i) := by
  intro s t hs
  rw [Run.closeScope, Run.closeScope, hs.arena.size_eq]
  split
  · exact .ok le_rfl { hs with arena := hs.arena.release cx.reclamation i } trivial
  · exact .error le_rfl hs (.same _)

theorem agree_inScope {x : Nat → Run α} {y : Nat → Run β}
    (h : ∀ i, (pairing known cx).Agree w Q (x i) (y i)) :
    (pairing known cx).Agree w Q (Run.inScope cx i x) (Run.inScope cx i y) := by
  refine (agree_openScope (some i)).bind ?_
  rintro _ k _ _ rfl
  exact (h k).closing (fun _ hq => hq) fun _ _ => agree_closeScope

theorem push_text {s t : Session} {e e' : Event} (hs : Sessions known s t) (he : e.text = e'.text) :
    (s.trace.push e).map Event.text = (t.trace.push e').map Event.text := by
  rw [Array.map_push, Array.map_push, hs.trace, he]

theorem agree_emit (hv : (likeness known).Values () v u) :
    (pairing known cx).Agree w (pairing known cx).Done (Run.emit v) (Run.emit u) := by
  intro s t hs
  rw [Run.emit, Run.emit, hs.active]
  cases t.active with
  | none => exact .error le_rfl hs (.same _)
  | some id =>
    exact .ok le_rfl
      { hs with app := hs.app.emit id hv, active := rfl, trace := push_text hs rfl } trivial

theorem agree_setProperty (kind : Property) (value : Data) :
    (pairing known cx).Agree w (pairing known cx).Done
      (Run.setProperty kind value p) (Run.setProperty kind value q) := by
  intro s t hs
  rw [Run.setProperty, Run.setProperty]
  have hset := hs.app.setProperty kind value p q
  generalize s.app.setProperty kind value p = r, t.app.setProperty kind value q = r' at hset
  cases hset with
  | ok h => exact .ok le_rfl { hs with app := h, trace := push_text hs rfl } trivial
  | error h => exact .error le_rfl hs (.rejected h)

theorem agree_openBody (style : String) : (pairing known cx).Agree w (fun _ => (· = ·))
    (Run.openBody style p) (Run.openBody style q) := by
  intro s t hs
  rw [Run.openBody, Run.openBody]
  have hopen := hs.app.openBody style p q
  generalize s.app.openBody style p = r, t.app.openBody style q = r' at hopen
  cases hopen with
  | ok h => exact .ok le_rfl { hs with app := h } hs.app.nextSection_eq
  | error h => exact .error le_rfl hs (.rejected h)

theorem checkSteps_cases (l : Limits) (p q : Position) (m : Meter) :
    (m.checkSteps l p = .ok () ∧ m.checkSteps l q = .ok ()) ∨
      ∃ d e, m.checkSteps l p = .error d ∧ m.checkSteps l q = .error e ∧ d.Alike e := by
  rw [Meter.checkSteps, Meter.checkSteps]
  split
  · split
    · exact .inr ⟨_, _, rfl, rfl, Diagnostic.alike_located rfl _⟩
    · exact .inl ⟨rfl, rfl⟩
  · exact .inl ⟨rfl, rfl⟩

theorem checkDepth_cases (l : Limits) (p q : Position) (m : Meter) :
    (m.checkDepth l p = .ok () ∧ m.checkDepth l q = .ok ()) ∨
      ∃ d e, m.checkDepth l p = .error d ∧ m.checkDepth l q = .error e ∧ d.Alike e := by
  rw [Meter.checkDepth, Meter.checkDepth]
  split
  · exact .inr ⟨_, _, rfl, rfl, Diagnostic.alike_located rfl _⟩
  · exact .inl ⟨rfl, rfl⟩

/-- Elementary actions never look at places. -/
theorem lawful_pairing (hknown : KnowsParts known) : (pairing known cx).Lawful where
  patience := rfl
  defaultWebVersion := rfl
  ident_iff := by
    rintro a a' b b' rfl rfl
    exact Iff.rfl
  knowsParts := hknown
  captured_mono _ h := h
  scope_mono _ h := h
  scope_of_captured h := h
  rejected trouble message _ _ := .rejected (Diagnostic.alike_located rfl message)
  fault f := .same _
  nestedTooDeeply := .same _
  outOfPatience := .same _
  inBody_eq hs := congrArg Option.isSome hs.active
  activate hn hs := { hs with active := congrArg some hn }
  restore hs hs' := { hs' with active := hs.active }
  exitCall hs := { hs with meter := congrArg Meter.exit hs.meter }
  enterCall {w p q} name _ := agree_meter (·.enter name) (checkDepth_cases _ p q)
  step {w p q} _ := agree_meter Meter.step (checkSteps_cases _ p q)
  visit {w layers i j n m} h _ _ := by
    obtain rfl : i = j := h
    exact agree_visit
  define {w layers i j p q name v u} kind h _ _ hv := by
    obtain rfl : i = j := h
    exact agree_define name kind hv
  lookup {w layers i j p q} name h _ := by
    obtain rfl : i = j := h
    exact agree_lookup name
  assign {w layers i j p q v u} name h _ hv := by
    obtain rfl : i = j := h
    exact agree_assign name hv
  isBound {w layers i j} name h := by
    obtain rfl : i = j := h
    exact agree_isBound name
  -- the identity of a function counts the functions made before, which layout does not change
  declareFunction {w layers i j p q name parameters b b'} h hfunc _ hb := by
    obtain rfl : i = j := h
    apply agree_freshId.bind
    rintro w₁ id _ _ rfl
    refine agree_capture.bind fun w₂ _ _ _ _ => ?_
    refine (agree_define name .func (.closure ?_)).bind fun _ _ _ _ _ => .pure .normal
    exact ⟨rfl, rfl, rfl, hb, trivial, layers, rfl, fun s hs =>
      hknown.stmt hfunc (List.Subset.refl _) hs⟩
  inScope {w layers i j x y} l h hxy := by
    obtain rfl : i = j := h
    exact agree_inScope fun k => hxy w k k le_rfl rfl
  printed text _ := fun s t hs => .ok le_rfl { hs with trace := push_text hs rfl } trivial
  emit hv := agree_emit hv
  setProperty kind value _ := agree_setProperty kind value
  openBody style _ := agree_openBody style

/-! ### Whole runs -/

theorem agree_install (name : String) (action : Action) :
    (pairing known cx).Agree w (pairing known cx).Done (Run.install i name action)
      (Run.install i name action) := by
  apply agree_freshId.bind
  rintro _ id _ _ rfl
  exact agree_define name .builtin (.builtin name action rfl)

theorem agree_start (hknown : KnowsParts known) (allowance : Nat) {a b : Program}
    (ha : known a.layers (.program a)) (h : a.Alike .any b) :
    (pairing known cx).Agree w (pairing known cx).Done (Run.start cx allowance a)
      (Run.start cx allowance b) := by
  apply (agree_openScope none).bind
  rintro _ root _ _ rfl
  apply (agree_install "print" .print).bind
  intro _ _ _ _ _
  apply (agree_install "len" .len).bind
  intro _ _ _ _ _
  apply (agree_openScope (some root)).bind
  rintro _ scope _ _ rfl
  exact (lawful_pairing hknown).agree_program allowance rfl ha h

theorem sessions_fresh : Sessions known {} {} where
  arena := .empty
  app := ⟨rfl, .none, .nil⟩
  meter := rfl
  active := rfl
  nextId := rfl
  trace := rfl

theorem output_eq {s t : Session} (hs : Sessions known s t) : s.output = t.output := by
  rw [Session.output, Session.output, ← Array.toList_map, ← Array.toList_map, hs.trace]

/-- The runs of two programs that are alike are alike. -/
theorem run_alike (cx : Context) (allowance : Nat) (path : String) {a b : Program}
    (h : a.Alike .any b) :
    RunsAlike (Session.run cx allowance path a {}) (Session.run cx allowance path b {}) := by
  have hagree : (pairing (Occurs a) cx).Agree () _ _ _ :=
    agree_start (Occurs.knowsParts a) allowance Occurs.root h
  have hends := hagree _ _ sessions_fresh
  rw [Session.run, Session.run]
  generalize Run.start cx allowance a _ = r, Run.start cx allowance b _ = r' at hends
  cases hends with
  | ok _ hs _ =>
    exact ⟨.none, output_eq hs, hs.app.toData_eq fun _ _ => toData_eq, hs.meter,
      hs.arena.outline_eq⟩
  | error _ hs hf =>
    exact ⟨.some (hf.inFile path), output_eq hs, hs.app.toData_eq fun _ _ => toData_eq, hs.meter,
      hs.arena.outline_eq⟩

end Relaid

/-! ## Trees that agree without places -/

mutual

theorem Expr.alike_of_unplaced : ∀ (e e' : Expr), e.unplaced = e'.unplaced → e.Alike .any e'
  | .ident .., e', h => by
    cases e' <;> simp only [Expr.unplaced, Expr.ident.injEq, reduceCtorEq] at h
    obtain ⟨-, rfl⟩ := h
    exact .ident trivial
  | .number .., e', h => by
    cases e' <;> simp only [Expr.unplaced, Expr.number.injEq, reduceCtorEq] at h
    obtain ⟨-, rfl, rfl⟩ := h
    exact .number trivial trivial
  | .string .., e', h => by
    cases e' <;> simp only [Expr.unplaced, Expr.string.injEq, reduceCtorEq] at h
    obtain ⟨-, rfl⟩ := h
    exact .string trivial
  | .bool .., e', h => by
    cases e' <;> simp only [Expr.unplaced, Expr.bool.injEq, reduceCtorEq] at h
    obtain ⟨-, rfl⟩ := h
    exact .bool trivial
  | .null .., e', h => by
    cases e' <;> simp only [Expr.unplaced, reduceCtorEq] at h
    exact .null trivial
  | .binary _ _ l r, e', h => by
    cases e' <;> simp only [Expr.unplaced, Expr.binary.injEq, reduceCtorEq] at h
    obtain ⟨-, rfl, hl, hr⟩ := h
    exact .binary trivial (Expr.alike_of_unplaced l _ hl) (Expr.alike_of_unplaced r _ hr)
  | .logical _ _ l r, e', h => by
    cases e' <;> simp only [Expr.unplaced, Expr.logical.injEq, reduceCtorEq] at h
    obtain ⟨-, rfl, hl, hr⟩ := h
    exact .logical trivial (Expr.alike_of_unplaced l _ hl) (Expr.alike_of_unplaced r _ hr)
  | .unary _ _ e, e', h => by
    cases e' <;> simp only [Expr.unplaced, Expr.unary.injEq, reduceCtorEq] at h
    obtain ⟨-, rfl, he⟩ := h
    exact .unary trivial (Expr.alike_of_unplaced e _ he)
  | .assign _ _ e, e', h => by
    cases e' <;> simp only [Expr.unplaced, Expr.assign.injEq, reduceCtorEq] at h
    obtain ⟨-, rfl, he⟩ := h
    exact .assign trivial (Expr.alike_of_unplaced e _ he)
  | .call _ f es, e', h => by
    cases e' <;> simp only [Expr.unplaced, Expr.call.injEq, reduceCtorEq] at h
    obtain ⟨-, hf, hes⟩ := h
    exact .call trivial (Expr.alike_of_unplaced f _ hf) (Expr.alike_of_unplacedAll es _ hes)
  | .content _ es, e', h => by
    cases e' <;> simp only [Expr.unplaced, Expr.content.injEq, reduceCtorEq] at h
    exact .content trivial (Expr.alike_of_unplacedAll es _ h.2)

theorem Expr.alike_of_unplacedAll : ∀ (es es' : List Expr),
    Expr.unplacedAll es = Expr.unplacedAll es' → List.Forall₂ (Expr.Alike .any) es es'
  | [], [], _ => .nil
  | e :: es, e' :: es', h => by
    obtain ⟨he, hes⟩ := List.cons.inj h
    exact .cons (Expr.alike_of_unplaced e e' he) (Expr.alike_of_unplacedAll es es' hes)

end

theorem Expr.alike_of_unplacedOption {e e' : Option Expr}
    (h : e.map Expr.unplaced = e'.map Expr.unplaced) : Option.Rel (Expr.Alike .any) e e' := by
  cases e with
  | none =>
    rw [Option.map_eq_none_iff.mp h.symm]
    exact .none
  | some e =>
    obtain ⟨e', rfl, he⟩ := Option.map_eq_some_iff.mp h.symm
    exact .some (e.alike_of_unplaced e' he.symm)

theorem ForInit.alike_of_unplaced {init init' : ForInit} (h : init.unplaced = init'.unplaced) :
    init.Alike .any init' := by
  cases init with
  | none =>
    cases init' <;> simp only [ForInit.unplaced, reduceCtorEq] at h
    exact .none
  | declare _ _ _ e =>
    cases init' <;> simp only [ForInit.unplaced, ForInit.declare.injEq, reduceCtorEq] at h
    obtain ⟨-, rfl, rfl, he⟩ := h
    exact .declare trivial (Expr.alike_of_unplacedOption he)
  | expr _ e =>
    cases init' <;> simp only [ForInit.unplaced, ForInit.expr.injEq, reduceCtorEq] at h
    exact .expr trivial (e.alike_of_unplaced _ h.2)

mutual

theorem Stmt.alike_of_unplaced : ∀ (s s' : Stmt), s.unplaced = s'.unplaced → s.Alike .any s'
  | .block b, s', h => by
    cases s' <;> simp only [Stmt.unplaced, Stmt.block.injEq, reduceCtorEq] at h
    exact .block (Block.alike_of_unplaced b _ h)
  | .declare .., s', h => by
    cases s' <;> simp only [Stmt.unplaced, Stmt.declare.injEq, reduceCtorEq] at h
    obtain ⟨-, rfl, rfl, he⟩ := h
    exact .declare trivial (Expr.alike_of_unplacedOption he)
  | .func _ _ _ b, s', h => by
    cases s' <;> simp only [Stmt.unplaced, Stmt.func.injEq, reduceCtorEq] at h
    obtain ⟨-, rfl, rfl, hb⟩ := h
    exact .func trivial (Block.alike_of_unplaced b _ hb)
  | .property .., s', h => by
    cases s' <;> simp only [Stmt.unplaced, Stmt.property.injEq, reduceCtorEq] at h
    obtain ⟨-, rfl, he⟩ := h
    exact .property trivial (Expr.alike_of_unplacedOption he)
  | .body _ style ss, s', h => by
    cases s' <;> simp only [Stmt.unplaced, Stmt.body.injEq, reduceCtorEq] at h
    obtain ⟨-, hstyle, hss⟩ := h
    exact .body trivial (style.alike_of_unplaced _ hstyle) (Stmt.alike_of_unplacedAll ss _ hss)
  | .ifElse _ e b rest, s', h => by
    cases s' <;> simp only [Stmt.unplaced, Stmt.ifElse.injEq, reduceCtorEq] at h
    obtain ⟨-, he, hb, hrest⟩ := h
    exact .ifElse trivial (e.alike_of_unplaced _ he) (Block.alike_of_unplaced b _ hb)
      (Else.alike_of_unplaced rest _ hrest)
  | .while _ e b, s', h => by
    cases s' <;> simp only [Stmt.unplaced, Stmt.while.injEq, reduceCtorEq] at h
    obtain ⟨-, he, hb⟩ := h
    exact .while trivial (e.alike_of_unplaced _ he) (Block.alike_of_unplaced b _ hb)
  | .for _ _ _ _ b, s', h => by
    cases s' <;> simp only [Stmt.unplaced, Stmt.for.injEq, reduceCtorEq] at h
    obtain ⟨-, hinit, htest, hupdate, hb⟩ := h
    exact .for trivial (ForInit.alike_of_unplaced hinit) (Expr.alike_of_unplacedOption htest)
      (Expr.alike_of_unplacedOption hupdate) (Block.alike_of_unplaced b _ hb)
  | .return .., s', h => by
    cases s' <;> simp only [Stmt.unplaced, Stmt.return.injEq, reduceCtorEq] at h
    exact .return trivial (Expr.alike_of_unplacedOption h.2)
  | .break .., s', h => by
    cases s' <;> simp only [Stmt.unplaced, reduceCtorEq] at h
    exact .break trivial
  | .continue .., s', h => by
    cases s' <;> simp only [Stmt.unplaced, reduceCtorEq] at h
    exact .continue trivial
  | .expr _ e, s', h => by
    cases s' <;> simp only [Stmt.unplaced, Stmt.expr.injEq, reduceCtorEq] at h
    exact .expr trivial (e.alike_of_unplaced _ h.2)

theorem Else.alike_of_unplaced : ∀ (rest rest' : Else), rest.unplaced = rest'.unplaced →
    rest.Alike .any rest'
  | .none, rest', h => by
    cases rest' <;> simp only [Else.unplaced, reduceCtorEq] at h
    exact .none
  | .block b, rest', h => by
    cases rest' <;> simp only [Else.unplaced, Else.block.injEq, reduceCtorEq] at h
    exact .block (Block.alike_of_unplaced b _ h)
  | .elseIf _ e b rest, rest', h => by
    cases rest' <;> simp only [Else.unplaced, Else.elseIf.injEq, reduceCtorEq] at h
    obtain ⟨-, he, hb, hrest⟩ := h
    exact .elseIf trivial (e.alike_of_unplaced _ he) (Block.alike_of_unplaced b _ hb)
      (Else.alike_of_unplaced rest _ hrest)

theorem Block.alike_of_unplaced : ∀ (b b' : Block), b.unplaced = b'.unplaced → b.Alike .any b'
  | .mk _ ss, .mk _ ss', h => by
    rw [Block.unplaced, Block.unplaced, Block.mk.injEq] at h
    exact .mk trivial (Stmt.alike_of_unplacedAll ss ss' h.2)

theorem Stmt.alike_of_unplacedAll : ∀ (ss ss' : List Stmt),
    Stmt.unplacedAll ss = Stmt.unplacedAll ss' → List.Forall₂ (Stmt.Alike .any) ss ss'
  | [], [], _ => .nil
  | s :: ss, s' :: ss', h => by
    obtain ⟨hs, hss⟩ := List.cons.inj h
    exact .cons (Stmt.alike_of_unplaced s s' hs) (Stmt.alike_of_unplacedAll ss ss' hss)

end

/-- Programs that agree without places are alike. -/
theorem Program.alike_of_unplaced {p q : Program} (h : p.unplaced = q.unplaced) :
    p.Alike .any q := by
  rw [Program.unplaced, Program.unplaced, Program.mk.injEq] at h
  exact ⟨trivial, Stmt.alike_of_unplacedAll p.body q.body h.2⟩

/-! ## Layout -/

/-- The canonical text of a parsed program is parsed, given enough room for nesting, as a program
that differs in places only. -/
theorem Program.exists_parse_format {nesting : Nat} {path source unit : String} {p : Program}
    (hparse : parseWithin nesting path source = .ok p)
    (hunit : ∀ c ∈ unit.toList, Lexical.isSpace c = true) :
    ∃ q, q.unplaced = p.unplaced ∧
      ∃ room, ∀ a, room ≤ a → parseWithin a path (p.format unit) = .ok q := by
  obtain ⟨tokens, hscan, hparse⟩ := exists_tokens_of_parseWithin hparse
  have hscanned := Token.scanned_scan hscan
  obtain ⟨tokens', q, hscan', hderives, hsame⟩ :=
    scan_format hscanned (derives_of_parseTokensWithin hscanned hparse) hunit path
  have hscanned' := Token.scanned_scan hscan'
  refine ⟨q, hsame, 3 * tokens'.length + 4, fun a ha => ?_⟩
  have hresult : parseWithin a path (p.format unit) = parseTokensWithin a path tokens' := by
    rw [parseWithin, hscan']
    rfl
  rw [hresult]
  have hread : parseTokensWithin a path tokens' = .ok q ∨ _ :=
    parseTokensWithin_of_derives hscanned' hderives
  rcases hread with hok | ⟨d, hdeep⟩
  · exact hok
  · exact absurd hdeep (not_nestedTooDeeply hscanned' ha d)

/-- Layout does not affect behaviour. Under every configuration and allowance, fresh runs of two
programs that differ in places and spellings of numbers only are alike. If a text is parsed, its
canonical text is parsed, given enough room for nesting, as a program whose runs are like those of
the text itself. -/
theorem Session.run_relayout (path : String) :
    (∀ p q : Program, p.Alike .any q → ∀ (cx : Context) (allowance : Nat),
      RunsAlike (Session.run cx allowance path p {}) (Session.run cx allowance path q {})) ∧
    ∀ (nesting : Nat) (source unit : String) (p : Program),
      Program.parseWithin nesting path source = .ok p →
      (∀ c ∈ unit.toList, Lexical.isSpace c = true) →
      ∃ q, (∃ room, ∀ a, room ≤ a → Program.parseWithin a path (p.format unit) = .ok q) ∧
        ∀ (cx : Context) (allowance : Nat),
          RunsAlike (Session.run cx allowance path p {}) (Session.run cx allowance path q {}) := by
  constructor
  · exact fun p q h cx allowance => Relaid.run_alike cx allowance path h
  · intro nesting source unit p hparse hunit
    obtain ⟨q, hsame, hroom⟩ := Program.exists_parse_format hparse hunit
    have halike : p.Alike .any q := Program.alike_of_unplaced hsame.symm
    exact ⟨q, hroom, fun cx allowance => Relaid.run_alike cx allowance path halike⟩

/-- A program that prints on one line, and one that prints on the next. -/
theorem Session.run_relayout_print :
    ∃ p q : Program, p ≠ q ∧ p.Alike .any q ∧ ∀ (cx : Context) (allowance : Nat),
      RunsAlike (Session.run cx allowance "" p {}) (Session.run cx allowance "" q {}) := by
  have halike (pos pos' : Position) (raw raw' : String) :
      Program.Alike .any
        ⟨pos, [.expr pos (.call pos (.ident pos "print") [.number pos (.int 1) raw])]⟩
        ⟨pos', [.expr pos' (.call pos' (.ident pos' "print") [.number pos' (.int 1) raw'])]⟩ :=
    ⟨trivial, .cons (.expr trivial (.call trivial (.ident trivial)
      (.cons (.number trivial trivial) .nil))) .nil⟩
  have h := halike ⟨1, 1⟩ ⟨2, 1⟩ "1" "01"
  exact ⟨_, _, by simp, h, (Session.run_relayout "").1 _ _ h⟩

end MiniApp
