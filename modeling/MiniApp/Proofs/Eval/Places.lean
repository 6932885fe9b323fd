import MiniApp.Proofs.Arena.Bindings
import MiniApp.Proofs.Eval.Evolution
import MiniApp.Proofs.Eval.Faults
import MiniApp.Proofs.Eval.Lockstep

/-!
# Places in failures

A run takes the places that it reports from the program: from nodes that it comes to, from functions
and jumps, which carry the place of a node along, and from bindings and declared properties, which
remember one. The builtin functions have no place in the program. They are bound in the outermost
frame, where no program declares anything, and they are not constants, so their place is never
reported.

A run is compared with itself here, under a leeway that lets nothing stand for anything but itself,
and places only if they are of a kind. What two runs side by side keep in common then includes that
all places which they carry along are of that kind.

## Main definitions

* `RunFailure.PointsInto`: failures that report places of a kind only
* `Arena.Holds`: arenas whose bindings all have a property
* `Leeway.within`, `Mirrored.pairing`: a run beside itself

## Main results

* `Mirrored.lawful_pairing`: elementary actions report places of the kind that they are given
* `Run.start_pointsInto`: fresh runs report places of the program
-/

namespace MiniApp

variable {P : Position → Prop} {pos : Position}

/-! ## Failures -/

/-- A diagnostic that names places of a kind only, and no file. -/
structure Diagnostic.Bare (P : Position → Prop) (d : Diagnostic) : Prop where
  path : d.path = none
  places : d.PointsInto P

/-- A failure that is no diagnostic, or one that names places of a kind only and no file. -/
def RunFailure.PointsInto (P : Position → Prop) (e : RunFailure) : Prop :=
  ∀ d, e = .rejected d → d.Bare P

theorem RunFailure.pointsInto_rejected {d : Diagnostic} (h : d.Bare P) :
    PointsInto P (.rejected d) := by
  intro d' heq
  obtain rfl := RunFailure.rejected.inj heq
  exact h

theorem RunFailure.pointsInto_of_ne {e : RunFailure} (h : ∀ d, e ≠ .rejected d) :
    e.PointsInto P :=
  fun d hd => absurd hd (h d)

theorem RunFailure.pointsInto_dangling : PointsInto P .dangling := pointsInto_of_ne (by simp)

namespace Diagnostic.Bare

variable {trouble : Trouble} {message : String}

theorem located (hpos : P pos) (h : trouble.RecallsAmong P message) :
    (Diagnostic.located pos trouble message).Bare P :=
  ⟨rfl, .located hpos h⟩

theorem plain (hpos : P pos) (h : trouble.recalls = false) :
    (Diagnostic.located pos trouble message).Bare P :=
  ⟨rfl, .plain hpos h⟩

end Diagnostic.Bare

namespace Meter

variable (l : Limits) (m : Meter) (hpos : P pos)
include hpos

theorem failsOnly_checkSteps : FailsOnly (Diagnostic.Bare P) (m.checkSteps l pos) := by
  rw [checkSteps]
  split
  · split
    · exact .error (.plain hpos rfl)
    · exact .ok ()
  · exact .ok ()

theorem failsOnly_checkDepth : FailsOnly (Diagnostic.Bare P) (m.checkDepth l pos) := by
  rw [checkDepth]
  split
  · exact .error (.plain hpos rfl)
  · exact .ok ()

end Meter

namespace App

/-- All declarations that are remembered stand at places of a kind. -/
def Declared (P : Position → Prop) (a : App) : Prop := ∀ x ∈ a.declared, P x.2

/-- Results of declarations: an application record, or a diagnostic. -/
inductive Registers (P : Position → Prop) : Except Diagnostic App → Prop
  | ok {a : App} : a.Declared P → Registers P (.ok a)
  | error {d : Diagnostic} : d.Bare P → Registers P (.error d)

variable {a : App} (ha : a.Declared P) (hpos : P pos)

theorem declared_empty : Declared P {} := fun _ hx => absurd hx List.not_mem_nil

include ha hpos

/-- A field that has been declared before is refused with the place of that declaration. -/
theorem registers_reserve (field keyword : String) :
    Registers P (a.reserve field keyword pos) := by
  rw [reserve]
  cases hfirst : a.declared.lookup field with
  | none =>
    refine .ok fun x hx => ?_
    rcases List.mem_append.mp hx with hx | hx
    · exact ha x hx
    · obtain rfl := List.mem_singleton.mp hx
      exact hpos
  | some first =>
    obtain ⟨before, after, hdeclared, -⟩ := List.lookup_eq_some_iff.mp hfirst
    have hmem : (field, first) ∈ a.declared := by
      rw [hdeclared]
      exact List.mem_append_right _ List.mem_cons_self
    -- the report names the place of the earlier declaration too, which has been registered
    exact .error (.located hpos ⟨keyword, first, rfl, ha _ hmem, rfl⟩)

theorem registers_setProperty (p : Property) (value : Data) :
    Registers P (a.setProperty p value pos) := by
  have hreserve := registers_reserve ha hpos p.field p.keyword
  rw [setProperty]
  generalize a.reserve p.field p.keyword pos = r at hreserve
  cases hreserve with
  | error hd => exact .error hd
  | ok h =>
    refine .ok ?_
    rw [Declared, declared_write]
    exact h

theorem registers_openBody (style : String) : Registers P (a.openBody style pos) := by
  have hreserve := registers_reserve ha hpos "body" "body"
  rw [openBody]
  generalize a.reserve "body" "body" pos = r at hreserve
  cases hreserve with
  | error hd => exact .error hd
  | ok h => exact .ok h

end App

/-! ## Bindings with a property -/

/-- All bindings have a property, which may depend on the index of their frame, and the outermost
frame is not released. -/
structure Arena.Holds (B : Nat → Binding Value → Prop) (a : Arena Value) : Prop where
  outermost : a.Open 0
  binding {i : Nat} {f : Frame Value} : a.frame? i = some f → ∀ x ∈ f.bindings, B i x.2

namespace Arena

variable {B : Nat → Binding Value → Prop} {a b : Arena Value} {i k : Nat} {name : String}
variable {v : Value} {x : Binding Value}

namespace Holds

variable (h : a.Holds B)
include h

theorem size_pos : 0 < a.size := h.outermost.lt_size

theorem find? {f : Frame Value} (hf : a.frame? i = some f) (hx : f.find? name = some x) :
    B i x :=
  h.binding hf (name, x) (Frame.mem_bindings_of_find? hx)

theorem locate (hfound : a.locate i name = .bound k x) : B k x := by
  obtain ⟨f, hf, hx⟩ := (visible_of_locateFrom hfound).exists_frame?
  exact h.find? hf hx

theorem modify {g : Frame Value → Frame Value} (hreleased : ∀ f, (g f).released = f.released)
    (hbinding : ∀ f : Frame Value, (∀ x ∈ f.bindings, B k x.2) → ∀ x ∈ (g f).bindings, B k x.2) :
    (a.modify k g).Holds B := by
  refine ⟨h.outermost.modify k hreleased, fun {i f'} hf' => ?_⟩
  obtain ⟨f, hf, ⟨rfl, rfl⟩ | ⟨-, rfl⟩⟩ := frame?_of_modify hf'
  · exact hbinding f (h.binding hf)
  · exact h.binding hf

theorem define (hx : B i x) (hb : a.define i name x = .ok b) : b.Holds B := by
  obtain rfl := define_eq_ok hb
  refine h.modify (fun _ => rfl) fun f hf y hy => ?_
  rcases List.mem_append.mp hy with hy | hy
  · exact hf y hy
  · obtain rfl := List.mem_singleton.mp hy
    exact hx

theorem assign (hv : ∀ k y, B k y → B k { y with value := v })
    (hb : a.assign i name v pos = .ok b) : b.Holds B := by
  obtain ⟨owner, rfl⟩ := assign_eq_ok hb
  refine h.modify (fun _ => rfl) fun f hf y hy => ?_
  obtain ⟨x, hx, rfl⟩ := List.mem_map.mp hy
  split
  · exact hv _ _ (hf x hx)
  · exact hf x hx

theorem capture : (a.capture i).Holds B := h.modify (fun _ => rfl) fun _ hf => hf

theorem allocate (parent : Option Nat) : (a.allocate parent).Holds B := by
  refine ⟨h.outermost.allocate parent, fun {j f} hf => ?_⟩
  obtain ⟨-, rfl⟩ | hf := frame?_of_allocate hf
  · exact fun x hx => absurd hx List.not_mem_nil
  · exact h.binding hf

theorem release (policy : Reclamation) (hk : 0 < k) : (a.release policy k).Holds B := by
  refine ⟨h.outermost.release policy hk, fun {i g} hg => ?_⟩
  obtain ⟨f, hf, rfl⟩ := frame?_of_release hg
  have hbinding := h.binding hf
  split <;> exact hbinding

end Holds

/-! ### Bindings at places of a kind -/

/-- A binding whose value has a property. Its place is of a kind if it is a constant, or if it is
not bound in the outermost frame. -/
structure Placed (P : Position → Prop) (V : Value → Prop) (i : Nat) (x : Binding Value) : Prop where
  place : 0 < i ∨ x.kind = .const → P x.pos
  value : V x.value

variable {V : Value → Prop}

theorem pointsInto_undeclared (a : Arena Value) (i : Nat) (name : String) (hpos : P pos) :
    (a.undeclared i name pos).toRun.PointsInto P := by
  rw [undeclared]
  split
  · exact RunFailure.pointsInto_dangling
  · exact RunFailure.pointsInto_rejected (.plain hpos rfl)

/-- Results of operations on names: something, or a failure that points to places of a kind. -/
abbrev PointsOnly {α : Type} (P : Position → Prop) (r : Except ScopeFailure α) : Prop :=
  FailsOnly (fun e => e.toRun.PointsInto P) r

theorem pointsOnly_lookup (hpos : P pos) : PointsOnly P (a.lookup i name pos) := by
  rw [Arena.lookup]
  split
  · exact .ok _
  · exact .error (pointsInto_undeclared a i name hpos)
  · exact .error RunFailure.pointsInto_dangling

variable (h : a.Holds (Placed P V))
include h

theorem pointsOnly_define (hi : 0 < i) (hpos : P x.pos) :
    PointsOnly P (a.define i name x) := by
  rw [Arena.define]
  cases hf : a.frame? i with
  | none => exact .error RunFailure.pointsInto_dangling
  | some f =>
    dsimp only
    cases hfirst : f.find? name with
    | none => exact .ok _
    | some first =>
      have hplace : P first.pos := (h.find? hf hfirst).place (.inl hi)
      exact .error (RunFailure.pointsInto_rejected (.located hpos ⟨_, hplace, rfl, rfl⟩))

theorem value_of_lookup (hv : a.lookup i name pos = .ok v) : V v := by
  rw [Arena.lookup] at hv
  split at hv
  · next k x hfound =>
    obtain rfl := Except.ok.inj hv
    exact (h.locate hfound).value
  · cases hv
  · cases hv

theorem pointsOnly_assign (hpos : P pos) : PointsOnly P (a.assign i name v pos) := by
  rw [Arena.assign]
  split
  · next owner x hfound =>
    split
    · next hconst =>
      have hplace : P x.pos := (h.locate hfound).place (.inr hconst)
      exact .error (RunFailure.pointsInto_rejected (.located hpos ⟨_, hplace, rfl, rfl⟩))
    · exact .ok _
  · exact .error (pointsInto_undeclared a i name hpos)
  · exact .error RunFailure.pointsInto_dangling

end Arena

/-! ## A run beside itself -/

/-- Nothing may stand for anything but itself, and of the places only those of a kind may. -/
def Leeway.within (P : Position → Prop) : Leeway := ⟨fun p q => p = q ∧ P p, (· = ·)⟩

theorem Leeway.rigid_within (P : Position → Prop) : (within P).Rigid := ⟨And.left, id⟩

namespace Mirrored

/-- Values belong together if they are the same and carry places of a kind only. -/
def likeness (P : Position → Prop) (known : List Layer → Node → Prop) : Likeness where
  World := Unit
  leeway := .within P
  ident := (· = ·)
  known := known
  captured _ _ i j := i = j ∧ 0 < i

variable {known : List Layer → Node → Prop} {cx : Context} {w : Unit} {i j : Nat} {p q : Position}
variable {v u : Value} {name : String} {α β : Type} {Q : Unit → α → β → Prop}

/-- Values that carry places of a kind only. -/
def Carries (P : Position → Prop) (known : List Layer → Node → Prop) (v : Value) : Prop :=
  (likeness P known).Values () v v

theorem values_iff : (likeness P known).Values w v u ↔ v = u ∧ Carries P known v := by
  constructor
  · intro h
    have heq : v = u := by
      cases h with
      | @closure f g h =>
        obtain ⟨id, name, parameters, body, frame, pos⟩ := f
        obtain ⟨id', name', parameters', body', frame', pos'⟩ := g
        obtain rfl : id = id' := h.ident
        obtain rfl : name = name' := h.name
        obtain rfl : parameters = parameters' := h.parameters
        obtain rfl : body = body' := h.body.eq (Leeway.rigid_within P)
        obtain ⟨rfl, -⟩ : pos = pos' ∧ P pos := h.place
        obtain ⟨-, ⟨hframe, -⟩, -⟩ := h.frame
        obtain rfl : frame = frame' := hframe
        rfl
      | builtin name action h =>
        obtain rfl := h
        rfl
      | _ => rfl
    exact ⟨heq, heq ▸ h⟩
  · rintro ⟨rfl, h⟩
    exact h

/-- Sessions in which all places are of a kind that may be reported. -/
structure Clear (P : Position → Prop) (known : List Layer → Node → Prop) (s : Session) : Prop where
  arena : s.arena.Holds (Arena.Placed P (Carries P known))
  app : s.app.Declared P

/-- A run beside itself. -/
def pairing (P : Position → Prop) (known : List Layer → Node → Prop) (cx : Context) :
    Pairing where
  toLikeness := likeness P known
  order := inferInstanceAs (Preorder Unit)
  left := cx
  right := cx
  scope _ _ i j := i = j ∧ 0 < i
  sections := (· = ·)
  state _ s t := s = t ∧ Clear P known s
  failure e f := e = f ∧ e.PointsInto P

/-- Results that leave a session clear: a value with a property, or a failure that points to places
of a kind. -/
inductive Ends (P : Position → Prop) (known : List Layer → Node → Prop) (Q : α → Prop) :
    EStateM.Result RunFailure Session α → Prop
  | ok {a : α} {s : Session} : Clear P known s → Q a → Ends P known Q (.ok a s)
  | error {e : RunFailure} {s : Session} :
      Clear P known s → e.PointsInto P → Ends P known Q (.error e s)

/-- An action agrees with itself if it keeps sessions clear. -/
theorem agree_self {x : Run α} {Q : Unit → α → α → Prop}
    (h : ∀ s, Clear P known s → Ends P known (fun a => Q () a a) (x s)) :
    (pairing P known cx).Agree w Q x x := by
  rintro s _ ⟨rfl, hs⟩
  have hends := h s hs
  generalize x s = r at hends
  cases hends with
  | ok ht ha => exact .ok le_rfl ⟨rfl, ht⟩ ha
  | error ht he => exact .error le_rfl ⟨rfl, ht⟩ ⟨rfl, he⟩

/-! ### Elementary actions -/

/-- Counting and checking against a limit. -/
theorem agree_meter (count : Meter → Meter) {check : Meter → Except Diagnostic Unit}
    (h : ∀ m, FailsOnly (Diagnostic.Bare P) (check m)) :
    (pairing P known cx).Agree w (pairing P known cx).Done
      (do
        modify fun s => { s with meter := count s.meter }
        Run.ofDiagnostic (check (← get).meter))
      (do
        modify fun s => { s with meter := count s.meter }
        Run.ofDiagnostic (check (← get).meter)) := by
  refine agree_self fun s hs => ?_
  have hcounted : Clear P known { s with meter := count s.meter } := { hs with }
  change Ends P known _ (Run.ofDiagnostic (check (count s.meter)) _)
  have hcheck := h (count s.meter)
  generalize check (count s.meter) = r at hcheck
  cases hcheck with
  | ok _ => exact .ok hcounted trivial
  | error hd => exact .error hcounted (RunFailure.pointsInto_rejected hd)

theorem agree_visit (n : Node) : (pairing P known cx).Agree w (pairing P known cx).Done
    (Run.visit cx i n) (Run.visit cx i n) := by
  refine agree_self fun s hs => .ok ?_ trivial
  change Clear P known (if cx.recording then _ else _)
  split
  · exact { hs with }
  · exact hs

theorem agree_define (kind : BindingKind) (hi : 0 < i) (hp : P p) (hv : Carries P known v) :
    (pairing P known cx).Agree w (pairing P known cx).Done
      (Run.define i name v kind p) (Run.define i name v kind p) := by
  refine agree_self fun s hs => ?_
  rw [Run.define]
  cases h : s.arena.define i name ⟨v, kind, p⟩ with
  | ok arena => exact .ok { hs with arena := hs.arena.define ⟨fun _ => hp, hv⟩ h } trivial
  | error e => exact .error hs ((Arena.pointsOnly_define hs.arena hi hp).of_error h)

theorem agree_lookup (hp : P p) : (pairing P known cx).Agree w (pairing P known cx).Values
    (Run.lookup i name p) (Run.lookup i name p) := by
  refine agree_self fun s hs => ?_
  rw [Run.lookup]
  cases h : s.arena.lookup i name p with
  | ok v =>
    have hv : Carries P known v := Arena.value_of_lookup hs.arena h
    exact .ok hs hv
  | error e => exact .error hs ((Arena.pointsOnly_lookup hp).of_error h)

theorem agree_assign (hp : P p) (hv : Carries P known v) :
    (pairing P known cx).Agree w (pairing P known cx).Done
      (Run.assign i name v p) (Run.assign i name v p) := by
  refine agree_self fun s hs => ?_
  rw [Run.assign]
  cases h : s.arena.assign i name v p with
  | ok arena =>
    exact .ok { hs with arena := hs.arena.assign (fun _ _ hy => ⟨hy.place, hv⟩) h } trivial
  | error e => exact .error hs ((Arena.pointsOnly_assign hs.arena hp).of_error h)

theorem agree_isBound (name : String) : (pairing P known cx).Agree w (fun _ => (· = ·))
    (Run.isBound i name) (Run.isBound i name) := by
  refine agree_self fun s hs => ?_
  rw [Run.isBound]
  split
  · exact .ok hs rfl
  · exact .ok hs rfl
  · exact .error hs RunFailure.pointsInto_dangling

theorem agree_capture : (pairing P known cx).Agree w (pairing P known cx).Done
    (Run.capture i) (Run.capture i) := by
  refine agree_self fun s hs => ?_
  rw [Run.capture]
  split
  · exact .ok { hs with arena := hs.arena.capture } trivial
  · exact .error hs RunFailure.pointsInto_dangling

theorem agree_freshId :
    (pairing P known cx).Agree w (fun _ => (· = ·)) Run.freshId Run.freshId :=
  agree_self fun _ hs => .ok { hs with } rfl

/-- A scope that is opened is not the outermost one. -/
theorem agree_openScope (parent : Option Nat) :
    (pairing P known cx).Agree w (fun _ k k' => k = k' ∧ 0 < k) (Run.openScope parent)
      (Run.openScope parent) :=
  agree_self fun _ hs => .ok { hs with arena := hs.arena.allocate parent } ⟨rfl, hs.arena.size_pos⟩

theorem agree_closeScope (hi : 0 < i) : (pairing P known cx).Agree w (pairing P known cx).Done
    (Run.closeScope cx i) (Run.closeScope cx i) := by
  refine agree_self fun s hs => ?_
  rw [Run.closeScope]
  split
  · exact .ok { hs with arena := hs.arena.release cx.reclamation hi } trivial
  · exact .error hs RunFailure.pointsInto_dangling

theorem agree_inScope {x : Nat → Run α} {y : Nat → Run β}
    (h : ∀ k, 0 < k → (pairing P known cx).Agree w Q (x k) (y k)) :
    (pairing P known cx).Agree w Q (Run.inScope cx i x) (Run.inScope cx i y) := by
  refine (agree_openScope (some i)).bind ?_
  rintro _ k _ _ ⟨rfl, hk⟩
  exact (h k hk).closing (fun _ hq => hq) fun _ _ => agree_closeScope hk

theorem agree_emit (v : Value) : (pairing P known cx).Agree w (pairing P known cx).Done
    (Run.emit v) (Run.emit v) := by
  refine agree_self fun s hs => ?_
  rw [Run.emit]
  split
  · exact .ok { hs with app := hs.app } trivial
  · exact .error hs (RunFailure.pointsInto_of_ne (by simp))

theorem agree_setProperty (kind : Property) (value : Data) (hp : P p) :
    (pairing P known cx).Agree w (pairing P known cx).Done
      (Run.setProperty kind value p) (Run.setProperty kind value p) := by
  refine agree_self fun s hs => ?_
  rw [Run.setProperty]
  have hset := App.registers_setProperty hs.app hp kind value
  generalize s.app.setProperty kind value p = r at hset
  cases hset with
  | ok h => exact .ok { hs with app := h } trivial
  | error hd => exact .error hs (RunFailure.pointsInto_rejected hd)

theorem agree_openBody (style : String) (hp : P p) :
    (pairing P known cx).Agree w (fun _ => (· = ·)) (Run.openBody style p)
      (Run.openBody style p) := by
  refine agree_self fun s hs => ?_
  rw [Run.openBody]
  have hopen := App.registers_openBody hs.app hp style
  generalize s.app.openBody style p = r at hopen
  cases hopen with
  | ok h => exact .ok { hs with app := h } rfl
  | error hd => exact .error hs (RunFailure.pointsInto_rejected hd)

/-- Elementary actions report places of the kind that they are given. -/
theorem lawful_pairing (hknown : KnowsParts known) : (pairing P known cx).Lawful where
  patience := rfl
  defaultWebVersion := rfl
  ident_iff := by
    rintro a a' b b' rfl rfl
    exact Iff.rfl
  knowsParts := hknown
  captured_mono _ h := h
  scope_mono _ h := h
  scope_of_captured h := h
  rejected trouble message htrouble hp := by
    obtain ⟨rfl, hp⟩ := hp
    exact ⟨rfl, RunFailure.pointsInto_rejected (.plain hp htrouble)⟩
  fault f := ⟨rfl, RunFailure.pointsInto_of_ne (by simp)⟩
  nestedTooDeeply := ⟨rfl, RunFailure.pointsInto_of_ne (by simp)⟩
  outOfPatience := ⟨rfl, RunFailure.pointsInto_of_ne (by simp)⟩
  inBody_eq hs := congrArg Session.inBody hs.1
  activate hn hs := by
    obtain ⟨rfl, hs⟩ := hs
    exact ⟨by rw [hn], { hs with }⟩
  restore hs hs' := by
    obtain ⟨rfl, -⟩ := hs
    obtain ⟨rfl, hs'⟩ := hs'
    exact ⟨rfl, { hs' with }⟩
  exitCall hs := by
    obtain ⟨rfl, hs⟩ := hs
    exact ⟨rfl, { hs with }⟩
  enterCall {w p q} name hp := by
    obtain ⟨rfl, hp⟩ := hp
    exact agree_meter (·.enter name) fun m => m.failsOnly_checkDepth _ hp
  step {w p q} hp := by
    obtain ⟨rfl, hp⟩ := hp
    exact agree_meter Meter.step fun m => m.failsOnly_checkSteps _ hp
  visit {w layers i j n m} h _ hn := by
    obtain ⟨rfl, -⟩ := h
    obtain rfl := hn.eq (Leeway.rigid_within P)
    exact agree_visit n
  define {w layers i j p q name v u} kind h _ hp hv := by
    obtain ⟨rfl, hi⟩ := h
    obtain ⟨rfl, hp⟩ := hp
    obtain ⟨rfl, hv⟩ := values_iff.mp hv
    exact agree_define kind hi hp hv
  lookup {w layers i j p q} name h hp := by
    obtain ⟨rfl, -⟩ := h
    obtain ⟨rfl, hp⟩ := hp
    exact agree_lookup hp
  assign {w layers i j p q v u} name h hp hv := by
    obtain ⟨rfl, -⟩ := h
    obtain ⟨rfl, hp⟩ := hp
    obtain ⟨rfl, hv⟩ := values_iff.mp hv
    exact agree_assign hp hv
  isBound {w layers i j} name h := by
    obtain ⟨rfl, -⟩ := h
    exact agree_isBound name
  declareFunction {w layers i j p q name parameters b b'} h hfunc hp hb := by
    have hbody := hb
    obtain ⟨rfl, hi⟩ := h
    obtain ⟨rfl, hp⟩ := hp
    obtain rfl := hb.eq (Leeway.rigid_within P)
    apply agree_freshId.bind
    rintro w₁ id _ _ rfl
    refine agree_capture.bind fun w₂ _ _ _ _ => ?_
    refine (agree_define .func hi hp (.closure ?_)).bind fun _ _ _ _ _ => .pure .normal
    exact ⟨rfl, rfl, rfl, hbody, ⟨rfl, hp⟩, layers, ⟨rfl, hi⟩, fun s hs =>
      hknown.stmt hfunc (List.Subset.refl _) hs⟩
  inScope {w layers i j x y} l h hxy := by
    obtain ⟨rfl, -⟩ := h
    exact agree_inScope fun k hk => hxy w k k le_rfl ⟨rfl, hk⟩
  printed {w p q} text hp := by
    obtain ⟨rfl, -⟩ := hp
    exact agree_self fun s hs => .ok { hs with } trivial
  emit {w v u} hv := by
    obtain ⟨rfl, -⟩ := values_iff.mp hv
    exact agree_emit v
  setProperty {w p q} kind value hp := by
    obtain ⟨rfl, hp⟩ := hp
    exact agree_setProperty kind value hp
  openBody {w p q} style hp := by
    obtain ⟨rfl, hp⟩ := hp
    exact agree_openBody style hp

/-- The builtin functions are bound in the outermost frame, and none of them is a constant. -/
theorem clear_opened : Clear P known (Session.opened {}) where
  arena := by
    refine ⟨⟨.builtins 0, rfl, rfl⟩, fun {i f} hf x hx => ?_⟩
    rw [Session.frame?_opened] at hf
    split at hf
    · obtain rfl := Option.some.inj hf
      exact absurd hx List.not_mem_nil
    · split at hf
      · next hi =>
        obtain rfl : i = 0 := hi
        obtain rfl := Option.some.inj hf
        obtain ⟨hkind, hv⟩ : x.2.kind = .builtin ∧ Carries P known x.2.value := by
          rcases List.mem_pair.mp hx with rfl | rfl
          · exact ⟨rfl, .builtin _ _ rfl⟩
          · exact ⟨rfl, .builtin _ _ rfl⟩
        -- built-in functions have no place of their own, and none is asked of them
        refine ⟨fun hplace => ?_, hv⟩
        rcases hplace with hinner | hconst
        · exact absurd hinner (Nat.lt_irrefl 0)
        · rw [hkind] at hconst
          cases hconst
      · cases hf
  app := App.declared_empty

end Mirrored

/-- Fresh runs report places of the program. -/
theorem Run.start_pointsInto (cx : Context) (allowance : Nat) {p : Program}
    (h : p.Alike (.within P) p) {e : RunFailure} {s : Session}
    (hstart : Run.start cx allowance p {} = .error e s) : e.PointsInto P := by
  have hlawful : (Mirrored.pairing P (Occurs p) cx).Lawful :=
    Mirrored.lawful_pairing (Occurs.knowsParts p)
  have hscope : (Mirrored.pairing P (Occurs p) cx).scope () p.layers 1 1 := ⟨rfl, Nat.one_pos⟩
  have hends := hlawful.agree_program allowance hscope Occurs.root h _ _
    ⟨rfl, Mirrored.clear_opened⟩
  rw [Run.start_eq] at hstart
  change Pairing.Ends _ _ _ (Run.program cx allowance p 1 _) (Run.program cx allowance p 1 _)
    at hends
  rw [show Run.program cx allowance p 1 _ = _ from hstart] at hends
  cases hends with
  | error _ _ hfailure => exact hfailure.2

end MiniApp
