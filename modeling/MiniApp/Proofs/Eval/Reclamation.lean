import MiniApp.Proofs.Eval.Lockstep
import MiniApp.Proofs.Eval.Twins

/-!
# Reclamation cannot be observed

A run that reclaims frames eagerly and one that never does are paired by twins. Each elementary
action keeps the two sessions together, so the runs go in lockstep: they print the same, describe the
same application, count the same and end alike. Only the indices of frames differ.

## Main definitions

* `Value.unframed`, `App.unframed`, `Event.unframed`: what does not depend on indices of frames
* `Twins.Sessions`: sessions that belong together
* `Twins.pairing`: an eager run beside one that never reclaims

## Main results

* `Twins.lawful_pairing`: elementary actions keep sessions together
* `Run.start_not_dangling`: no run uses a frame that is not in the arena
* `Session.run_reclamation`: reclamation cannot be observed
-/

namespace MiniApp

/-- A value without the index of the frame that a function was declared in. -/
def Value.unframed : Value → Value
  | .closure f => .closure { f with frame := 0 }
  | v => v

/-- An application record without indices of frames. -/
def App.unframed (a : App) : App :=
  { a with body := a.body.map fun s => { s with content := s.content.map Value.unframed } }

/-- An event without indices of frames. -/
def Event.unframed : Event → Event
  | .emitted v => .emitted v.unframed
  | e => e

namespace App

variable {a b : App}

theorem unframed_emit (id : Nat) (v : Value) :
    (a.emit id v).unframed = a.unframed.emit id v.unframed := by
  cases h : a.body with
  | none => simp [emit, unframed, h]
  | some s =>
    by_cases hid : s.id = id
    · simp [emit, unframed, h, hid]
    · simp [emit, unframed, h, hid]

theorem unframed_reserve (field keyword : String) (pos : Position) :
    (a.reserve field keyword pos).map unframed = a.unframed.reserve field keyword pos := by
  rw [reserve, reserve, unframed]
  cases a.declared.lookup field <;> rfl

theorem unframed_setProperty (p : Property) (value : Data) (pos : Position) :
    (a.setProperty p value pos).map unframed = a.unframed.setProperty p value pos := by
  rw [setProperty, setProperty, ← unframed_reserve]
  cases a.reserve p.field p.keyword pos with
  | error d => rfl
  | ok r => cases p <;> rfl

theorem nextSection_unframed (a : App) : a.unframed.nextSection = a.nextSection := rfl

theorem unframed_openBody (style : String) (pos : Position) :
    (a.openBody style pos).map unframed = a.unframed.openBody style pos := by
  rw [openBody, openBody, ← unframed_reserve]
  cases a.reserve "body" "body" pos with
  | error d => rfl
  | ok r =>
    rw [nextSection_unframed]
    simp [Except.map, bind, Except.bind, pure, Except.pure, unframed]

end App

namespace Twins

variable {known : List Layer → Node → Prop} {w w' : Twins} {layers : List Layer} {i j : Nat}

/-- Values that belong together differ in indices of frames only. -/
theorem unframed_eq {v u : Value} (h : (likeness known).Values w v u) : v.unframed = u.unframed := by
  cases h with
  | @closure f g h =>
    obtain ⟨id, name, parameters, body, frame, pos⟩ := f
    obtain ⟨rfl, rfl, rfl, hbody, rfl, -⟩ := h
    rw [Value.unframed, Value.unframed, hbody.eq Leeway.rigid_exact]
  | builtin name action h => rw [h]
  | _ => rfl

/-- Sessions that belong together: their arenas do, everything else is the same but for indices of
frames, and whatever was recorded of the left run was found in the right layers. -/
structure Sessions (known : List Layer → Node → Prop) (w : Twins) (s t : Session) : Prop where
  arena : Arenas known w s.arena t.arena
  settled : w.Settled
  app : s.app.unframed = t.app.unframed
  meter : s.meter = t.meter
  active : s.active = t.active
  nextId : s.nextId = t.nextId
  trace : s.trace.map Event.unframed = t.trace.map Event.unframed
  visits : ∀ v ∈ s.visits, ∃ layers, known layers v.node ∧ v.Scoped layers

/-- A run beside another one. -/
def pairing (known : List Layer → Node → Prop) (left right : Context) : Pairing where
  toLikeness := likeness known
  order := instPreorder
  left := left
  right := right
  scope := Scope
  sections := (· = ·)
  state := Sessions known
  -- frames in use are never missing
  failure e f := e = f ∧ e ≠ .dangling

/-! ## Elementary actions -/

section Actions

variable {left right : Context} {α β : Type} {name : String} {pos : Position} {v u : Value}

/-- Counting and checking against a limit agree, since the counters are the same. -/
theorem agree_meter (count : Meter → Meter) (check : Meter → Except Diagnostic Unit) :
    (pairing known left right).Agree w (pairing known left right).Done
      (do
        modify fun s => { s with meter := count s.meter }
        Run.ofDiagnostic (check (← get).meter))
      (do
        modify fun s => { s with meter := count s.meter }
        Run.ofDiagnostic (check (← get).meter)) := by
  intro s t hs
  have hcounted : Sessions known w { s with meter := count s.meter }
      { t with meter := count t.meter } := { hs with meter := congrArg count hs.meter }
  change (pairing known left right).Ends w _ (Run.ofDiagnostic (check (count s.meter)) _)
    (Run.ofDiagnostic (check (count t.meter)) _)
  rw [hs.meter]
  cases check (count t.meter) with
  | ok _ => exact .ok le_rfl hcounted trivial
  | error d => exact .error le_rfl hcounted ⟨rfl, nofun⟩

theorem agree_visit {n m : Node} (hscope : w.Scope layers i j) (hknown : known layers n) :
    (pairing known left right).Agree w (pairing known left right).Done
      (Run.visit left i n) (Run.visit right j m) := by
  intro s t hs
  obtain ⟨frames, -, hframes, -, -, hwithin⟩ := hs.arena.chain? hscope
  refine .ok le_rfl ?_ trivial
  have hleft : Sessions known w
      (if left.recording then { s with visits := s.visits.push ⟨n, i, s.arena⟩ } else s) t := by
    split
    · refine { hs with visits := fun v hv => ?_ }
      rcases Array.mem_push.mp hv with hv | rfl
      · exact hs.visits v hv
      · exact ⟨layers, hknown, frames, hframes, hwithin⟩
    · exact hs
  -- what the right run records does not matter
  change Sessions known w (if left.recording then _ else _) (if right.recording then _ else _)
  generalize (if left.recording then _ else _ : Session) = s' at hleft ⊢
  split
  · exact { hleft with }
  · exact hleft

theorem agree_define (kind : BindingKind) (hscope : w.Scope layers i j)
    (hname : Layer.DeclaredIn layers name) (hv : (likeness known).Values w v u) :
    (pairing known left right).Agree w (pairing known left right).Done
      (Run.define i name v kind pos) (Run.define j name u kind pos) := by
  intro s t hs
  have hbindings : Bindings known w (name, ⟨v, kind, pos⟩) (name, ⟨u, kind, pos⟩) :=
    ⟨rfl, rfl, rfl, hv⟩
  rw [Run.define, Run.define]
  rcases hs.arena.define hscope hname hbindings with ⟨d, ha, hb⟩ | ⟨a, b, ha, hb, harena⟩
  · rw [ha, hb]
    exact .error le_rfl hs ⟨rfl, nofun⟩
  · rw [ha, hb]
    exact .ok le_rfl { hs with arena := harena } trivial

theorem agree_lookup (name : String) (pos : Position) (hscope : w.Scope layers i j) :
    (pairing known left right).Agree w (pairing known left right).Values
      (Run.lookup i name pos) (Run.lookup j name pos) := by
  intro s t hs
  rw [Run.lookup, Run.lookup]
  rcases hs.arena.lookup name pos hscope with ⟨d, ha, hb⟩ | ⟨v, u, ha, hb, hv⟩
  · rw [ha, hb]
    exact .error le_rfl hs ⟨rfl, nofun⟩
  · rw [ha, hb]
    exact .ok le_rfl hs hv

theorem agree_assign (name : String) (pos : Position) (hscope : w.Scope layers i j)
    (hv : (likeness known).Values w v u) :
    (pairing known left right).Agree w (pairing known left right).Done
      (Run.assign i name v pos) (Run.assign j name u pos) := by
  intro s t hs
  rw [Run.assign, Run.assign]
  rcases hs.arena.assign name pos hscope hv with ⟨d, ha, hb⟩ | ⟨a, b, ha, hb, harena⟩
  · rw [ha, hb]
    exact .error le_rfl hs ⟨rfl, nofun⟩
  · rw [ha, hb]
    exact .ok le_rfl { hs with arena := harena } trivial

theorem agree_isBound (name : String) (hscope : w.Scope layers i j) :
    (pairing known left right).Agree w (fun _ => (· = ·)) (Run.isBound i name)
      (Run.isBound j name) := by
  intro s t hs
  rw [Run.isBound, Run.isBound]
  rcases hs.arena.locate name hscope with ⟨ha, hb⟩ | ⟨k, t, x, y, -, ha, hb, -⟩
  · rw [ha, hb]
    exact .ok le_rfl hs rfl
  · rw [ha, hb]
    exact .ok le_rfl hs rfl

theorem agree_emit (hv : (likeness known).Values w v u) :
    (pairing known left right).Agree w (pairing known left right).Done
      (Run.emit v) (Run.emit u) := by
  intro s t hs
  rw [Run.emit, Run.emit, hs.active]
  cases t.active with
  | none => exact .error le_rfl hs ⟨rfl, nofun⟩
  | some id =>
    refine .ok le_rfl { hs with app := ?_, active := rfl, trace := ?_ } trivial
    · rw [App.unframed_emit, App.unframed_emit, hs.app, unframed_eq hv]
    -- the trace remembers the value that was emitted
    · rw [Array.map_push, Array.map_push, hs.trace, Event.unframed, Event.unframed,
        unframed_eq hv]

/-- A change of the application that may be refused. -/
theorem Sessions.app_cases {s t : Session} (hs : Sessions known w s t)
    (F : App → Except Diagnostic App) (hF : ∀ a, (F a).map App.unframed = F a.unframed) :
    (∃ d, F s.app = .error d ∧ F t.app = .error d) ∨
      ∃ a b, F s.app = .ok a ∧ F t.app = .ok b ∧ a.unframed = b.unframed := by
  have happ : (F s.app).map App.unframed = (F t.app).map App.unframed := by
    rw [hF, hF, hs.app]
  generalize F s.app = x, F t.app = y at happ ⊢
  cases x <;> cases y <;> simp_all [Except.map]

theorem agree_setProperty (p : Property) (value : Data) (pos : Position) :
    (pairing known left right).Agree w (pairing known left right).Done
      (Run.setProperty p value pos) (Run.setProperty p value pos) := by
  intro s t hs
  rw [Run.setProperty, Run.setProperty]
  rcases hs.app_cases (·.setProperty p value pos) (fun _ => App.unframed_setProperty ..) with
    ⟨d, ha, hb⟩ | ⟨a, b, ha, hb, hab⟩
  · rw [ha, hb]
    exact .error le_rfl hs ⟨rfl, nofun⟩
  · rw [ha, hb]
    refine .ok le_rfl { hs with app := hab, trace := ?_ } trivial
    rw [Array.map_push, Array.map_push, hs.trace]

theorem agree_openBody (style : String) (pos : Position) :
    (pairing known left right).Agree w (fun _ => (· = ·)) (Run.openBody style pos)
      (Run.openBody style pos) := by
  intro s t hs
  have hid : s.app.nextSection = t.app.nextSection := by
    rw [← App.nextSection_unframed, hs.app, App.nextSection_unframed]
  rw [Run.openBody, Run.openBody]
  rcases hs.app_cases (·.openBody style pos) (fun _ => App.unframed_openBody ..) with
    ⟨d, ha, hb⟩ | ⟨a, b, ha, hb, hab⟩
  · rw [ha, hb]
    exact .error le_rfl hs ⟨rfl, nofun⟩
  · rw [ha, hb]
    exact .ok le_rfl { hs with app := hab } hid

theorem agree_note {e e' : Event} (h : e.unframed = e'.unframed) :
    (pairing known left right).Agree w (pairing known left right).Done
      (Run.note e) (Run.note e') := by
  intro s t hs
  refine .ok le_rfl { hs with trace := ?_ } trivial
  change (s.trace.push e).map Event.unframed = (t.trace.push e').map Event.unframed
  rw [Array.map_push, Array.map_push, hs.trace, h]

theorem agree_freshId :
    (pairing known left right).Agree w (fun _ => (· = ·)) Run.freshId Run.freshId :=
  fun _ _ hs => .ok le_rfl { hs with nextId := congrArg (· + 1) hs.nextId } hs.nextId

/-- Capturing a scope leads to a world in which it is captured. -/
theorem agree_capture (hscope : w.Scope layers i j) :
    (pairing known left right).Agree w (fun w' _ _ => w'.Captured layers i j) (Run.capture i)
      (Run.capture j) := by
  intro s t hs
  obtain ⟨u, hu, rfl, rfl⟩ := hscope
  have hgrows : u.Grows { u with captured := true } := ⟨rfl, rfl, rfl, fun _ => rfl⟩
  have harena : Arenas known (w.set i { u with captured := true }) (s.arena.capture i)
      (t.arena.capture u.twin) :=
    hs.arena.modify hu rfl rfl (fun _ => rfl) fun f g h => { h with captured := rfl }
  -- a frame that is captured is never garbage
  have hsettled : (w.set i { u with captured := true }).Settled := by
    intro v hv
    rw [slot?_set hu, size_set] at hv
    split at hv
    · obtain rfl := Option.some.inj hv
      rw [Slot.isGarbage, Bool.not_true, Bool.and_false]
    · exact hs.settled v hv
  rw [Run.capture, Run.capture, if_pos (hs.arena.lt_size hu), if_pos (hs.arena.twin_lt_size hu)]
  refine .ok (le_set hu hgrows) { hs with arena := harena, settled := hsettled } ?_
  exact ⟨{ u with captured := true }, by rw [slot?_set hu, if_pos rfl], rfl, rfl, rfl⟩

/-- A scope opened on both sides. -/
theorem Sessions.opened {p q : Option Nat} {s t : Session} (hs : Sessions known w s t)
    (hparents : Parents w w.size layers p q) :
    Sessions known (w.push ⟨t.arena.size, layers, false, false⟩)
      { s with arena := s.arena.allocate p } { t with arena := t.arena.allocate q } := by
  refine { hs with arena := hs.arena.allocate hparents, settled := ?_ }
  intro u hu
  rw [slot?_push, size_push, Nat.add_sub_cancel, if_pos rfl] at hu
  obtain rfl := Option.some.inj hu
  rfl

theorem scope_push {m : Nat} {s t : Session} (hs : Sessions known w s t) :
    (w.push ⟨m, layers, false, false⟩).Scope layers s.arena.size m :=
  ⟨_, by rw [slot?_push, if_pos hs.arena.size], rfl, rfl⟩

/-- A scope that is left is there on both sides. What goes with it was not there before, and no
function refers to it. -/
theorem Sessions.close {l : Layer} {n m : Nat} {s t : Session} (hs : Sessions known w' s t)
    (heager : left.reclamation = .eager) (hnever : right.reclamation = .never)
    (hsettled : w.Settled) (hscope : w.Scope layers i j) (hn : n = w.size)
    (hw : w.push ⟨m, l :: layers, false, false⟩ ≤ w') :
    Run.closeScope left n s = .ok () (s.closed left n) ∧
      Run.closeScope right m t = .ok () (t.closed right m) ∧
      ∃ w'', w ≤ w'' ∧ Sessions known w'' (s.closed left n) (t.closed right m) ∧
        ∀ layers i j, w'.Captured layers i j → w''.Captured layers i j := by
  obtain ⟨u, hu, hgrows⟩ := hw n _ (by rw [slot?_push, if_pos hn])
  obtain rfl : u.twin = m := hgrows.twin
  refine ⟨Run.closeScope_eq (hs.arena.lt_size hu), Run.closeScope_eq (hs.arena.twin_lt_size hu), ?_⟩
  -- both runs mark the frame; only the left one then reclaims
  have hmarked : Arenas known (w'.set n { u with released := true })
      (s.arena.modify n ({ · with released := true }))
      (t.arena.modify u.twin ({ · with released := true })) :=
    hs.arena.modify hu rfl rfl id fun f g h => { h with released := rfl }
  have hclose : s.closed left n = { s with
      arena := (s.arena.modify n ({ · with released := true })).reclaim } := by
    rw [Session.closed, heager]
    rfl
  have hclose' : t.closed right u.twin = { t with
      arena := t.arena.modify u.twin ({ · with released := true }) } := by
    rw [Session.closed, hnever]
    rfl
  rw [hclose, hclose']
  generalize s.arena.modify n _ = a at hmarked ⊢
  have hold : w ≤ w'.set n { u with released := true } :=
    le_set_of_le (le_push.trans hw) hu hn.ge
  obtain ⟨hkept, hbase⟩ := hmarked.size_le_reclaim hsettled hscope hold
  have hreclaim := hmarked.reclaim hbase
  refine ⟨_, le_take hold hkept, { hs with arena := hreclaim, settled := ?_ }, ?_⟩
  · intro x hx
    obtain ⟨f, g, hf, -, hmatches⟩ := hreclaim.frames hx
    rw [← hmatches.isGarbage_eq]
    rw [← hreclaim.size] at hf
    exact Arena.not_isGarbage_of_reclaim hf
  · intro layers i j hcaptured
    exact hmarked.captured_take (hcaptured.set hu rfl rfl id)

theorem agree_inScope (heager : left.reclamation = .eager) (hnever : right.reclamation = .never)
    {x y : Nat → Run Completion} (l : Layer) (hscope : w.Scope layers i j)
    (h : ∀ w' i' j', w ≤ w' → w'.Scope (l :: layers) i' j' →
      (pairing known left right).Agree w' (pairing known left right).Completions (x i') (y j')) :
    (pairing known left right).Agree w (pairing known left right).Completions
      (Run.inScope left i x) (Run.inScope right j y) := by
  intro s t hs
  have hends := h _ s.arena.size t.arena.size le_push (scope_push hs) _ _
    (hs.opened (.inner l hscope.lt hscope))
  -- the scope is left whether its statements succeed or fail
  change (pairing known left right).Ends w _
    (Run.closing (x s.arena.size) (Run.closeScope left s.arena.size) _)
    (Run.closing (y t.arena.size) (Run.closeScope right t.arena.size) _)
  rw [Run.closing, Run.closing]
  generalize x s.arena.size _ = r, y t.arena.size _ = r' at hends
  cases hends with
  | ok hw hs' hc =>
    obtain ⟨hleft, hright, w'', hw'', hclosed, hcaptured⟩ :=
      hs'.close heager hnever hs.settled hscope hs.arena.size hw
    dsimp only
    rw [hleft, hright]
    exact .ok hw'' hclosed (hc.mono hcaptured)
  | error hw hs' hf =>
    obtain ⟨hleft, hright, w'', hw'', hclosed, -⟩ :=
      hs'.close heager hnever hs.settled hscope hs.arena.size hw
    dsimp only
    rw [hleft, hright]
    exact .error hw'' hclosed hf

theorem agree_declareFunction (hknown : KnowsParts known) {parameters : List String} {b : Block}
    (hscope : w.Scope layers i j) (hfunc : known layers (.stmt (.func pos name parameters b))) :
    (pairing known left right).Agree w (pairing known left right).Completions
      (Run.declareFunction i pos name parameters b)
      (Run.declareFunction j pos name parameters b) := by
  apply agree_freshId.bind
  intro w₁ id _ hw₁ hid
  subst hid
  apply (agree_capture (hscope.mono hw₁)).bind
  intro w₂ _ _ hw₂ hcaptured
  have hclosure : (likeness known).Closures w₂ ⟨id, name, parameters, b, i, pos⟩
      ⟨id, name, parameters, b, j, pos⟩ := by
    refine ⟨rfl, rfl, rfl, .refl b, rfl, layers, hcaptured, fun s hs => ?_⟩
    exact hknown.stmt hfunc (List.Subset.refl _) hs
  have hname := hknown.declares hfunc (List.mem_singleton_self name)
  refine (agree_define .func (hcaptured.scope) hname (.closure hclosure)).bind fun _ _ _ _ _ => ?_
  exact .pure .normal

end Actions

/-- Elementary actions keep an eager run and one that never reclaims together. -/
theorem lawful_pairing {left right : Context} (hknown : KnowsParts known)
    (hsettings : left.settings = right.settings) (hpatience : left.patience = right.patience)
    (heager : left.reclamation = .eager) (hnever : right.reclamation = .never) :
    (pairing known left right).Lawful where
  patience := hpatience
  defaultWebVersion := congrArg (·.defaultWebVersion) hsettings
  ident_iff := by
    rintro a a' b b' rfl rfl
    exact Iff.rfl
  knowsParts := hknown
  captured_mono := .mono
  scope_mono := .mono
  scope_of_captured := Captured.scope
  rejected {p q} trouble message _ hp := by
    obtain rfl : p = q := hp
    exact ⟨rfl, nofun⟩
  fault f := ⟨rfl, nofun⟩
  nestedTooDeeply := ⟨rfl, nofun⟩
  outOfPatience := ⟨rfl, nofun⟩
  inBody_eq hs := congrArg Option.isSome hs.active
  activate hn hs := { hs with active := congrArg some hn }
  restore hs hs' := { hs' with active := hs.active }
  exitCall hs := { hs with meter := congrArg Meter.exit hs.meter }
  enterCall {w p q} name hp := by
    obtain rfl : p = q := hp
    change (pairing known left right).Agree w _ (Run.enterCall left name p)
      (Run.enterCall right name p)
    rw [Run.enterCall, Run.enterCall, hsettings]
    exact agree_meter (·.enter name) (·.checkDepth right.settings.toLimits p)
  step {w p q} hp := by
    obtain rfl : p = q := hp
    change (pairing known left right).Agree w _ (Run.step left p) (Run.step right p)
    rw [Run.step, Run.step, hsettings]
    exact agree_meter Meter.step (·.checkSteps right.settings.toLimits p)
  visit hscope hn _ := agree_visit hscope hn
  define {_ _ _ _ p q _ _ _} kind hscope hname hp hv := by
    obtain rfl : p = q := hp
    exact agree_define kind hscope hname hv
  lookup {_ _ _ _ p q} name hscope hp := by
    obtain rfl : p = q := hp
    exact agree_lookup name p hscope
  assign {_ _ _ _ p q _ _} name hscope hp hv := by
    obtain rfl : p = q := hp
    exact agree_assign name p hscope hv
  isBound name hscope := agree_isBound name hscope
  declareFunction {_ _ _ _ p q _ _ b b'} hscope hfunc hp hb := by
    obtain rfl : p = q := hp
    obtain rfl : b = b' := hb.eq Leeway.rigid_exact
    exact agree_declareFunction hknown hscope hfunc
  inScope l hscope h := agree_inScope heager hnever l hscope h
  printed {w p q} text hp := by
    obtain rfl : p = q := hp
    exact agree_note rfl
  emit hv := agree_emit hv
  setProperty {w p q} kind value hp := by
    obtain rfl : p = q := hp
    exact agree_setProperty kind value p
  openBody {w p q} style hp := by
    obtain rfl : p = q := hp
    exact agree_openBody style p

/-! ## Whole runs -/

section Runs

variable {left right : Context}

theorem agree_openScope {p q : Option Nat} (hparents : Parents w w.size layers p q) :
    (pairing known left right).Agree w (fun w' i j => w'.Scope layers i j) (Run.openScope p)
      (Run.openScope q) :=
  fun _ _ hs => .ok le_push (hs.opened hparents) (scope_push hs)

theorem agree_install {name : String} (action : Action) (hscope : w.Scope layers i j)
    (hname : Layer.DeclaredIn layers name) :
    (pairing known left right).Agree w (pairing known left right).Done
      (Run.install i name action) (Run.install j name action) := by
  apply agree_freshId.bind
  intro w' id _ hw hid
  subst hid
  exact agree_define .builtin (hscope.mono hw) hname (.builtin name action rfl)

/-- A program is started with the builtin functions in the outermost layer. -/
theorem agree_start (hR : (pairing known left right).Lawful) (allowance : Nat) {p : Program}
    (hp : known p.layers (.program p)) :
    (pairing known left right).Agree w (pairing known left right).Done
      (Run.start left allowance p) (Run.start right allowance p) := by
  apply (agree_openScope (.root .builtins)).bind
  intro w₁ i j _ hroot
  apply (agree_install .print hroot ⟨_, rfl, by decide⟩).bind
  intro w₂ _ _ hw₂ _
  replace hroot := hroot.mono hw₂
  apply (agree_install .len hroot ⟨_, rfl, by decide⟩).bind
  intro w₃ _ _ hw₃ _
  replace hroot := hroot.mono hw₃
  apply (agree_openScope (.inner (.program p.body) hroot.lt hroot)).bind
  intro w₄ k l _ hscope
  exact hR.agree_program allowance hscope hp (.refl p)

/-- Before a run, a session belongs together with itself: none of its frames has a slot. -/
theorem sessions_self (s : Session) (hvisits : s.visits = #[]) :
    Sessions known ⟨s.arena.size, []⟩ s s where
  arena := {
    size := rfl
    frames := fun h => by simp [slot?] at h
    ordered := fun _ h => by simp [slot?] at h }
  settled s h := by simp [slot?] at h
  app := rfl
  meter := rfl
  active := rfl
  nextId := rfl
  trace := rfl
  visits v hv := by simp [hvisits] at hv

end Runs

end Twins

/-- An eager run and one that never reclaims go together from the start. -/
theorem Twins.ends_start (left right : Context) (hsettings : left.settings = right.settings)
    (hpatience : left.patience = right.patience) (heager : left.reclamation = .eager)
    (hnever : right.reclamation = .never) (allowance : Nat) (p : Program) (s : Session)
    (hvisits : s.visits = #[]) :
    (pairing (Occurs p) left right).Ends ⟨s.arena.size, []⟩ (pairing (Occurs p) left right).Done
      (Run.start left allowance p s) (Run.start right allowance p s) :=
  agree_start (lawful_pairing (Occurs.knowsParts p) hsettings hpatience heager hnever) allowance
    Occurs.root s s (sessions_self s hvisits)

/-- An eager run and one that never reclaims end alike, in sessions that belong together. -/
theorem Session.run_together (left right : Context) (hsettings : left.settings = right.settings)
    (hpatience : left.patience = right.patience) (heager : left.reclamation = .eager)
    (hnever : right.reclamation = .never) (allowance : Nat) (path : String) (p : Program)
    (s : Session) :
    (Session.run left allowance path p s).1 = (Session.run right allowance path p s).1 ∧
      ∃ w, Twins.Sessions (Occurs p) w (Session.run left allowance path p s).2
        (Session.run right allowance path p s).2 := by
  have hends := Twins.ends_start left right hsettings hpatience heager hnever allowance p
    { s with trace := #[], visits := #[] } rfl
  rw [Session.run, Session.run]
  generalize Run.start left allowance p _ = r, Run.start right allowance p _ = r' at hends
  cases hends with
  | ok _ hs _ => exact ⟨rfl, _, hs⟩
  | error _ hs hf =>
    exact ⟨congrArg (fun e => some (RunFailure.inFile path e)) hf.1, _, hs⟩

/-- No run uses a frame that is not in the arena, whether frames are reclaimed or not. -/
theorem Run.start_not_dangling (cx : Context) (allowance : Nat) (p : Program) {s t : Session}
    (hvisits : s.visits = #[]) : Run.start cx allowance p s ≠ .error .dangling t := by
  intro h
  cases hreclamation : cx.reclamation with
  | eager =>
    have hends := Twins.ends_start cx { cx with reclamation := .never } rfl rfl hreclamation rfl
      allowance p s hvisits
    rw [h] at hends
    generalize Run.start _ _ _ _ = r at hends
    cases hends with
    | error _ _ hf => exact hf.2 rfl
  | never =>
    have hends := Twins.ends_start { cx with reclamation := .eager } cx rfl rfl rfl hreclamation
      allowance p s hvisits
    rw [h] at hends
    generalize Run.start _ _ _ _ = r at hends
    cases hends with
    | error _ _ hf => exact hf.2 hf.1

/-- What was printed does not depend on indices of frames. -/
theorem Session.output_congr {s t : Session}
    (h : s.trace.map Event.unframed = t.trace.map Event.unframed) : s.output = t.output := by
  have htext : ∀ e : Event, e.unframed.text = e.text := fun e => by cases e <;> rfl
  have hunframed : ∀ s : Session,
      s.output = String.join ((s.trace.map Event.unframed).toList.map Event.text) := by
    intro s
    rw [output, Array.toList_map, List.map_map]
    exact congrArg String.join (List.map_congr_left fun e _ => (htext e).symm)
  rw [hunframed s, hunframed t, h]

/-- An application as plain data does not depend on indices of frames. -/
theorem App.toData_unframed (a : App) : a.unframed.toData = a.toData := by
  have hvalue : ∀ v : Value, v.unframed.toData = v.toData := fun v => by cases v <;> rfl
  cases h : a.body with
  | none => simp [toData, unframed, h]
  | some s => simp [toData, unframed, h, sectionData, Function.comp_def, hvalue]

/-- Reclamation cannot be observed. For every program, every configuration and allowance and every
session that it starts from, a run that reclaims frames eagerly and one that never does fail alike or
succeed both, print the same, describe the same application and leave the same counters. -/
theorem Session.run_reclamation (cx : Context) (allowance : Nat) (path : String) (p : Program)
    (s : Session) :
    let eager := Session.run { cx with reclamation := .eager } allowance path p s
    let never := Session.run { cx with reclamation := .never } allowance path p s
    eager.1 = never.1 ∧ eager.2.output = never.2.output ∧
      eager.2.app.unframed = never.2.app.unframed ∧ eager.2.app.toData = never.2.app.toData ∧
      eager.2.meter = never.2.meter := by
  intro eager never
  obtain ⟨hfailure, w, hs⟩ : eager.1 = never.1 ∧ ∃ w, Twins.Sessions (Occurs p) w eager.2 never.2 :=
    Session.run_together { cx with reclamation := .eager } { cx with reclamation := .never } rfl rfl
      rfl rfl allowance path p s
  refine ⟨hfailure, Session.output_congr hs.trace, hs.app, ?_, hs.meter⟩
  rw [← App.toData_unframed, hs.app, App.toData_unframed]

end MiniApp
