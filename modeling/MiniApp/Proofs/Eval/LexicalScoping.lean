import Mathlib
import MiniApp.Proofs.Eval.Reclamation
import MiniApp.Proofs.Grammar.Extents

/-!
# Lexical scoping

Whenever a run comes to a node, the chain of frames from the present scope on has exactly one frame
for each layer that the node lies in, innermost first, and in each frame only names that its layer
declares. Which frames these are is decided by the syntax tree alone: a function is executed inside
the frames of its declaration, wherever it is called from. So every name is resolved to a declaration
in an enclosing layer, and what a caller declares is not visible in the function that it calls.

## Main results

* `Session.run_recording`: recording does not change a run
* `Session.run_lexicalScoping`: every visit of a run is lexically scoped
-/

namespace MiniApp

/-- A name that is resolved from a scoped visit is declared by one of the layers. -/
theorem Visit.Scoped.declares {v : Visit} {layers : List Layer} (h : v.Scoped layers)
    {name : String} {k : Nat} {b : Binding Value}
    (hfound : v.arena.locate v.scope name = .bound k b) : ∃ l ∈ layers, name ∈ l.declares := by
  obtain ⟨frames, hchain, hwithin⟩ := h
  obtain ⟨f, hf, hb⟩ := Arena.mem_chainFrom?_of_locateFrom hchain hfound
  obtain ⟨l, hl, hfl⟩ : ∃ l ∈ layers, f.Within l := by
    clear hchain hfound
    induction hwithin with
    | nil => cases hf
    | cons h _ ih =>
      rcases List.mem_cons.mp hf with rfl | hf
      · exact ⟨_, List.mem_cons_self, h⟩
      · obtain ⟨l, hl, hfl⟩ := ih hf
        exact ⟨l, List.mem_cons_of_mem _ hl, hfl⟩
  exact ⟨l, hl, hfl name (Frame.mem_names_of_find? hb)⟩

namespace Session

/-- Recording does not change a run: with or without it, a run ends alike, prints the same, describes
the same application and leaves the same counters. -/
theorem run_recording (cx : Context) (allowance : Nat) (path : String) (p : Program)
    (s : Session) :
    let plain := Session.run { cx with reclamation := .eager, recording := false } allowance path p s
    let recorded :=
      Session.run { cx with reclamation := .eager, recording := true } allowance path p s
    plain.1 = recorded.1 ∧ plain.2.output = recorded.2.output ∧
      plain.2.app.unframed = recorded.2.app.unframed ∧ plain.2.meter = recorded.2.meter := by
  intro plain recorded
  -- both are compared with a run that never reclaims
  obtain ⟨hplain, w, hs⟩ := run_together { cx with reclamation := .eager, recording := false }
    { cx with reclamation := .never } rfl rfl rfl rfl allowance path p s
  obtain ⟨hrecorded, w', hs'⟩ := run_together { cx with reclamation := .eager, recording := true }
    { cx with reclamation := .never } rfl rfl rfl rfl allowance path p s
  exact ⟨hplain.trans hrecorded.symm, output_congr (hs.trace.trans hs'.trace.symm),
    hs.app.trans hs'.app.symm, hs.meter.trans hs'.meter.symm⟩

/-- Lexical scoping. Whenever a run of a parsed program comes to a node, the node lies in exactly one
list of layers of the program. The chain of frames has one frame for each of them, innermost first,
and in each frame only names which that layer declares. Hence a name that is resolved there is
declared in a layer that encloses the node. -/
theorem run_lexicalScoping (cx : Context) (nesting allowance : Nat) (path source : String)
    (p : Program) (hparse : Program.parseWithin nesting path source = .ok p) (s : Session) :
    let ran := Session.run { cx with reclamation := .eager, recording := true } allowance path p s
    ∀ v ∈ ran.2.visits, ∃ layers, Occurs p layers v.node ∧
      (∀ layers', Occurs p layers' v.node → layers' = layers) ∧
      (∃ frames, v.arena.chain? v.scope = some frames ∧
        List.Forall₂ (fun f l => ∀ name ∈ Frame.names f, name ∈ Layer.declares l) frames layers) ∧
      ∀ name k b, v.arena.locate v.scope name = .bound k b → ∃ l ∈ layers, name ∈ l.declares := by
  intro ran v hv
  obtain ⟨-, w, hs⟩ := run_together { cx with reclamation := .eager, recording := true }
    { cx with reclamation := .never } rfl rfl rfl rfl allowance path p s
  obtain ⟨layers, hoccurs, hscoped⟩ := hs.visits v hv
  refine ⟨layers, hoccurs, fun layers' h => h.unique hparse hoccurs, hscoped, ?_⟩
  intro name k b hfound
  exact hscoped.declares hfound

/-- Lexical scoping of a function that is called from a block: eleven nodes are visited. -/
theorem run_lexicalScoping_call :
    let cx : Context := { settings := {}, patience := 5 }
    ∃ p, Program.parseWithin 60 "" "func f(x) { return x; } { let y = 1; f(y); }" = .ok p ∧
      let ran := Session.run { cx with reclamation := .eager, recording := true } 20 "" p {}
      ran.2.visits.size = 11 ∧
      ∀ v ∈ ran.2.visits, ∃ layers, Occurs p layers v.node ∧
        (∀ layers', Occurs p layers' v.node → layers' = layers) ∧
        (∃ frames, v.arena.chain? v.scope = some frames ∧
          List.Forall₂ (fun f l => ∀ name ∈ Frame.names f, name ∈ Layer.declares l) frames layers) ∧
        ∀ name k b, v.arena.locate v.scope name = .bound k b →
          ∃ l ∈ layers, name ∈ l.declares := by
  intro cx
  obtain ⟨p, hparse, hsize⟩ : ∃ p,
      Program.parseWithin 60 "" "func f(x) { return x; } { let y = 1; f(y); }" = .ok p ∧
      (Session.run { cx with reclamation := .eager, recording := true } 20 "" p {}).2.visits.size =
        11 := by
    refine ⟨⟨⟨1, 1⟩, [.func ⟨1, 1⟩ "f" ["x"]
        (.mk ⟨1, 11⟩ [.return ⟨1, 13⟩ (some (.ident ⟨1, 20⟩ "x"))]),
      .block (.mk ⟨1, 25⟩ [.declare ⟨1, 27⟩ .let "y" (some (.number ⟨1, 35⟩ (.int 1) "1")),
        .expr ⟨1, 38⟩ (.call ⟨1, 38⟩ (.ident ⟨1, 38⟩ "f") [.ident ⟨1, 40⟩ "y"])])]⟩, ?_, ?_⟩
    · cbv
    · cbv
  exact ⟨p, hparse, hsize, run_lexicalScoping cx 60 20 "" _ p hparse {}⟩

end Session

end MiniApp
