import Mathlib
import MiniApp.Proofs.Eval.Recount

/-!
# Jumps are checked exactly

A jump is taken by the innermost loop around it in the same function, and refused if there is none.
Which of the two happens is found out late: a jump travels outward through blocks, conditionals and
body sections until it meets a loop, the end of the function or the end of the program. It is settled
by the text nevertheless. A run fails for a jump if and only if it has executed a *stray* one, which
lies in the body of no loop of its function, and the failure names its place.

## Main definitions

* `Entry.stray?`: jumps that lie in no loop
* `Session.JumpsChecked`: how a run deals with its jumps

## Main results

* `Session.Recounts.strays`: an account tells of at most one stray jump, with which it ends
* `Session.run_jumps`: runs deal with jumps as they should
-/

namespace MiniApp

/-- The jump that has been executed, if it lies in the body of no loop of its function. -/
def Entry.stray? (m : Entry) : Option (String × Position) :=
  if m.around.inLoop then none else m.deed.jump?

/-- A stray jump is a statement that has been executed outside of the loops of its function. -/
theorem Entry.stray?_eq_some {m : Entry} {keyword : String} {pos : Position} :
    m.stray? = some (keyword, pos) ↔ m.around.inLoop = false ∧
      ∃ stmt, m.deed = .executed stmt ∧ stmt.jump? = some (keyword, pos) := by
  obtain ⟨deed, around, session⟩ := m
  cases deed with
  | executed stmt => cases h : around.inLoop <;> simp [stray?, Deed.jump?, Deed.stmt?, h]
  | evaluated e v => simp [stray?, Deed.jump?, Deed.stmt?]

/-- What an ending says of the stray jumps before it: there was none, or one, with which the part of
the run has ended. Whether a jump that is still on its way is a stray one depends on the loop around
it. -/
def Ending.Blames (inLoop : Bool) (strays : List (String × Position)) : Ending → Prop
  | .done | .owing _ => strays = []
  | .jumped keyword pos => strays = if inLoop then [] else [(keyword, pos)]
  | .failed e => (¬ e.HasTrouble .controlFlow ∧ strays = []) ∨
      ∃ keyword pos, strays = [(keyword, pos)] ∧ e = .rejected (Run.strayJump keyword pos)

/-- What has ended with or without a failure, but not in a jump, has ended with a failure for any
stray jump there was. -/
theorem Ending.Blames.eq_of_mem {inLoop : Bool} {strays : List (String × Position)}
    {f : Option RunFailure} {keyword : String} {pos : Position}
    (h : Ending.Blames inLoop strays (f.elim .done .failed)) (hmem : (keyword, pos) ∈ strays) :
    f = some (.rejected (Run.strayJump keyword pos)) := by
  cases f with
  | none =>
    obtain rfl : strays = [] := h
    cases hmem
  | some e =>
    rcases h with ⟨-, rfl⟩ | ⟨keyword', pos', rfl, rfl⟩
    · cases hmem
    · obtain ⟨rfl, rfl⟩ := Prod.mk.inj (List.mem_singleton.mp hmem)
      rfl

/-- A failure for a jump is one for a stray jump. -/
theorem Ending.Blames.exists_mem {inLoop : Bool} {strays : List (String × Position)}
    {e : RunFailure} (h : Ending.Blames inLoop strays (.failed e))
    (he : e.HasTrouble .controlFlow) : ∃ keyword pos, (keyword, pos) ∈ strays := by
  rcases h with ⟨hne, -⟩ | ⟨keyword, pos, rfl, -⟩
  · exact absurd he hne
  · exact ⟨keyword, pos, List.mem_singleton_self _⟩

namespace Session

variable {cx : Context} {p : Program} {a : Surroundings} {s t : Session} {l : List Entry}
variable {f : Ending}

/-- An account tells of at most one stray jump, with which it ends. -/
theorem Recounts.strays (h : s.Recounts cx p a l f t) :
    f.Blames a.inLoop (l.filterMap Entry.stray?) := by
  induction h with
  | quiet _ | emitted _ | written _ _ _ => exact rfl
  | failed _ he => exact .inl ⟨he, rfl⟩
  | @trans a s t u l l' f _ _ ih ih' =>
    have hnone : l.filterMap Entry.stray? = [] := ih
    rw [List.filterMap_append, hnone, List.nil_append]
    exact ih'
  | leave _ _ ih | content _ _ _ ih => exact ih
  -- in the body of a loop no jump is a stray one, behind a call every jump is
  | @round a s t l f _ ih => cases f <;> exact ih
  | @call a s t l f _ ih =>
    cases f with
    | jumped keyword pos => exact .inr ⟨keyword, pos, ih, rfl⟩
    | done | owing _ | failed _ => exact ih
  | @told a s t l f deed _ _ hjump _ ih =>
    have hnone : (Entry.mk deed a t).stray? = none := by
      rw [Entry.stray?]
      split
      · rfl
      · exact hjump
    rw [List.filterMap_append, List.filterMap_cons_none hnone, List.filterMap_nil, List.append_nil]
    cases f <;> exact ih
  | @jumped a s stmt keyword pos hjump _ =>
    have hstray : (Entry.mk (.executed stmt) a s).stray? =
        if a.inLoop then none else some (keyword, pos) := by
      rw [Entry.stray?, ← hjump]
      rfl
    change List.filterMap _ _ = _
    cases hloop : a.inLoop with
    | true => rw [List.filterMap_cons_none (by rw [hstray, hloop]; rfl)]; rfl
    | false => rw [List.filterMap_cons_some (by rw [hstray, hloop]; rfl)]; rfl

/-- The statements that an account tells of are statements of the program, in the body of a loop or
not as their entries say. -/
theorem Recounts.contains (h : s.Recounts cx p a l f t) :
    ∀ m ∈ l, ∀ stmt ∈ m.deed.stmt?, p.Contains m.around.inLoop stmt := by
  induction h with
  | quiet _ | failed _ _ | emitted _ | written _ _ _ => exact fun _ hm => absurd hm List.not_mem_nil
  | trans _ _ ih ih' => exact fun m hm => (List.mem_append.mp hm).elim (ih m) (ih' m)
  | leave _ _ ih | content _ _ _ ih | round _ ih | call _ ih => exact ih
  | told _ _ _ hstmt ih =>
    intro m hm
    rcases List.mem_append.mp hm with hm | hm
    · exact ih m hm
    · obtain rfl := List.mem_singleton.mp hm
      exact hstmt
  | jumped _ hstmt =>
    intro m hm stmt h
    obtain rfl := List.mem_singleton.mp hm
    obtain rfl := Option.some.inj h
    exact hstmt

/-- How the run of a program deals with jumps. -/
structure JumpsChecked (cx : Context) (allowance : Nat) (path : String) (p : Program) (s : Session) :
    Prop where
  /-- The run fails for a jump if and only if it has executed one that lies in the body of no loop of
  its function, or of the program if it lies in no function. -/
  fails_iff : (∃ e ∈ (Session.run cx allowance path p s).1, e.HasTrouble .controlFlow) ↔
    ∃ m ∈ s.account cx allowance p, ∃ keyword pos, m.stray? = some (keyword, pos)
  /-- The failure is that of this jump, at its place. -/
  failure : ∀ m ∈ s.account cx allowance p, ∀ keyword pos, m.stray? = some (keyword, pos) →
    (Session.run cx allowance path p s).1 =
      some (RunFailure.inFile path (.rejected (Run.strayJump keyword pos)))
  /-- Whether a statement lies in the body of a loop is a matter of the text. -/
  lexical : ∀ m ∈ s.account cx allowance p, ∀ stmt, m.deed = .executed stmt →
    p.Contains m.around.inLoop stmt
  /-- A program all of whose jumps lie in bodies of loops never fails for a jump. -/
  safe : (∀ stmt, p.Contains false stmt → stmt.jump? = none) →
    ∀ e ∈ (Session.run cx allowance path p s).1, ¬ e.HasTrouble .controlFlow
  /-- No jump leaves a call. Whatever functions of the program an expression calls: if it has a value,
  every jump in them was taken by a loop of its own function. -/
  calls : ∀ {root scope : Nat} {a : Surroundings} {e : Expr} {t u : Session} {v : Value},
    t.inBody = a.inBody → t.arena.Knows p root → root ≤ scope →
    (Told.evaluate cx allowance a scope e).run t = .ok v u →
    ∀ m ∈ (Told.evaluate cx allowance a scope e).account t, m.stray? = none

/-- Jumps are checked exactly, in every run of any program between any runs of others. -/
theorem run_jumps (hs : AtRest cx s) (allowance : Nat) (path : String) (p : Program) :
    JumpsChecked cx allowance path p s := by
  obtain ⟨f, hrecounts, hresult⟩ := run_recounts cx allowance path p hs.inBody_eq
  -- at the end of a run no jump is on its way any more
  have hblames := hrecounts.strays
  have hfailure : ∀ m ∈ s.account cx allowance p, ∀ keyword pos,
      m.stray? = some (keyword, pos) → f = some (.rejected (Run.strayJump keyword pos)) :=
    fun m hm _ _ hstray => hblames.eq_of_mem (List.mem_filterMap.mpr ⟨m, hm, hstray⟩)
  have hlexical : ∀ m ∈ s.account cx allowance p, ∀ stmt, m.deed = .executed stmt →
      p.Contains m.around.inLoop stmt := by
    intro m hm stmt hdeed
    exact hrecounts.contains m hm stmt (by rw [hdeed]; rfl)
  have hiff : (∃ e ∈ (Session.run cx allowance path p s).1, e.HasTrouble .controlFlow) ↔
      ∃ m ∈ s.account cx allowance p, ∃ keyword pos, m.stray? = some (keyword, pos) := by
    rw [hresult, RunFailure.exists_inFile]
    constructor
    · rintro ⟨e, rfl, htrouble⟩
      obtain ⟨keyword, pos, hmem⟩ := hblames.exists_mem htrouble
      obtain ⟨m, hm, hstray⟩ := List.mem_filterMap.mp hmem
      exact ⟨m, hm, keyword, pos, hstray⟩
    · rintro ⟨m, hm, keyword, pos, hstray⟩
      exact ⟨_, hfailure m hm keyword pos hstray, rfl⟩
  refine ⟨hiff, fun m hm keyword pos hstray => ?_, hlexical, fun hsafe e he htrouble => ?_, ?_⟩
  · rw [hresult, hfailure m hm keyword pos hstray]
    rfl
  · -- a stray jump would be one that the text has outside of loops
    obtain ⟨m, hm, keyword, pos, hstray⟩ := hiff.mp ⟨e, he, htrouble⟩
    obtain ⟨hloop, stmt, hdeed, hjump⟩ := Entry.stray?_eq_some.mp hstray
    rw [hsafe stmt (hloop ▸ hlexical m hm stmt hdeed)] at hjump
    cases hjump
  · intro root scope a e t u v ht hknows hscope hrun
    have hevaluates := (Told.execute_evaluate_faithful cx p root allowance).2 a
    have hrecounted := hevaluates scope e hscope t ht hknows
    rw [hrun] at hrecounted
    cases hrecounted with
    | ok h _ _ => exact List.filterMap_eq_nil_iff.mp h.strays

/-- A function that jumps, called in a loop: the loop does not take the jump. -/
theorem run_jumps_call :
    let cx : Context := { settings := {}, patience := 5 }
    ∃ p, AtRest cx {} ∧
      (Session.run cx 20 "" p {}).1 =
        some (.rejected (Run.strayJump "break" ⟨1, 12⟩)) ∧
      JumpsChecked cx 20 "" p {} := by
  intro cx
  obtain ⟨p, hresult⟩ : ∃ p, (Session.run cx 20 "" p {}).1 =
      some (.rejected (Run.strayJump "break" ⟨1, 12⟩)) :=
    ⟨⟨⟨1, 1⟩, [.func ⟨1, 1⟩ "f" [] (.mk ⟨1, 10⟩ [.break ⟨1, 12⟩]),
      .while ⟨2, 1⟩ (.bool ⟨2, 8⟩ true)
        (.mk ⟨2, 14⟩ [.expr ⟨2, 16⟩ (.call ⟨2, 16⟩ (.ident ⟨2, 16⟩ "f") [])])]⟩, by cbv⟩
  exact ⟨p, .fresh, hresult, run_jumps .fresh 20 "" p⟩

end Session

end MiniApp
