import MiniApp.Lint.Rules
import Mathlib.Data.List.Basic
import Mathlib.Tactic.Common

/-!
# The order of calls

Linting calls every line rule for every line and every file rule once. Which call is which is told
by its slot: the number of the line and the place of the rule in the list, or that place alone. The
calls are made in the order of their slots, line rules side by side from the first line to the last
and then the file rules, and what one call gives reaches the report without regard to the others: a
call that breaks down could as well have found nothing, were it not for its warning.

## Main definitions

* `Lint.Slot`, `Lint.Slot.Before`: which call of which rule, and the order of calls
* `Lint.Slot.Makes`: the call in a slot
* `Lint.schedule`: all calls with their slots
* `Lint.Slot.silence`: the rules with a call that finds nothing in place of another
* `Lint.contributions`: the findings in the calls of one rule

## Main results

* `Lint.pairwise_schedule`, `Lint.mem_schedule`: all calls, each once, in the order of their slots
* `Lint.schedule_silence`: a call can be replaced alone
* `Lint.checkAll_eq_contributions`: a rule finds on its own what its calls find
* `Lint.lint_schedule`: reports follow the schedule, and failures are isolated
-/

namespace MiniApp.Lint

/-- Which call of which rule: of a line rule for the line of a number, or of a file rule. The rules
are told apart by their places in the list. -/
inductive Slot where
  | line (number rule : Nat)
  | file (rule : Nat)
  deriving DecidableEq, Repr

namespace Slot

/-- The place of the rule. -/
def rule : Slot → Nat
  | .line _ i | .file i => i

/-- The order of calls: by lines, then by rules, and file rules last. -/
inductive Before : Slot → Slot → Prop
  | lines {m n i j : Nat} : m < n → Before (.line m i) (.line n j)
  | rules {n i j : Nat} : i < j → Before (.line n i) (.line n j)
  | lineFile {n i j : Nat} : Before (.line n i) (.file j)
  | files {i j : Nat} : i < j → Before (.file i) (.file j)

/-- `slot.Makes rules source c`: linting the text by the rules makes the call `c` in this slot. -/
inductive Makes (rules : List Rule) (source : String) : Slot → Call → Prop
  | line {i n : Nat} {r : Rule} {check : String → Nat → Outcome} {line : String} :
      rules[i]? = some r → r.check = .line check → (line, n) ∈ numberedLines source →
      Makes rules source (.line n i) ⟨r.id, check line n⟩
  | file {i : Nat} {r : Rule} {check : String → Outcome} :
      rules[i]? = some r → r.check = .file check →
      Makes rules source (.file i) ⟨r.id, check source⟩

end Slot

variable {rules : List Rule} {source : String} {slot : Slot} {c : Call} {r : Rule}

/-- What the rules of one kind give, each in its slot. -/
def outcomes (outcome? : Rule → Option Outcome) (place : Nat → Slot) (rules : List Rule) :
    List (Slot × Call) :=
  rules.zipIdx.filterMap fun (r, i) => (outcome? r).map fun o => (place i, ⟨r.id, o⟩)

/-- What a line rule gives for a line. -/
def Rule.lineOutcome? (r : Rule) (line : String) (number : Nat) : Option Outcome :=
  r.lineCheck?.map fun check => check line number

/-- What a file rule gives. -/
def Rule.fileOutcome? (r : Rule) (source : String) : Option Outcome :=
  r.fileCheck?.map fun check => check source

/-- All calls, in the order in which they are made, with their slots. -/
def schedule (rules : List Rule) (source : String) : List (Slot × Call) :=
  ((numberedLines source).flatMap fun e => outcomes (·.lineOutcome? e.1 e.2) (.line e.2) rules) ++
    outcomes (·.fileOutcome? source) .file rules

/-! ## All calls in the order of their slots -/

theorem lineOutcome?_eq_some_iff {line : String} {n : Nat} {o : Outcome} :
    r.lineOutcome? line n = some o ↔ ∃ check, r.check = .line check ∧ check line n = o := by
  rw [Rule.lineOutcome?, Rule.lineCheck?]
  cases r.check <;> simp

theorem fileOutcome?_eq_some_iff {o : Outcome} :
    r.fileOutcome? source = some o ↔ ∃ check, r.check = .file check ∧ check source = o := by
  rw [Rule.fileOutcome?, Rule.fileCheck?]
  cases r.check <;> simp

section Outcomes

variable {outcome? : Rule → Option Outcome} {place : Nat → Slot}

theorem map_outcomes (outcome? : Rule → Option Outcome) (place : Nat → Slot) (rules : List Rule) :
    (outcomes outcome? place rules).map (·.2) =
      rules.filterMap fun r => (outcome? r).map fun o => ⟨r.id, o⟩ := by
  have hrules : rules = rules.zipIdx.map Prod.fst := (List.zipIdx_map_fst 0 rules).symm
  rw [outcomes, List.map_filterMap]
  conv_rhs => rw [hrules, List.filterMap_map]
  simp [Function.comp_def]

theorem mem_outcomes : (slot, c) ∈ outcomes outcome? place rules ↔
    ∃ i r o, rules[i]? = some r ∧ outcome? r = some o ∧ slot = place i ∧ c = ⟨r.id, o⟩ := by
  simp only [outcomes, List.mem_filterMap, Option.map_eq_some_iff, Prod.exists, Prod.mk.injEq,
    List.mk_mem_zipIdx_iff_getElem?]
  constructor
  · rintro ⟨r, i, hi, o, ho, rfl, rfl⟩
    exact ⟨i, r, o, hi, ho, rfl, rfl⟩
  · rintro ⟨i, r, o, hi, ho, rfl, rfl⟩
    exact ⟨r, i, hi, o, ho, rfl, rfl⟩

/-- The places of a list grow. -/
theorem pairwise_zipIdx {α : Type} (l : List α) (k : Nat) :
    (l.zipIdx k).Pairwise fun x y => x.2 < y.2 := by
  have hplaces := List.pairwise_lt_range' (s := k) (n := l.length)
  rwa [← List.zipIdx_map_snd, List.pairwise_map] at hplaces

theorem pairwise_outcomes (hplace : ∀ i j, i < j → (place i).Before (place j)) (rules : List Rule) :
    (outcomes outcome? place rules).Pairwise fun a b => a.1.Before b.1 := by
  rw [outcomes, List.pairwise_filterMap]
  refine (pairwise_zipIdx rules 0).imp fun {x y} hxy a ha b hb => ?_
  obtain ⟨-, -, rfl⟩ := Option.map_eq_some_iff.mp ha
  obtain ⟨-, -, rfl⟩ := Option.map_eq_some_iff.mp hb
  exact hplace _ _ hxy

end Outcomes

/-- The schedule says of each call that is made in which slot it is made. -/
theorem map_schedule (rules : List Rule) (source : String) :
    (schedule rules source).map (·.2) = calls rules source := by
  rw [schedule, calls, List.map_append, List.map_flatMap, map_outcomes]
  simp only [map_outcomes, Rule.lineOutcome?, Rule.fileOutcome?, Option.map_map, Function.comp_def]
  rfl

/-- The schedule holds the calls that are made, and no others. -/
theorem mem_schedule : (slot, c) ∈ schedule rules source ↔ slot.Makes rules source c := by
  simp only [schedule, List.mem_append, List.mem_flatMap, Prod.exists, mem_outcomes,
    lineOutcome?_eq_some_iff, fileOutcome?_eq_some_iff]
  constructor
  · rintro (⟨_, n, hline, i, _, _, hi, ⟨_, hcheck, rfl⟩, rfl, rfl⟩ |
      ⟨i, _, _, hi, ⟨_, hcheck, rfl⟩, rfl, rfl⟩)
    · exact .line hi hcheck hline
    · exact .file hi hcheck
  · rintro (⟨hi, hcheck, hline⟩ | ⟨hi, hcheck⟩)
    · exact .inl ⟨_, _, hline, _, _, _, hi, ⟨_, hcheck, rfl⟩, rfl, rfl⟩
    · exact .inr ⟨_, _, _, hi, ⟨_, hcheck, rfl⟩, rfl, rfl⟩

/-- Calls are made in the order of their slots. -/
theorem pairwise_schedule (rules : List Rule) (source : String) :
    (schedule rules source).Pairwise fun a b => a.1.Before b.1 := by
  rw [schedule, List.pairwise_append, List.pairwise_flatMap]
  refine ⟨⟨fun _ _ => pairwise_outcomes (fun _ _ => .rules) rules,
    (pairwise_zipIdx _ 1).imp ?_⟩, pairwise_outcomes (fun _ _ => .files) rules, ?_⟩
  · rintro x y hxy ⟨slot, c⟩ h ⟨slot', c'⟩ h'
    obtain ⟨i, -, -, -, -, rfl, -⟩ := mem_outcomes.mp h
    obtain ⟨j, -, -, -, -, rfl, -⟩ := mem_outcomes.mp h'
    exact .lines hxy
  · rintro ⟨slot, c⟩ h ⟨slot', c'⟩ h'
    obtain ⟨e, -, h⟩ := List.mem_flatMap.mp h
    obtain ⟨i, -, -, -, -, rfl, -⟩ := mem_outcomes.mp h
    obtain ⟨j, -, -, -, -, rfl, -⟩ := mem_outcomes.mp h'
    exact .lineFile

/-- No slot is before itself. -/
theorem Slot.Before.ne {a b : Slot} (h : a.Before b) : a ≠ b := by
  rintro rfl
  cases h with
  | lines h | rules h | files h => exact absurd h (Nat.lt_irrefl _)

/-! ## A call replaced alone -/

namespace Slot

/-- A check that finds nothing in the call of this slot, and does as before in all others. -/
def silenceCheck : Slot → Check → Check
  | .line n _, .line check => .line fun line m => if m = n then .ok [] else check line m
  | .file _, .file _ => .file fun _ => .ok []
  | _, check => check

/-- The rules with a call that finds nothing in this slot. -/
def silence (slot : Slot) (rules : List Rule) : List Rule :=
  rules.modify slot.rule fun r => { r with check := slot.silenceCheck r.check }

/-- The call with nothing found in this slot, and any other call as it is. -/
def quiet (slot : Slot) (e : Slot × Call) : Slot × Call :=
  if e.1 = slot then (slot, ⟨e.2.rule, .ok []⟩) else e

theorem quiet_of_ne {e : Slot × Call} (h : e.1 ≠ slot) : slot.quiet e = e := if_neg h

end Slot

theorem zipIdx_modify {α : Type} (l : List α) (i : Nat) (f : α → α) :
    (l.modify i f).zipIdx = l.zipIdx.map fun (a, j) => (if i = j then f a else a, j) := by
  refine List.ext_getElem? fun j => ?_
  simp only [List.getElem?_zipIdx, List.getElem?_map, List.getElem?_modify, Nat.zero_add]
  cases l[j]? with
  | none => rfl
  | some a => by_cases h : i = j <;> simp [h]

/-- Nothing but the call in the slot is replaced, if what a rule gives is replaced in its slot. -/
theorem outcomes_silence {outcome? : Rule → Option Outcome} {place : Nat → Slot}
    (hplace : ∀ i, place i = slot → i = slot.rule)
    (hrule : ∀ r : Rule, outcome? { r with check := slot.silenceCheck r.check } =
      if place slot.rule = slot then (outcome? r).map fun _ => .ok [] else outcome? r)
    (rules : List Rule) :
    outcomes outcome? place (slot.silence rules) =
      (outcomes outcome? place rules).map slot.quiet := by
  rw [outcomes, Slot.silence, zipIdx_modify, List.filterMap_map, outcomes, List.map_filterMap]
  refine List.filterMap_congr fun (r, j) _ => ?_
  by_cases hj : slot.rule = j
  · subst hj
    simp only [Function.comp_apply, if_true, hrule]
    by_cases hslot : place slot.rule = slot <;> simp [hslot, Slot.quiet, Function.comp_def]
  · have hslot : place j ≠ slot := fun h => hj (hplace j h).symm
    simp [hj, hslot, Slot.quiet, Function.comp_def]

theorem lineOutcome?_silence (slot : Slot) (line : String) (n : Nat) (r : Rule) :
    Rule.lineOutcome? { r with check := slot.silenceCheck r.check } line n =
      if Slot.line n slot.rule = slot then (r.lineOutcome? line n).map fun _ => .ok []
      else r.lineOutcome? line n := by
  cases slot with
  | file i => cases hcheck : r.check <;> simp [Rule.lineOutcome?, Rule.lineCheck?, hcheck,
      Slot.silenceCheck]
  | line m i =>
    cases hcheck : r.check with
    | file check => simp [Rule.lineOutcome?, Rule.lineCheck?, hcheck, Slot.silenceCheck]
    | line check =>
      by_cases hn : n = m <;>
        simp [Rule.lineOutcome?, Rule.lineCheck?, hcheck, Slot.silenceCheck, Slot.rule, hn]

theorem fileOutcome?_silence (slot : Slot) (source : String) (r : Rule) :
    Rule.fileOutcome? { r with check := slot.silenceCheck r.check } source =
      if Slot.file slot.rule = slot then (r.fileOutcome? source).map fun _ => .ok []
      else r.fileOutcome? source := by
  cases slot <;> cases hcheck : r.check <;>
    simp [Rule.fileOutcome?, Rule.fileCheck?, hcheck, Slot.silenceCheck, Slot.rule]

/-- Nothing but the call in the slot is replaced. -/
theorem schedule_silence (slot : Slot) (rules : List Rule) (source : String) :
    schedule (slot.silence rules) source = (schedule rules source).map slot.quiet := by
  have hlines (e : String × Nat) :
      outcomes (·.lineOutcome? e.1 e.2) (.line e.2) (slot.silence rules) =
        (outcomes (·.lineOutcome? e.1 e.2) (.line e.2) rules).map slot.quiet :=
    outcomes_silence (fun _ hi => hi ▸ rfl) (fun r => lineOutcome?_silence slot e.1 e.2 r) rules
  have hfiles : outcomes (·.fileOutcome? source) .file (slot.silence rules) =
      (outcomes (·.fileOutcome? source) .file rules).map slot.quiet :=
    outcomes_silence (fun _ hi => hi ▸ rfl) (fun r => fileOutcome?_silence slot source r) rules
  rw [schedule, schedule, List.map_append, List.map_flatMap, hfiles]
  simp only [hlines]

/-- The calls before and after the one in a slot are in other slots. -/
theorem ne_of_schedule_eq {before after : List (Slot × Call)}
    (h : schedule rules source = before ++ (slot, c) :: after) :
    (∀ e ∈ before, e.1 ≠ slot) ∧ ∀ e ∈ after, e.1 ≠ slot := by
  have hpairwise := pairwise_schedule rules source
  rw [h, List.pairwise_append, List.pairwise_cons] at hpairwise
  obtain ⟨-, ⟨hafter, -⟩, hbefore⟩ := hpairwise
  exact ⟨fun e he => (hbefore e he _ List.mem_cons_self).ne, fun e he => (hafter e he).ne.symm⟩

theorem schedule_silence_of_eq {before after : List (Slot × Call)}
    (h : schedule rules source = before ++ (slot, c) :: after) :
    schedule (slot.silence rules) source = before ++ (slot, ⟨c.rule, .ok []⟩) :: after := by
  obtain ⟨hbefore, hafter⟩ := ne_of_schedule_eq h
  rw [schedule_silence, h, List.map_append, List.map_cons,
    List.map_congr_left fun e he => Slot.quiet_of_ne (hbefore e he),
    List.map_congr_left fun e he => Slot.quiet_of_ne (hafter e he), List.map_id', List.map_id',
    Slot.quiet, if_pos rfl]

/-! ## A rule on its own -/

/-- Outcomes without a breakdown are gathered whole. -/
theorem gather_map_ok {α : Type} (f : α → Outcome) (g : α → List Finding) (l : List α)
    (h : ∀ a ∈ l, f a = .ok (g a)) : gather (l.map f) = .ok (l.flatMap g) := by
  induction l with
  | nil => rfl
  | cons a l ih =>
    rw [List.forall_mem_cons] at h
    rw [List.map_cons, gather, h.1, ih h.2, List.flatMap_cons]
    rfl

/-- The findings in the calls of one rule. -/
def contributions (rules : List Rule) (source : String) (i : Nat) : List Finding :=
  ((schedule rules source).filter (·.1.rule = i)).flatMap (·.2.findings)

theorem filter_zipIdx {α : Type} (l : List α) (k i : Nat) :
    (l.zipIdx k).filter (·.2 = k + i) = (l[i]?.map fun a => (a, k + i)).toList := by
  induction l generalizing k i with
  | nil => rfl
  | cons a l ih =>
    rw [List.zipIdx_cons]
    cases i with
    | zero =>
      have hnone : (l.zipIdx (k + 1)).filter (·.2 = k) = [] :=
        List.filter_eq_nil_iff.mpr fun x hx => by
          have := (List.mem_zipIdx hx).1
          simp only [decide_eq_true_eq]
          omega
      simpa using hnone
    | succ i =>
      rw [List.filter_cons_of_neg (by simp), List.getElem?_cons_succ]
      have hplace : k + (i + 1) = k + 1 + i := by omega
      rw [hplace]
      exact ih (k + 1) i

/-- The calls of one rule among those of one kind. -/
theorem filter_outcomes {outcome? : Rule → Option Outcome} {place : Nat → Slot} {i : Nat}
    (hplace : ∀ j, (place j).rule = j) (hi : rules[i]? = some r) :
    (outcomes outcome? place rules).filter (·.1.rule = i) =
      ((outcome? r).map fun o => (place i, ⟨r.id, o⟩)).toList := by
  have hself : rules.zipIdx.filter (·.2 = i) = [(r, i)] := by
    have := filter_zipIdx rules 0 i
    rwa [Nat.zero_add, hi] at this
  have hfilter : (outcomes outcome? place rules).filter (·.1.rule = i) =
      (rules.zipIdx.filter (·.2 = i)).filterMap fun (r, i) =>
        (outcome? r).map fun o => (place i, ⟨r.id, o⟩) := by
    rw [outcomes, List.filter_filterMap, List.filterMap_filter]
    refine List.filterMap_congr fun (r, j) _ => ?_
    dsimp only
    cases outcome? r with
    | none => simp
    | some o => by_cases hj : j = i <;> simp [hplace, hj, Option.filter]
  rw [hfilter, hself, List.filterMap_cons, List.filterMap_nil]
  dsimp only
  cases outcome? r <;> rfl

/-- A line rule that does not break down finds on its own what it contributes. -/
theorem checkAll_eq_contributions {i : Nat} {check : String → Nat → Outcome}
    (hi : rules[i]? = some r) (hcheck : r.check = .line check)
    (hok : ∀ e ∈ numberedLines source, ∃ found, check e.1 e.2 = .ok found) :
    r.checkAll source = .ok (contributions rules source i) := by
  have hfindings : ∀ e ∈ numberedLines source,
      check e.1 e.2 = .ok (Call.findings ⟨r.id, check e.1 e.2⟩) := fun e he => by
    obtain ⟨found, hfound⟩ := hok e he
    rw [hfound]
    rfl
  rw [Rule.checkAll, hcheck]
  refine (gather_map_ok _ _ _ hfindings).trans (congrArg Except.ok ?_)
  -- a rule for lines has one slot in each line and none for the file
  have hline (e : String × Nat) : (outcomes (·.lineOutcome? e.1 e.2) (.line e.2) rules).filter
      (·.1.rule = i) = [(.line e.2 i, ⟨r.id, check e.1 e.2⟩)] := by
    rw [filter_outcomes (fun _ => rfl) hi, lineOutcome?_eq_some_iff.mpr ⟨check, hcheck, rfl⟩]
    rfl
  have hfile : (outcomes (·.fileOutcome? source) .file rules).filter (·.1.rule = i) = [] := by
    rw [filter_outcomes (fun _ => rfl) hi, Rule.fileOutcome?, Rule.fileCheck?, hcheck]
    rfl
  rw [contributions, schedule, List.filter_append, List.filter_flatMap, hfile, List.append_nil]
  simp only [hline, List.flatMap_assoc, List.flatMap_singleton]

/-! ## Reports -/

theorem findings_lint (rules : List Rule) (path source : String) :
    (lint rules path source).findings = ((schedule rules source).flatMap
      (·.2.findings)).map ({ · with path := path }) := by
  rw [lint, ← map_schedule, List.flatMap_map]

theorem warnings_lint (rules : List Rule) (path source : String) :
    (lint rules path source).warnings = (schedule rules source).filterMap (·.2.warning?) := by
  rw [lint, ← map_schedule, List.filterMap_map]
  rfl

/-- Linting runs the line rules side by side from the first line to the last and then the file
rules. A call that breaks down contributes one warning and nothing else: with a call in its place
that finds nothing, the findings and all other warnings are the same. What a line rule that does not
break down contributes is what it finds on its own. -/
theorem lint_schedule (rules : List Rule) (path source : String) :
    -- every call is made once, in the order of the slots
    (schedule rules source).Pairwise (fun a b => a.1.Before b.1) ∧
    (∀ slot c, (slot, c) ∈ schedule rules source ↔ slot.Makes rules source c) ∧
    -- the report is what the calls give, call after call
    (lint rules path source).findings =
      ((schedule rules source).flatMap (·.2.findings)).map ({ · with path := path }) ∧
    (lint rules path source).warnings = (schedule rules source).filterMap (·.2.warning?) ∧
    -- a breakdown is a warning and changes nothing else
    (∀ slot id text, slot.Makes rules source ⟨id, .error text⟩ →
      ∃ before after : List (Slot × Call),
      schedule rules source = before ++ (slot, ⟨id, .error text⟩) :: after ∧
      schedule (slot.silence rules) source = before ++ (slot, ⟨id, .ok []⟩) :: after ∧
      (lint (slot.silence rules) path source).findings = (lint rules path source).findings ∧
      (lint (slot.silence rules) path source).warnings =
        before.filterMap (·.2.warning?) ++ after.filterMap (·.2.warning?) ∧
      (lint rules path source).warnings = before.filterMap (·.2.warning?) ++
        ("Rule " ++ id ++ " encountered an error: " ++ text) :: after.filterMap (·.2.warning?)) ∧
    -- a line rule contributes what it finds on its own
    (∀ (i : Nat) (r : Rule) (check : String → Nat → Outcome),
      rules[i]? = some r → r.check = .line check →
      (∀ e ∈ numberedLines source, ∃ found, check e.1 e.2 = .ok found) →
      r.checkAll source = .ok (contributions rules source i)) := by
  refine ⟨pairwise_schedule rules source, fun _ _ => mem_schedule, findings_lint rules path source,
    warnings_lint rules path source, ?_, fun i r check hi hcheck hok =>
      checkAll_eq_contributions hi hcheck hok⟩
  intro slot id text hmakes
  obtain ⟨before, after, h⟩ := List.append_of_mem (mem_schedule.mpr hmakes)
  have hsilent := schedule_silence_of_eq h
  refine ⟨before, after, h, hsilent, ?_, ?_, ?_⟩
  · rw [findings_lint, findings_lint, h, hsilent, List.flatMap_append, List.flatMap_append,
      List.flatMap_cons, List.flatMap_cons]
    rfl
  · rw [warnings_lint, hsilent, List.filterMap_append]
    rfl
  · rw [warnings_lint, h, List.filterMap_append]
    rfl

/-- A line rule that breaks down at one line and finds nothing at the others. -/
def stumble (number : Nat) : Rule where
  id := "stumble"
  description := "Break down at one line."
  name := "Stumble"
  check := .line fun _ n => if n = number then .error "lost" else .ok []

/-- White space at the ends of both lines is found, although a rule beside breaks down at the
second. -/
theorem lint_schedule_stumble :
    Slot.Makes [trailingWhitespace, stumble 2] "a \nb " (.line 2 1) ⟨"stumble", .error "lost"⟩ ∧
    (lint (Slot.silence (.line 2 1) [trailingWhitespace, stumble 2]) "f" "a \nb ").findings =
      (lint [trailingWhitespace, stumble 2] "f" "a \nb ").findings ∧
    trailingWhitespace.checkAll "a \nb " =
      .ok (contributions [trailingWhitespace, stumble 2] "a \nb " 0) := by
  have hmakes : Slot.Makes [trailingWhitespace, stumble 2] "a \nb " (.line 2 1)
      ⟨"stumble", .error "lost"⟩ := by
    have hline : ("b ", 2) ∈ numberedLines "a \nb " := by decide +kernel
    exact .line (r := stumble 2) rfl rfl hline
  obtain ⟨-, -, -, -, hfailing, hwhole⟩ :=
    lint_schedule [trailingWhitespace, stumble 2] "f" "a \nb "
  obtain ⟨before, after, -, -, hfindings, -⟩ := hfailing _ _ _ hmakes
  refine ⟨hmakes, hfindings, hwhole 0 _ _ rfl rfl ?_⟩
  rintro ⟨line, n⟩ -
  dsimp only
  split
  · exact ⟨_, rfl⟩
  · exact ⟨_, rfl⟩

end MiniApp.Lint
