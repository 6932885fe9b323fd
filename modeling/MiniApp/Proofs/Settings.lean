import MiniApp.Settings.Read
import Mathlib.Tactic.Common

/-!
# Settings that are admitted

A setting is decided by the variable of the environment, if that is set and not empty, or else by
the entry of the table, or else by its default. What decides it has to be of the right sort, and
otherwise reading ends in a refusal: limits are integers from one on, the level of logging is named
by one of the words for levels. The limit on steps alone can be lifted, by a zero. A zero of any
sort does, and the truth value false with it: unlike every other limit, this one is compared with
zero before its sort is looked at.

A refusal shows the value that it refuses. An integer of too many digits cannot be shown, and is a
fault instead. Only a table can hold one, because the environment is read under the same limit.

## Main definitions

* `Settings.Ends`: what reading settings ends in
* `Settings.Decided`: what decides a setting
* `Settings.Admitted`: settings as a table and an environment decide them

## Main results

* `Text.natAbs_lt_of_readInteger`: an integer that is read can be written
* `Settings.ofTable_override_admits`: reading ends in a refusal or in settings that are admitted
-/

namespace MiniApp

/-! ## Integers that are read -/

namespace Text

theorem digitValue?_lt {c : Char} {v : Nat} (h : digitValue? c = some v) : v < 10 := by
  obtain ⟨z, hz, rfl⟩ := Option.map_eq_some_iff.mp h
  have hin := List.find?_some hz
  simp only [Bool.and_eq_true, decide_eq_true_eq] at hin
  omega

theorem digitRun?_lt {cs : List Char} {ds : List Nat} (h : digitRun? cs = some ds) :
    ∀ d ∈ ds, d < 10 := by
  fun_induction digitRun? cs generalizing ds with
  | case1 => cases h
  | case2 c =>
    obtain ⟨v, hv, rfl⟩ := Option.map_eq_some_iff.mp h
    exact List.forall_mem_singleton.mpr (digitValue?_lt hv)
  | case3 c cs ih | case4 c cs _ _ ih =>
    obtain ⟨d, hd, h⟩ := Option.bind_eq_some_iff.mp h
    obtain ⟨es, hes, h⟩ := Option.bind_eq_some_iff.mp h
    obtain rfl := Option.some.inj h
    exact List.forall_mem_cons.mpr ⟨digitValue?_lt hd, ih hes⟩

theorem ofDigits_lt {ds : List Nat} {n : Nat} (h : ∀ d ∈ ds, d < 10) (hn : ds.length ≤ n) :
    ofDigits ds < Nat.pow 10 n := by
  have hfold : ∀ ds : List Nat, (∀ d ∈ ds, d < 10) → ∀ n,
      ds.foldl (fun n d => 10 * n + d) n < (n + 1) * 10 ^ ds.length := by
    intro ds
    induction ds with
    | nil => intro _ n; simp
    | cons d ds ih =>
      intro h n
      obtain ⟨hd, hds⟩ := List.forall_mem_cons.mp h
      -- one digit more, and the bound grows by a factor of ten
      have hstep : 10 * n + d + 1 ≤ (n + 1) * 10 := by omega
      calc _ < (10 * n + d + 1) * 10 ^ ds.length := ih hds _
        _ ≤ (n + 1) * 10 * 10 ^ ds.length := Nat.mul_le_mul_right _ hstep
        _ = (n + 1) * 10 ^ (d :: ds).length := by
          rw [List.length_cons, Nat.pow_succ', Nat.mul_assoc]
  have hdigits : ofDigits ds < 10 ^ ds.length := by simpa [ofDigits] using hfold ds h 0
  exact Nat.lt_of_lt_of_le hdigits (Nat.pow_le_pow_right (by decide) hn)

/-- An integer that is read has no more digits than can be written. -/
theorem natAbs_lt_of_readInteger {cs : List Char} {i : Int} (h : readInteger cs = .ok i) :
    i.natAbs < Nat.pow 10 digitLimit := by
  rw [readInteger] at h
  dsimp only at h
  split at h
  · cases h
  · next ds hds =>
    split at h
    · cases h
    · next hlength =>
      have habs : i.natAbs = ofDigits ds := by
        obtain rfl := Except.ok.inj h
        split <;> simp
      rw [habs]
      exact ofDigits_lt (digitRun?_lt hds) (Nat.le_of_not_lt hlength)

end Text

theorem LogLevel.word_mem (level : LogLevel) :
    level.word ∈ ["debug", "info", "warning", "error", "critical"] := by
  cases level <;> decide

namespace Settings

/-! ## What decides a setting -/

/-- The entries of a section, none if there is no such table. -/
def entriesOf (sect : String) (t : Table) : Table :=
  match Data.get? sect t with
  | some (.table entries) => entries
  | _ => []

/-- A section that is absent or a table. -/
def SectionIn (sect : String) (t : Table) : Prop :=
  ∀ d, Data.get? sect t = some d → ∃ entries, d = .table entries

/-- What decides a setting: the value that a variable denotes if it is set and not empty, else an
entry, else the default. -/
inductive Decided {α : Type} (held? : Option String) (Denotes : String → Data → Prop)
    (own? : Option Data) (Holds : Data → α → Prop) (default : α) : α → Prop
  | ofVariable {v : String} {d : Data} {a : α} : held? = some v → Denotes v d → Holds d a →
      Decided held? Denotes own? Holds default a
  | ofEntry {d : Data} {a : α} : held? = none → own? = some d → Holds d a →
      Decided held? Denotes own? Holds default a
  | unset : held? = none → own? = none → Decided held? Denotes own? Holds default default

/-- A variable denotes the integer that it spells. -/
inductive DenotesInteger (v : String) : Data → Prop
  | mk {i : Int} : Text.readInteger v.toList = .ok i → DenotesInteger v (.int i)

/-- A variable denotes its own text. -/
inductive DenotesText (v : String) : Data → Prop
  | mk : DenotesText v (.str v)

/-- The limits: integers from one on, and nothing of another sort. -/
inductive IsLimit : Data → Int → Prop
  | mk {i : Int} : 1 ≤ i → IsLimit (.int i) i

/-- The values that lift a limit: the integer zero, but also a floating point zero of either sign
and the truth value false. -/
inductive Lifts : Data → Prop
  | zero : Lifts (.int 0)
  | false : Lifts (.bool false)
  | float {negative : Bool} {fits : Double.Fits 0} : Lifts (.double (.finite negative 0 fits))

/-- The limits that may be lifted. -/
inductive IsLiftable : Data → Option Int → Prop
  | lifted {d : Data} : Lifts d → IsLiftable d none
  | limit {i : Int} : 1 ≤ i → IsLiftable (.int i) (some i)

/-- A level is named by its word, in letters of either case and with white space around it. -/
def IsLevel (d : Data) (level : LogLevel) : Prop :=
  level.word = Text.lowercase (String.ofList (Text.trimBlanks d.asText.toList))

/-- Settings as a table and an environment decide them. -/
structure Admitted (t : Table) (env : Environment) (s : Settings) : Prop where
  callDepth : Decided (env.value? "HOMY_MAX_CALL_DEPTH") DenotesInteger
    (Data.get? "max_call_depth" (entriesOf "runtime" t)) IsLimit 100 s.run.maxCallDepth
  steps : Decided (env.value? "HOMY_MAX_STEPS") DenotesInteger
    (Data.get? "max_steps" (entriesOf "runtime" t)) IsLiftable (some 1000000) s.run.maxSteps
  lineLength : Decided (env.value? "HOMY_MAX_LINE_LENGTH") DenotesInteger
    (Data.get? "max_line_length" (entriesOf "lint" t)) IsLimit 80 s.lint.maxLineLength
  level : Decided (env.value? "HOMY_LOG_LEVEL") DenotesText
    (Data.get? "log_level" t) IsLevel .info s.logLevel
  extension : ∃ cs, s.fileExtension.toList = '.' :: cs

/-- The failures of reading settings: a diagnostic about settings, or the fault of an integer in the
table that has too many digits to be shown. -/
inductive Refused (t : Table) : SettingsFailure → Prop
  | rejected {d : Diagnostic} : d.trouble = .config → Refused t (.rejected d)
  | digitLimit : (Data.table t).overlong = true → Refused t (.fault (.digitLimit none))

/-! ## What reading ends in -/

variable {α β : Type} {E : SettingsFailure → Prop} {P Q : α → Prop} {R : β → Prop}
variable {x : Except SettingsFailure α} {t entries : Table} {d : Data} {key : String}
variable {source : Option Path}

/-- Reading ends in a failure of some sort, or in something of some sort. -/
inductive Ends (E : SettingsFailure → Prop) (P : α → Prop) : Except SettingsFailure α → Prop
  | error {f : SettingsFailure} : E f → Ends E P (.error f)
  | ok {a : α} : P a → Ends E P (.ok a)

namespace Ends

theorem bind {f : α → Except SettingsFailure β} (hx : Ends E P x)
    (hf : ∀ a, P a → Ends E R (f a)) : Ends E R (x >>= f) := by
  cases hx with
  | error he => exact .error he
  | ok ha => exact hf _ ha

theorem map {f : α → β} (hx : Ends E P x) (hf : ∀ a, P a → R (f a)) : Ends E R (f <$> x) := by
  cases hx with
  | error he => exact .error he
  | ok ha => exact .ok (hf _ ha)

theorem mono (hx : Ends E P x) (h : ∀ a, P a → Q a) : Ends E Q x := by
  cases hx with
  | error he => exact .error he
  | ok ha => exact .ok (h _ ha)

end Ends

/-- A value that holds no longer integers than a table does. -/
def Shorter (t : Table) (d : Data) : Prop := d.overlong = true → (Data.table t).overlong = true

theorem overlong_of_get? (h : Data.get? key t = some d) (hd : d.overlong = true) :
    (Data.table t).overlong = true := by
  rw [Data.overlong]
  induction t with
  | nil => cases h
  | cons entry t ih =>
    obtain ⟨k, v⟩ := entry
    rw [Data.anyEntryOverlong]
    rw [Data.get?, List.lookup_cons] at h
    split at h
    · obtain rfl := Option.some.inj h
      rw [hd, Bool.true_or]
    · rw [ih h, Bool.or_true]

theorem shorter_of_get? (h : Data.get? key t = some d) : Shorter t d := overlong_of_get? h

/-- An entry of a section. -/
theorem shorter_of_entriesOf {sect : String} (h : Data.get? key (entriesOf sect t) = some d) :
    Shorter t d := by
  rw [entriesOf] at h
  split at h
  · next hsection => exact fun hd => overlong_of_get? hsection (overlong_of_get? h hd)
  · cases h

/-- An integer that a variable spells. -/
theorem shorter_of_denotes {v : String} (h : DenotesInteger v d) : Shorter t d := by
  obtain ⟨hread⟩ := h
  have hlt := Text.natAbs_lt_of_readInteger hread
  intro hlong
  rw [Data.overlong, decide_eq_true_eq] at hlong
  exact (Nat.not_le_of_lt hlt hlong).elim

/-! ## Readers of values -/

theorem ends_spell {write : Data → String} (h : Shorter t d) :
    Ends (Refused t) (· = write d) (spell write d) := by
  rw [spell]
  split
  · next hlong => exact .error (.digitLimit (h hlong))
  · exact .ok rfl

theorem ends_refuse {lead tail : String} (h : Shorter t d) :
    Ends (Refused t) P (refuse source lead d tail) :=
  (ends_spell h).bind fun _ _ => .error (.rejected rfl)

theorem ends_limit (h : Shorter t d) : Ends (Refused t) (IsLimit d) (limit source key d) := by
  cases d with
  | int i =>
    rw [limit]
    split
    · next hle => exact .ok ⟨hle⟩
    · exact ends_refuse h
  | _ => exact ends_refuse h

theorem lifts_of_isZero (h : d.isZero = true) : Lifts d := by
  cases d with
  | bool b =>
    obtain rfl : b = false := by simpa [Data.isZero] using h
    exact .false
  | int i =>
    obtain rfl : i = 0 := by simpa [Data.isZero] using h
    exact .zero
  | double x =>
    cases x with
    | finite negative q fits =>
      obtain rfl : q = 0 := by simpa [Data.isZero] using h
      exact .float
    | _ => cases h
  | _ => cases h

theorem ends_liftableLimit (h : Shorter t d) :
    Ends (Refused t) (IsLiftable d) (liftableLimit source key d) := by
  rw [liftableLimit]
  split
  · next hzero => exact .ok (.lifted (lifts_of_isZero hzero))
  · refine (ends_limit h).map ?_
    rintro i ⟨hle⟩
    exact .limit hle

theorem ends_ruleNames (h : Shorter t d) :
    Ends (Refused t) (fun _ => True) (ruleNames source key d) := by
  unfold ruleNames
  extract_lets names?
  clear_value names?
  cases names? with
  | some names => exact .ok trivial
  | none => exact ends_refuse h

theorem ends_logLevelOf (h : Shorter t d) :
    Ends (Refused t) (IsLevel d) (logLevelOf source d) := by
  refine (ends_spell h).bind fun text htext => ?_
  subst htext
  split
  · next level hlevel =>
    have hword := List.find?_some hlevel
    exact .ok (eq_of_beq hword)
  · exact ends_refuse h

/-- An ending has its dot. -/
theorem exists_withDot (s : String) : ∃ cs, (withDot s).toList = '.' :: cs := by
  rw [withDot]
  split
  · next hdot =>
    obtain ⟨cs, hcs⟩ := String.startsWith_string_iff.mp hdot
    exact ⟨cs, hcs.symm⟩
  · exact ⟨s.toList, by rw [String.toList_append]; rfl⟩

theorem ends_readExtension :
    Ends (Refused t) (fun s => ∃ cs, s.toList = '.' :: cs) (readExtension t) := by
  have hdefault : ∃ cs, (".homy" : String).toList = '.' :: cs := ⟨_, rfl⟩
  rw [readExtension]
  split
  · next d hd =>
    split
    · exact .ok hdefault
    · exact (ends_spell (shorter_of_get? hd)).map fun _ _ => exists_withDot _
  · exact .ok hdefault

/-! ## Readers of settings -/

section Decisions

variable {Denotes : String → Data → Prop} {Holds : Data → α → Prop} {default : α}
variable {read : Data → Except SettingsFailure α}

theorem entry_table : Data.entry? key (.table entries) = .ok (Data.get? key entries) := by
  rw [Data.entry?]
  cases h : Data.get? key entries <;> simp [Data.holds, h, bind, Except.bind, pure, Except.pure]

theorem ends_entryOr (hdefault : Data.get? key entries = none → P default)
    (h : ∀ d, Data.get? key entries = some d → Ends E P (read d)) :
    Ends E P (entryOr key read default (.table entries)) := by
  rw [entryOr, entry_table]
  cases hentry : Data.get? key entries with
  | none => exact .ok (hdefault hentry)
  | some d => exact h d hentry

/-- An entry decides a setting as long as no variable is looked at. -/
theorem decided_entryOr (Denotes : String → Data → Prop)
    (h : ∀ d, Data.get? key entries = some d → Ends E (Holds d) (read d)) :
    Ends E (Decided none Denotes (Data.get? key entries) Holds default)
      (entryOr key read default (.table entries)) :=
  ends_entryOr (.unset rfl) fun d hd => (h d hd).mono fun _ ha => .ofEntry rfl hd ha

/-- A variable overrides what an entry has decided. -/
theorem ends_variableOr {env : Environment} {name : String} {own? : Option Data} {a : α}
    {read : String → Except SettingsFailure α}
    (ha : Decided none Denotes own? Holds default a)
    (h : ∀ v, Ends E (fun a => ∃ d, Denotes v d ∧ Holds d a) (read v)) :
    Ends E (Decided (env.value? name) Denotes own? Holds default)
      (variableOr env name read a) := by
  rw [variableOr]
  cases hvariable : env.value? name with
  | none => exact .ok ha
  | some v => exact (h v).mono fun _ ⟨d, hd, ha⟩ => .ofVariable rfl hd ha

end Decisions

/-- The section under a key, if it is absent or a table. A void section counts as empty. -/
theorem sectionOf_eq {sect : String} (h : SectionIn sect t) :
    sectionOf sect t = .table (entriesOf sect t) := by
  rw [sectionOf, entriesOf]
  cases hsection : Data.get? sect t with
  | none => rfl
  | some d =>
    obtain ⟨entries, rfl⟩ := h d hsection
    cases entries <;> rfl

/-- The limits of runs as a table decides them. -/
structure RunDecided (t : Table) (r : RunSettings) : Prop where
  callDepth : Decided none DenotesInteger
    (Data.get? "max_call_depth" (entriesOf "runtime" t)) IsLimit 100 r.maxCallDepth
  steps : Decided none DenotesInteger
    (Data.get? "max_steps" (entriesOf "runtime" t)) IsLiftable (some 1000000) r.maxSteps

theorem ends_readRun (h : SectionIn "runtime" t) :
    Ends (Refused t) (RunDecided t) (readRun source (sectionOf "runtime" t)) := by
  rw [sectionOf_eq h, readRun]
  refine (decided_entryOr DenotesInteger fun d hd => ends_limit (shorter_of_entriesOf hd)).bind
    fun depth hdepth => ?_
  refine (decided_entryOr DenotesInteger fun d hd =>
    ends_liftableLimit (shorter_of_entriesOf hd)).bind fun steps hsteps => ?_
  have hversion : ∀ d, Data.get? "default_web_version" (entriesOf "runtime" t) = some d →
      Ends (Refused t) (fun _ => True) (Data.str <$> spell Data.asText d) := fun d hd =>
    (ends_spell (shorter_of_entriesOf hd)).map fun _ _ => trivial
  exact (ends_entryOr (fun _ => trivial) hversion).bind fun _ _ => .ok ⟨hdepth, hsteps⟩

theorem ends_readLint (h : SectionIn "lint" t) :
    Ends (Refused t) (fun s => Decided none DenotesInteger
        (Data.get? "max_line_length" (entriesOf "lint" t)) IsLimit 80 s.maxLineLength)
      (readLint source (sectionOf "lint" t)) := by
  have hnames : ∀ key d, Data.get? key (entriesOf "lint" t) = some d →
      Ends (Refused t) (fun _ => True) (Lint.Selection.names <$> ruleNames source key d) :=
    fun key d hd => (ends_ruleNames (shorter_of_entriesOf hd)).map fun _ _ => trivial
  rw [sectionOf_eq h, readLint]
  refine (decided_entryOr DenotesInteger fun d hd => ends_limit (shorter_of_entriesOf hd)).bind
    fun length hlength => ?_
  have henabled : Ends (Refused t) (fun _ => True) (entryOr "enabled_rules"
      (fun d => some <$> .names <$> ruleNames source "enabled_rules" d)
      ({} : Lint.Settings).enabled (.table (entriesOf "lint" t))) :=
    ends_entryOr (fun _ => trivial) fun d hd =>
      (hnames "enabled_rules" d hd).map fun _ _ => trivial
  refine henabled.bind fun _ _ => ?_
  exact (ends_entryOr (fun _ => trivial) (hnames "disabled_rules")).bind fun _ _ => .ok hlength

/-- What a table decides, and no variable yet. -/
theorem ends_ofOwnTable (hrun : SectionIn "runtime" t) (hlint : SectionIn "lint" t) :
    Ends (Refused t) (Admitted t []) (ofOwnTable source t) := by
  rw [ofOwnTable]
  refine (ends_readRun hrun).bind fun run hrun => ?_
  refine (ends_readLint hlint).bind fun lint hlint => ?_
  refine ends_readExtension.bind fun extension hextension => ?_
  cases hlevel : Data.get? "log_level" t with
  | none =>
    exact .ok ⟨hrun.callDepth, hrun.steps, hlint, hlevel ▸ .unset rfl rfl, hextension⟩
  | some d =>
    refine (ends_logLevelOf (shorter_of_get? hlevel)).bind fun level hlevel' => ?_
    exact .ok ⟨hrun.callDepth, hrun.steps, hlint, .ofEntry rfl hlevel hlevel', hextension⟩

/-- A variable that spells an integer is read as that integer is. -/
theorem ends_integer {Holds : Data → α → Prop} {read : Data → Except SettingsFailure α}
    {name v : String} (h : ∀ d, Shorter t d → Ends (Refused t) (Holds d) (read d)) :
    Ends (Refused t) (fun a => ∃ d, DenotesInteger v d ∧ Holds d a)
      (do read (.int (← Environment.integer name v))) := by
  rw [Environment.integer]
  split
  · next i hread =>
    have hdenotes : DenotesInteger v (.int i) := ⟨hread⟩
    exact (h _ (shorter_of_denotes hdenotes)).mono fun _ ha => ⟨_, hdenotes, ha⟩
  · exact .error (.rejected rfl)

theorem ends_override {env : Environment} {s : Settings} (h : Admitted t [] s) :
    Ends (Refused t) (Admitted t env) (s.override env) := by
  have htext : ∀ v, Ends (Refused t) (fun a => ∃ d, DenotesText v d ∧ IsLevel d a)
      (logLevelOf none (.str v)) := fun v =>
    (ends_logLevelOf fun hlong => by cases hlong).mono fun _ ha => ⟨_, .mk, ha⟩
  rw [override]
  dsimp only
  -- each variable decides its own setting and leaves the others as the table has them
  refine (ends_variableOr h.level htext).bind fun level hlevel => ?_
  refine (ends_variableOr h.callDepth fun v => ends_integer fun _ => ends_limit).bind
    fun depth hdepth => ?_
  refine (ends_variableOr h.steps fun v => ends_integer fun _ => ends_liftableLimit).bind
    fun steps hsteps => ?_
  refine (ends_variableOr h.lineLength fun v => ends_integer fun _ => ends_limit).bind
    fun length hlength => ?_
  exact .ok ⟨hdepth, hsteps, hlength, hlevel, h.extension⟩

/-! ## Settings from a table and an environment -/

section Bounds

variable {held? : Option String} {Denotes : String → Data → Prop} {own? : Option Data}

theorem Decided.one_le {default i : Int} (h : Decided held? Denotes own? IsLimit default i)
    (hdefault : 1 ≤ default) : 1 ≤ i := by
  cases h with
  | ofVariable _ _ hi | ofEntry _ _ hi => exact hi.casesOn id
  | unset => exact hdefault

theorem Decided.one_le_of_mem {default n? : Option Int}
    (h : Decided held? Denotes own? IsLiftable default n?) (hdefault : ∀ n ∈ default, 1 ≤ n) :
    ∀ n ∈ n?, 1 ≤ n := by
  have hliftable : ∀ {d : Data}, IsLiftable d n? → ∀ n ∈ n?, 1 ≤ n := by
    rintro d (hlifts | hle) n hn
    · cases hn
    · obtain rfl := Option.some.inj hn
      exact hle
  cases h with
  | ofVariable _ _ hn | ofEntry _ _ hn => exact hliftable hn
  | unset => exact hdefault

end Bounds

/-- Reading a table whose sections are tables, and then the environment, ends in a refusal or in
settings that are admitted. Every limit is an integer from one on, except that the limit on steps is
lifted where the value that decides it is a zero or the truth value false; the level is one of the
levels, the ending starts with a dot, and a variable that is set and not empty has overridden the
entry of the table. -/
theorem ofTable_override_admits (source : Option Path) (t : Table) (env : Environment)
    (hsource : source.any (fun p => p.name = sharedFile) = false)
    (hrun : SectionIn "runtime" t) (hlint : SectionIn "lint" t) :
    Ends (Refused t)
      (fun s => 1 ≤ s.run.maxCallDepth ∧ 1 ≤ s.lint.maxLineLength ∧
        (∀ n ∈ s.run.maxSteps, 1 ≤ n) ∧
        s.logLevel.word ∈ ["debug", "info", "warning", "error", "critical"] ∧
        (∃ cs, s.fileExtension.toList = '.' :: cs) ∧ Admitted t env s)
      (do (← ofTable source t).override env) := by
  rw [ofTable, if_neg (by simp [hsource])]
  refine (ends_ofOwnTable hrun hlint).bind fun s hs => ?_
  refine (ends_override hs).mono fun s hs => ?_
  have hsteps : ∀ n ∈ s.run.maxSteps, 1 ≤ n := by
    refine hs.steps.one_le_of_mem fun n hn => ?_
    obtain rfl := Option.some.inj hn
    decide
  exact ⟨hs.callDepth.one_le (by decide), hs.lineLength.one_le (by decide), hsteps,
    s.logLevel.word_mem, hs.extension, hs⟩

/-- A table that sets two limits, one of which the environment overrides. -/
theorem ofTable_override_admits_variable :
    let t : Table := [("runtime", .table [("max_call_depth", .int 20), ("max_steps", .int 0)])]
    let env : Environment := [("HOMY_MAX_CALL_DEPTH", "30")]
    SectionIn "runtime" t ∧ SectionIn "lint" t ∧ ∃ s : Settings,
      (do (← ofTable none t).override env) = .ok s ∧ s.run.maxCallDepth = 30 ∧
      s.run.maxSteps = none ∧ Admitted t env s := by
  intro t env
  have hrun : SectionIn "runtime" t := fun d hd => ⟨_, (Option.some.inj hd).symm⟩
  have hlint : SectionIn "lint" t := fun d hd => by cases hd
  obtain ⟨s, hs⟩ : ∃ s, (do (← ofTable none t).override env) = .ok s := ⟨_, rfl⟩
  have hends := ofTable_override_admits none t env rfl hrun hlint
  rw [hs] at hends
  cases hends with
  | ok h =>
    refine ⟨hrun, hlint, s, hs, ?_, ?_, h.2.2.2.2.2⟩
    · obtain rfl := Except.ok.inj hs
      rfl
    · obtain rfl := Except.ok.inj hs
      rfl

/-- The limit on steps is not lifted by the integer zero alone: the truth value false lifts it. -/
theorem ofTable_override_lifted_by_false :
    ¬ ∀ (t : Table) (s : Settings), SectionIn "runtime" t → SectionIn "lint" t →
      (do (← ofTable none t).override []) = .ok s → s.run.maxSteps = none →
      Data.get? "max_steps" (entriesOf "runtime" t) = some (.int 0) := by
  intro h
  have hrun : SectionIn "runtime" [("runtime", .table [("max_steps", .bool false)])] :=
    fun d hd => ⟨_, (Option.some.inj hd).symm⟩
  have hzero := h _ _ hrun (fun d hd => by cases hd) rfl rfl
  cases hzero

end Settings

end MiniApp
