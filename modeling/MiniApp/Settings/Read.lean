import MiniApp.Data.Toml
import MiniApp.Files
import MiniApp.Settings.Basic
import MiniApp.Text.Lowercase

/-!
# Reading settings

Settings are read from a table of plain data, and variables of the environment then override them.
A value of the wrong sort is refused with a diagnostic that names the key and shows the value. A
value that has to be shown but holds an integer of too many digits is a fault instead.

A section that is no table is searched for the key as far as its sort allows, and a match is a
failure, because nothing is stored there.

## Main definitions

* `Settings.ofTable`: the settings that a table holds
* `Settings.override`: the settings with the environment taken into account
-/

namespace MiniApp

/-- A value that was to be used as a table. -/
inductive Mismatch where
  /-- Keys were looked for in a value that holds nothing. -/
  | notSearchable (type : String)
  /-- The key occurs in a text. -/
  | keyInText
  /-- The key is an item of a list. -/
  | keyInList
  /-- Entries of a value that is no table were asked for. -/
  | noEntries (type : String)
  deriving DecidableEq, Repr

namespace Mismatch

/-- The kind of failure, as reports name it. -/
def kind : Mismatch → String
  | .noEntries _ => "AttributeError"
  | _ => "TypeError"

/-- The failure in words. -/
def message : Mismatch → String
  | .notSearchable type => "argument of type '" ++ type ++ "' is not iterable"
  | .keyInText => "string indices must be integers, not 'str'"
  | .keyInList => "list indices must be integers or slices, not str"
  | .noEntries type => "'" ++ type ++ "' object has no attribute 'get'"

end Mismatch

/-- Why there are no settings. -/
inductive SettingsFailure where
  | rejected (d : Diagnostic)
  | mismatch (m : Mismatch)
  | fault (f : Fault)
  | file (f : FileFailure)
  deriving DecidableEq, Repr

namespace SettingsFailure

/-- A refusal of what a settings file, or the environment if none is given, says. -/
def refusal (source : Option Path) (message : String) : SettingsFailure :=
  .rejected { trouble := .config, message, path := source.map Path.text }

end SettingsFailure

namespace Data

/-- Whether a value is a given text. -/
def isText (s : String) : Data → Bool
  | .str t => s = t
  | _ => false

/-- Whether a value holds a key: as a key of a table, within a text or as an item of a list. -/
def holds (key : String) : Data → Except Mismatch Bool
  | .table entries => .ok (get? key entries).isSome
  | .str s => .ok (Text.occursIn key s)
  | .list items => .ok (items.any (isText key))
  | d => .error (.notSearchable d.typeName)

/-- What a value that may be a table stores under a key. -/
def entry? (key : String) (d : Data) : Except Mismatch (Option Data) := do
  if ← d.holds key then
    match d with
    | .table entries => return get? key entries
    | .str _ => .error .keyInText
    | _ => .error .keyInList
  else return none

/-- The entries of a table. -/
def entries : Data → Except Mismatch Table
  | .table t => .ok t
  | d => .error (.noEntries d.typeName)

end Data

namespace Settings

variable (source : Option Path)

/-- A value as text. There is no text if an integer in the value has too many digits. -/
def spell (write : Data → String) (d : Data) : Except SettingsFailure String :=
  if d.overlong then .error (.fault (.digitLimit none)) else .ok (write d)

/-- Refuse a value, which is shown between the two parts of a message. -/
def refuse {α : Type} (lead : String) (d : Data) (tail : String) : Except SettingsFailure α := do
  let shown ← spell Data.literal d
  throw (.refusal source (lead ++ shown ++ tail))

/-- A limit has to be an integer from one on. -/
def limit (key : String) (d : Data) : Except SettingsFailure Int :=
  let refused := refuse source ("'" ++ key ++ "' must be an integer >= 1, got ") d ""
  match d with
  | .int i => if 1 ≤ i then .ok i else refused
  | _ => refused

/-- A limit that zero lifts. -/
def liftableLimit (key : String) (d : Data) : Except SettingsFailure (Option Int) :=
  -- `false` and the zeros of floats are equal to zero too
  if d.isZero then .ok none else some <$> limit source key d

/-- The texts of a list that holds nothing else. -/
def texts? : List Data → Option (List String)
  | [] => some []
  | .str s :: ds => (texts? ds).map (s :: ·)
  | _ :: _ => none

/-- A choice of rules is the name of one or a list of names. -/
def ruleNames (key : String) (d : Data) : Except SettingsFailure (List String) :=
  let names? := match d with
    | .str s => some [s]
    | .list items => texts? items
    | _ => none
  match names? with
  | some names => .ok names
  | none => refuse source ("'" ++ key ++ "' must be a list of rule ids, got ") d ""

/-- A level of logging, in letters of either case and with white space around it. -/
def logLevelOf (d : Data) : Except SettingsFailure LogLevel := do
  let text ← spell Data.asText d
  match LogLevel.ofWord? (Text.lowercase (String.ofList (Text.trimBlanks text.toList))) with
  | some level => return level
  | none =>
    refuse source "Unknown log level " d
      ("; expected one of " ++ ", ".intercalate (LogLevel.all.map LogLevel.word))

/-- Read the entry under a key of a section by a reader of values; without it the default stays. -/
def entryOr {α : Type} (key : String) (read : Data → Except SettingsFailure α) (d : α)
    (sect : Data) : Except SettingsFailure α := do
  match ← (sect.entry? key).mapError SettingsFailure.mismatch with
  | some v => read v
  | none => return d

/-- The limits of runs. -/
def readRun (sect : Data) : Except SettingsFailure RunSettings := do
  let defaults : RunSettings := {}
  let maxCallDepth ←
    entryOr "max_call_depth" (limit source "max_call_depth") defaults.maxCallDepth sect
  let maxSteps ← entryOr "max_steps" (liftableLimit source "max_steps") defaults.maxSteps sect
  let defaultWebVersion ←
    entryOr "default_web_version" (fun d => .str <$> spell Data.asText d)
      defaults.defaultWebVersion sect
  return { maxCallDepth, maxSteps, defaultWebVersion }

/-- The settings of the linter. -/
def readLint (sect : Data) : Except SettingsFailure Lint.Settings := do
  let defaults : Lint.Settings := {}
  let choice (key : String) (d : Data) : Except SettingsFailure Lint.Selection :=
    .names <$> ruleNames source key d
  let maxLineLength ←
    entryOr "max_line_length" (limit source "max_line_length") defaults.maxLineLength sect
  let enabled ←
    entryOr "enabled_rules" (fun d => some <$> choice "enabled_rules" d) defaults.enabled sect
  let disabled ← entryOr "disabled_rules" (choice "disabled_rules") defaults.disabled sect
  return { maxLineLength, enabled, disabled }

/-- The section under a key; one that is void counts as empty. -/
def sectionOf (key : String) (t : Table) : Data :=
  match Data.get? key t with
  | some d => if d.isVoid then .table [] else d
  | none => .table []

/-- An ending with its dot. -/
def withDot (s : String) : String := if s.startsWith "." then s else "." ++ s

/-- The ending of source files. A void entry leaves the default. -/
def readExtension (t : Table) : Except SettingsFailure String :=
  let defaults : Settings := {}
  match Data.get? "file_extension" t with
  | some d => if d.isVoid then .ok defaults.fileExtension else withDot <$> spell Data.asText d
  | none => .ok defaults.fileExtension

/-- The settings that a table of their own holds. -/
def ofOwnTable (t : Table) : Except SettingsFailure Settings := do
  let defaults : Settings := {}
  let run ← readRun source (sectionOf "runtime" t)
  let lint ← readLint source (sectionOf "lint" t)
  let fileExtension ← readExtension t
  let logLevel ← match Data.get? "log_level" t with
    | some d => logLevelOf source d
    | none => pure defaults.logLevel
  return { run, lint, fileExtension, logLevel, source }

/-- The name of the file that many tools share. -/
def sharedFile : String := "pyproject.toml"

/-- The name of the file that holds nothing but settings. -/
def ownFile : String := "homy.toml"

/-- The value under a key, an empty table if there is none. -/
def subtable (key : String) (t : Table) : Data := (Data.get? key t).getD (.table [])

/-- The settings that the table of a file holds. In the shared file they stand below the tool's
name. -/
def ofTable (t : Table) : Except SettingsFailure Settings :=
  if source.any fun p => p.name = sharedFile then do
    let tools ← (subtable "tool" t).entries.mapError SettingsFailure.mismatch
    let own ← (subtable "homy" tools).entries.mapError SettingsFailure.mismatch
    ofOwnTable source own
  else ofOwnTable source t

end Settings

/-- The variables of the environment. -/
abbrev Environment := List (String × String)

namespace Environment

/-- The value of a variable that is set and not empty. -/
def value? (env : Environment) (name : String) : Option String :=
  (env.lookup name).filter fun s => !s.isEmpty

/-- The integer that a variable holds. -/
def integer (name value : String) : Except SettingsFailure Int :=
  match Text.readInteger value.toList with
  | .ok i => .ok i
  | .error _ =>
    .error (.refusal none (name ++ " must be an integer, got " ++ Text.quoted value))

end Environment

namespace Settings

/-- Read a variable that is set by a reader of values; without it the default stays. -/
def variableOr {α : Type} (env : Environment) (name : String)
    (read : String → Except SettingsFailure α) (d : α) : Except SettingsFailure α :=
  match env.value? name with
  | some s => read s
  | none => .ok d

/-- The settings with those that the environment gives in place of their own. -/
def override (env : Environment) (s : Settings) : Except SettingsFailure Settings := do
  -- messages name the variable in the place of the key
  let asLimit {α : Type} (read : String → Data → Except SettingsFailure α) (name : String)
      (value : String) : Except SettingsFailure α := do
    read name (.int (← Environment.integer name value))
  let logLevel ← variableOr env "HOMY_LOG_LEVEL" (fun v => logLevelOf none (.str v)) s.logLevel
  let maxCallDepth ←
    variableOr env "HOMY_MAX_CALL_DEPTH" (asLimit (limit none) "HOMY_MAX_CALL_DEPTH")
      s.run.maxCallDepth
  let maxSteps ←
    variableOr env "HOMY_MAX_STEPS" (asLimit (liftableLimit none) "HOMY_MAX_STEPS") s.run.maxSteps
  let maxLineLength ←
    variableOr env "HOMY_MAX_LINE_LENGTH" (asLimit (limit none) "HOMY_MAX_LINE_LENGTH")
      s.lint.maxLineLength
  return { s with
    logLevel
    run := { s.run with maxCallDepth, maxSteps }
    lint := { s.lint with maxLineLength } }

end Settings

end MiniApp
