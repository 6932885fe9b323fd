import MiniApp.Text.Search

/-!
# Findings, rules and reports

A lint rule looks at source text as text, one line at a time or as a whole, and gives findings or
breaks down. Linting runs the line rules side by side from the first line to the last and then the
file rules; a rule that breaks down contributes a warning in place of findings.

## Main definitions

* `Lint.Finding`, `Lint.Rule`, `Lint.Report`
* `Lint.calls`: the calls made to rules, in order, with their outcomes
* `Lint.lint`: the report on a text
-/

namespace MiniApp.Lint

/-- How much a finding weighs. -/
inductive Severity where
  | error | warning | info
  deriving DecidableEq, Repr

/-- The word for a severity. -/
def Severity.word : Severity → String
  | .error => "error"
  | .warning => "warning"
  | .info => "info"

/-- Something a rule has found. -/
structure Finding where
  rule : String
  message : String
  severity : Severity
  line : Nat
  column : Int
  path : String := ""
  suggestion : Option String := none
  deriving DecidableEq, Repr

/-- A finding in one line of text. -/
def Finding.format (f : Finding) : String :=
  f.path ++ ":" ++ toString f.line ++ ":" ++ toString f.column ++
    ": [" ++ f.rule ++ "] " ++ f.message

/-- What calling a rule gives: findings, or the text of a breakdown. -/
abbrev Outcome := Except String (List Finding)

/-- How a rule looks at text: at a line and its number, or at the whole. -/
inductive Check where
  | line (check : String → Nat → Outcome)
  | file (check : String → Outcome)

/-- A lint rule. -/
structure Rule where
  id : String
  description : String
  /-- The name under which the rule is listed. -/
  name : String
  check : Check

namespace Rule

/-- The check of single lines, if the rule has one. -/
def lineCheck? (r : Rule) : Option (String → Nat → Outcome) :=
  match r.check with
  | .line f => some f
  | .file _ => none

/-- The check of a whole text, if the rule is not about lines. -/
def fileCheck? (r : Rule) : Option (String → Outcome) :=
  match r.check with
  | .line _ => none
  | .file f => some f

end Rule

/-- The lines of a text with their numbers, counted from one. -/
def numberedLines (source : String) : List (String × Nat) := (Text.lines source).zipIdx 1

/-- The findings of the outcomes, in order, up to the first breakdown. -/
def gather : List Outcome → Outcome
  | [] => .ok []
  | o :: os => do
    let found ← o
    let others ← gather os
    return found ++ others

/-- A rule on its own over a whole text. -/
def Rule.checkAll (r : Rule) (source : String) : Outcome :=
  match r.check with
  | .line f => gather ((numberedLines source).map fun (line, n) => f line n)
  | .file f => f source

/-- One call of a rule. -/
structure Call where
  rule : String
  outcome : Outcome

/-- The findings of a call; a breakdown has none. -/
def Call.findings (c : Call) : List Finding :=
  match c.outcome with
  | .ok found => found
  | .error _ => []

/-- The warning about a breakdown. -/
def Call.warning? (c : Call) : Option String :=
  match c.outcome with
  | .ok _ => none
  | .error text => some ("Rule " ++ c.rule ++ " encountered an error: " ++ text)

/-- The calls of line rules for one line, in the order of the rules. -/
def lineCalls (rules : List Rule) (line : String) (number : Nat) : List Call :=
  rules.filterMap fun r => r.lineCheck?.map fun f => ⟨r.id, f line number⟩

/-- The calls of file rules, in the order of the rules. -/
def fileCalls (rules : List Rule) (source : String) : List Call :=
  rules.filterMap fun r => r.fileCheck?.map fun f => ⟨r.id, f source⟩

/-- All calls: line rules side by side, line after line, and then the file rules. -/
def calls (rules : List Rule) (source : String) : List Call :=
  ((numberedLines source).flatMap fun (line, n) => lineCalls rules line n) ++ fileCalls rules source

/-- The result of linting a text. -/
structure Report where
  path : String
  findings : List Finding
  warnings : List String
  deriving DecidableEq, Repr

namespace Report

/-- Whether anything was found. -/
def hasIssues (r : Report) : Bool := !r.findings.isEmpty

/-- How many findings have a given severity. -/
def count (r : Report) (s : Severity) : Nat := r.findings.countP (·.severity = s)

end Report

/-- Lint a text by the given rules. -/
def lint (rules : List Rule) (path source : String) : Report where
  path := path
  findings := ((calls rules source).flatMap Call.findings).map ({ · with path := path })
  warnings := (calls rules source).filterMap Call.warning?

/-- A choice of rules: their names, or a text in which their names occur. -/
inductive Selection where
  | names (ids : List String)
  | text (s : String)
  deriving DecidableEq, Repr

/-- Whether a rule is chosen. -/
def Selection.contains (s : Selection) (id : String) : Bool :=
  match s with
  | .names ids => ids.contains id
  | .text t => Text.occursIn id t

/-- The settings of the linter. -/
structure Settings where
  maxLineLength : Int := 80
  enabled : Option Selection := none
  disabled : Selection := .names []
  deriving DecidableEq, Repr

/-- Whether a rule is to be run: it is not disabled, and enabled if any are. -/
def Settings.allows (s : Settings) (id : String) : Bool :=
  !s.disabled.contains id && match s.enabled with
    | none => true
    | some chosen => chosen.contains id

end MiniApp.Lint
