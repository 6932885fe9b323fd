import MiniApp.Command.Arguments
import MiniApp.Command.Source
import MiniApp.Command.Transcript
import MiniApp.Lint.File
import MiniApp.Settings.Load
import MiniApp.Syntax.Print

/-!
# Carrying out commands

Four commands work on a source file: `run` runs a program and shows the application it describes,
`lint` reports what its text looks like, `tokens` lists its tokens and `format` writes it in its
canonical form.

## Main definitions

* `execute`: the transcript of an invocation of the tool
-/

namespace MiniApp.Command

/-- What the tool finds around it. -/
structure Host where
  files : Files
  environment : Environment := []

/-- The words by which a variable switches something on. -/
def affirmations : List String := ["1", "true", "yes", "on"]

/-- Whether a variable switches something on. -/
def isOn (env : Environment) (name : String) : Bool :=
  (env.lookup name).any fun s =>
    affirmations.contains (Text.lowercase (String.ofList (Text.trimBlanks s.toList)))

/-- Whether reports of failures are verbose, by the flag or by the environment. -/
def isVerbose (env : Environment) (flag : Bool) : Bool :=
  flag || isOn env "HOMY_VERBOSE" || isOn env "HOMY_DEBUG"

/-- What work on a file goes by: the settings and the level of logging. -/
structure Terms where
  settings : Settings
  level : LogLevel

namespace Terms

/-- The path and the text of the source file that a task names. -/
def readSource (c : Terms) (file : String) : Work (Path × String) := do
  let t ← get
  let path ← Work.ofExcept .complaint (sourcePath t.files c.settings.fileExtension (.str file))
  let text ← Work.ofExcept .ofFile (t.files.readText path)
  return (path, text)

/-- The tokens of a text. -/
def scan (c : Terms) (path source : String) : Work (List Token) := do
  let tokens ← Work.ofExcept .diagnostic (Token.scan path source)
  Work.log c.level "homy.lexer"
    ("Tokenized " ++ path ++ " into " ++ toString tokens.length ++ " tokens")
  return tokens

/-- The program that a text spells. -/
def parse (c : Terms) (path source : String) : Work Program := do
  let tokens ← c.scan path source
  let program ← Work.ofExcept .ofParse (Program.parseTokens path tokens)
  Work.log c.level "homy.parser.parse"
    ("Parsed " ++ toString program.body.length ++ " top-level statements from " ++ path)
  return program

/-- The message that logs an event. -/
def eventText : Event → String
  | .propertySet field value => "Set " ++ field ++ " = " ++ value.literal
  | .printed pos text =>
    "print at " ++ toString pos.line ++ ":" ++ toString pos.column ++ ": " ++ text
  | .emitted value => "Body content += " ++ value.listing

/-- Log what runs do. -/
def logRun (c : Terms) (message : String) : Work Unit :=
  Work.log c.level "homy.runtime.evaluator" message

/-- Run a program and give the application it describes. -/
def runProgram (c : Terms) (path : String) (p : Program) : Work App := do
  let cx : Context := { settings := c.settings.run, patience := defaultPatience }
  let (failure, session) := Session.run cx executionAllowance path p {}
  session.trace.toList.forM fun e => c.logRun (eventText e)
  Work.print session.output
  match failure with
  | some f => throw (.ofRun path f)
  | none =>
    c.logRun ("Evaluated " ++ path ++ " in " ++ toString session.meter.steps ++ " steps")
    return session.app

end Terms

/-- A cell for a property: a dash if it is not set. -/
def propertyCell : Data → String
  | .null => "-"
  | d => d.asText

/-- The rows for the body section. -/
def bodyRows : Option Section → List (List String)
  | none => [["body", "-"]]
  | some s =>
    ["body.styleReference", s.style] :: s.content.toList.zipIdx.map fun (v, i) =>
      ["body.content[" ++ toString i ++ "]", v.toData.asText]

/-- An application as a table. -/
def appGrid (title : String) (a : App) : Grid where
  title := title
  headers := ["Property", "Value"]
  rows := [
    ["name", propertyCell a.name],
    ["isWebPackage", propertyCell a.isWebPackage],
    ["webVersion", propertyCell a.webVersion],
    ["miniVersion", propertyCell a.miniVersion],
    ["iconPath", propertyCell a.iconPath]] ++ bodyRows a.body

/-- Tokens as a table. -/
def tokenGrid (title : String) (tokens : List Token) : Grid where
  title := title ++ " (" ++ toString tokens.length ++ " tokens)"
  headers := ["Position", "Type", "Value"]
  rows := tokens.map fun t =>
    [toString t.pos.line ++ ":" ++ toString t.pos.column, t.kind.name, t.text]

namespace Terms

/-- Run a source file. Showing an application that cannot be written as text is a breakdown, because
only the run itself is watched for failures. -/
def run (c : Terms) (file : String) (asJson : Bool) : Work Unit := do
  let (path, source) ← c.readSource file
  let app ← c.runProgram path.text (← c.parse path.text source)
  match app.toJson App.defaultIndent with
  | .ok json => if asJson then Work.print (json ++ "\n") else Work.tabulate (appGrid path.name app)
  | .error f => Work.breakDown f

/-- Lint a source file. -/
def lint (c : Terms) (file : String) : Work Unit := do
  let (path, source) ← c.readSource file
  let report := Lint.lint (Lint.defaultRules c.settings.lint) path.text source
  Work.log c.level "homy.linter.core"
    ("Linted " ++ path.text ++ ": " ++ toString report.findings.length ++ " finding(s)")
  if report.hasIssues then
    Work.print ("Issues found in \"" ++ path.name ++ "\":\n")
    report.findings.forM fun f => Work.print (f.format ++ "\n")
    Work.exitWith 1
  else Work.print ("No issues found in \"" ++ path.name ++ "\".\n")

/-- List the tokens of a source file. -/
def tokens (c : Terms) (file : String) : Work Unit := do
  let (path, source) ← c.readSource file
  Work.tabulate (tokenGrid path.name (← c.scan path.text source))

/-- Format a source file. -/
def format (c : Terms) (file : String) (inPlace : Bool) : Work Unit := do
  let (path, source) ← c.readSource file
  let text := (← c.parse path.text source).format Program.defaultIndent
  if inPlace then
    modify fun t => { t with files := t.files.write path text.toUTF8.toList }
    Work.print ("Formatted " ++ path.text ++ "\n")
  else Work.print text

/-- Carry out a task. -/
def carryOut (c : Terms) (task : Task) : Work Unit :=
  match task.verb with
  | .run => c.run task.file task.asJson
  | .lint => c.lint task.file
  | .tokens => c.tokens task.file
  | .format => c.format task.file task.inPlace

end Terms

/-- The terms of an invocation. -/
def Invocation.terms (i : Invocation) (host : Host) : Except SettingsFailure Terms := do
  let settings ← Settings.load host.files (Path.ofString ".") (i.config.map Path.ofString)
    host.environment
  return { settings, level := i.logLevel.getD settings.logLevel }

/-- The text that explains how to use the tool. -/
def helpText : String :=
  "usage: homy [-h] [--version] [--config CONFIG] [--verbose] [--log-level LEVEL] " ++
  "COMMAND FILE\n\n" ++
  "commands:\n" ++
  "  run FILE [--json]      execute a program and show the application it describes\n" ++
  "  lint FILE              check source text against the style rules\n" ++
  "  tokens FILE            list the tokens\n" ++
  "  format FILE [--write]  print the canonical source form\n"

/-- The text that names the tool and its version. -/
def versionText : String := "homy 0.1.0\n"

/-- What happens when arguments lead to no command. -/
def Stop.transcript (fs : Files) : Stop → Transcript
  | .help _ => { files := fs, stdout := helpText }
  | .version => { files := fs, stdout := versionText }
  | .misuse program message =>
    { files := fs, exit := 2, notices := [.text (program ++ ": error: " ++ message ++ "\n")] }

/-- The transcript of an invocation of the tool with the given arguments. -/
def execute (host : Host) (args : List String) : Transcript :=
  match Invocation.ofArguments args with
  | .error stop => stop.transcript host.files
  | .ok i =>
    match i.task with
    | none => { files := host.files, exit := 1, notices := [.text helpText] }
    | some task =>
      let work : Work Unit := do
        let terms ← Work.ofExcept .ofSettings (i.terms host)
        terms.carryOut task
      work.perform (isVerbose host.environment i.verbose) { files := host.files }

end MiniApp.Command
