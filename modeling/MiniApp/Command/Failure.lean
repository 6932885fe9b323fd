import MiniApp.Eval.Evaluate
import MiniApp.Settings.Read
import MiniApp.Syntax.Parse

/-!
# Failures of commands

A command fails with a diagnostic about a program or its settings, with a complaint about what the
command was given, or by a breakdown that neither describes. A failure is shown as a few lines of
text; if asked to be verbose, complaints show their context too.
-/

namespace MiniApp.Command

/-- What a complaint is about. -/
inductive ComplaintKind where
  | general | invalid | missing
  deriving DecidableEq, Repr

/-- The code by which tools recognise a complaint. -/
def ComplaintKind.code : ComplaintKind → String
  | .general => "CLI_ERROR"
  | .invalid => "CLI_VALIDATION_ERROR"
  | .missing => "CLI_FILE_NOT_FOUND"

/-- A complaint about what a command was given. -/
structure Complaint where
  kind : ComplaintKind
  message : String
  hint : Option String := none
  context : Table := []
  code : String := kind.code

/-- Why a command failed. -/
inductive Failure where
  | diagnostic (d : Diagnostic)
  | complaint (c : Complaint)
  | breakdown (kind message : String)

/-- The context of a complaint, a line for each entry, under a heading. -/
def contextLines : Table → List String
  | [] => []
  | entries => "\nContext:" :: entries.map fun (k, v) => "  " ++ k ++ ": " ++ v.asText

namespace Failure

/-- The lines that show a failure. -/
def lines (verbose : Bool) : Failure → List String
  | .diagnostic d => ["Runtime Error in homy program:\n" ++ d.render]
  | .complaint c =>
    ("Error: " ++ c.message) :: detailLine "Hint: " c.hint ++
      if verbose then contextLines c.context else []
  | .breakdown kind message => ["Error: " ++ kind ++ ": " ++ message]

/-- A failure as text. -/
def text (verbose : Bool) (f : Failure) : String := "\n".intercalate (f.lines verbose)

/-- What stands under the heading for a trace. Calls are not traced. -/
def traceText : String := "<omitted>"

/-- A failure as text, with a trace if it is to be verbose. -/
def report (verbose : Bool) (f : Failure) : String :=
  "\n".intercalate (f.lines verbose ++ if verbose then ["\nTraceback:", traceText] else [])

/-- A fault as a failure. -/
def ofFault (f : Fault) : Failure := .breakdown f.kind f.message

/-- A failure to read a file as a failure. -/
def ofFile (f : FileFailure) : Failure := .breakdown f.kind f.message

/-- A failure of settings as a failure. -/
def ofSettings : SettingsFailure → Failure
  | .rejected d => .diagnostic d
  | .mismatch m => .breakdown m.kind m.message
  | .fault f => ofFault f
  | .file f => ofFile f

/-- A failure of parsing as a failure. -/
def ofParse : ParseFailure → Failure
  | .rejected d | .nestedTooDeeply d => .diagnostic d
  | .fault f => ofFault f

/-- A failure of a run as a failure. -/
def ofRun (path : String) : RunFailure → Failure
  | .rejected d => .diagnostic d
  | .fault f => ofFault f
  | .nestedTooDeeply => .diagnostic (deepRun path)
  | .dangling => .breakdown "IndexError" "list index out of range"
  | .noSection => .breakdown "AttributeError" "'NoneType' object has no attribute 'content'"
  | .outOfPatience => .breakdown "TimeoutError" "the run does not end"

end Failure

end MiniApp.Command
