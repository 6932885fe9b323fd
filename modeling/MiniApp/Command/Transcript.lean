import MiniApp.Command.Failure

/-!
# What commands do

A command prints text and tables, gives notices, changes files and ends with an exit code. All this
is recorded in a transcript. A command that fails leaves what it did before.
-/

namespace MiniApp.Command

/-- A record for the log. -/
structure LogRecord where
  logger : String
  level : LogLevel
  message : String
  deriving DecidableEq, Repr

/-- The record as a line of text, given the time. -/
def LogRecord.text (time : String) (r : LogRecord) : String :=
  " - ".intercalate [time, r.logger, r.level.word.map Char.toUpper, r.message]

/-- Something for the standard error stream. -/
inductive Notice where
  | log (r : LogRecord)
  | text (s : String)
  deriving DecidableEq, Repr

/-- A notice as text, given the time. -/
def Notice.render (time : String) : Notice → String
  | .log r => r.text time ++ "\n"
  | .text s => s

/-- A table to be shown. -/
structure Grid where
  title : String
  headers : List String
  rows : List (List String)
  deriving DecidableEq, Repr

namespace Grid

/-- The width of each column: that of its widest cell. -/
def widths (g : Grid) : List Nat :=
  (g.headers :: g.rows).foldl (fun ws row =>
    ws.zipWith max (row.map String.length)) (g.headers.map fun _ => 0)

/-- A row of cells, each filled up to the width of its column. -/
def rowText (ws : List Nat) (row : List String) : String :=
  "  ".intercalate (ws.zipWith (fun w cell => cell.pushn ' ' (w - cell.length)) row)

/-- The table as text: title, headers, a rule and the rows. -/
def text (g : Grid) : String :=
  let ws := g.widths
  let rule := rowText ws (ws.map fun w => "".pushn '-' w)
  String.join (([g.title, rowText ws g.headers, rule] ++ g.rows.map (rowText ws)).map (· ++ "\n"))

end Grid

/-- What a command has done. -/
structure Transcript where
  files : Files
  exit : Nat := 0
  stdout : String := ""
  notices : List Notice := []
  grids : List Grid := []
  /-- The fault that ended the command without a report, if one did. -/
  breakdown : Option Fault := none

namespace Transcript

/-- Print text. -/
def print (t : Transcript) (s : String) : Transcript := { t with stdout := t.stdout ++ s }

/-- Give a notice. -/
def notify (t : Transcript) (n : Notice) : Transcript := { t with notices := t.notices ++ [n] }

/-- Show a table. -/
def tabulate (t : Transcript) (g : Grid) : Transcript := { t with grids := t.grids ++ [g] }

/-- What went to the standard error stream, given the time. -/
def stderr (t : Transcript) (time : String) : String :=
  String.join (t.notices.map (Notice.render time))

end Transcript

/-- The work of a command, which adds to a transcript and may fail. -/
abbrev Work := EStateM Failure Transcript

namespace Work

variable {α : Type}

/-- Print text. -/
def print (s : String) : Work Unit := modify (·.print s)

/-- Show a table. -/
def tabulate (g : Grid) : Work Unit := modify (·.tabulate g)

/-- End with an exit code, unless a failure gives another one. -/
def exitWith (code : Nat) : Work Unit := modify ({ · with exit := code })

/-- End on a fault that is not reported. -/
def breakDown (f : Fault) : Work Unit := modify ({ · with exit := 1, breakdown := some f })

/-- Log a record if the level admits it. All records are of the most talkative level. -/
def log (level : LogLevel) (logger message : String) : Work Unit :=
  if level = .debug then modify (·.notify (.log ⟨logger, .debug, message⟩)) else pure ()

/-- A computation that may fail. -/
def ofExcept {ε : Type} (convert : ε → Failure) : Except ε α → Work α
  | .ok a => pure a
  | .error e => throw (convert e)

/-- Carry out work. A failure is reported and gives the exit code one. -/
def perform (verbose : Bool) (work : Work Unit) (t : Transcript) : Transcript :=
  match work t with
  | .ok _ t => t
  | .error f t => { t.notify (.text (f.report verbose ++ "\n")) with exit := 1 }

end Work

end MiniApp.Command
