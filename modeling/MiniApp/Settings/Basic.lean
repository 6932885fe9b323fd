import MiniApp.Eval.Session
import MiniApp.Lint.Basic
import MiniApp.Path

/-!
# Settings

Everything that can be set for a run of a command: the limits of runs, the lint rules, the ending of
source files and how much is logged.
-/

namespace MiniApp

/-- How important a log record has to be to be written. -/
inductive LogLevel where
  | debug | info | warning | error | critical
  deriving DecidableEq, Repr

namespace LogLevel

/-- All levels, from the most to the least talkative. -/
def all : List LogLevel := [debug, info, warning, error, critical]

/-- The word for a level. -/
def word : LogLevel → String
  | debug => "debug"
  | info => "info"
  | warning => "warning"
  | error => "error"
  | critical => "critical"

/-- The level that a word stands for. -/
def ofWord? (s : String) : Option LogLevel := all.find? (·.word == s)

end LogLevel

/-- The settings of a command. -/
structure Settings where
  run : RunSettings := {}
  lint : Lint.Settings := {}
  fileExtension : String := ".homy"
  logLevel : LogLevel := .info
  /-- The file that the settings come from. -/
  source : Option Path := none

end MiniApp
