import MiniApp.Command.Failure

/-!
# Source files of commands

What a command is given as the path of a source file is checked before the file is read: it has to
be a path, something has to be there, the ending has to be right, and it has to be a file.
-/

namespace MiniApp.Command

/-- The complaint about a path that is not given. -/
def pathWanted : Complaint where
  kind := .invalid
  message := "Usage: homy <file_path>"
  hint := some "Provide the path of a source file"

/-- The complaint about a value that is no path. -/
def notPath (value : Data) : Complaint where
  kind := .invalid
  message := "Expected path-like value, got " ++ value.typeName
  hint := some "Provide a string or Path object"

/-- The complaint about a path where nothing is. -/
def nothingAt (p : Path) : Complaint where
  kind := .missing
  message := "File not found at " ++ p.text
  hint := some "Ensure the file exists before running this command"

/-- The complaint about a wrong ending. -/
def wrongEnding (p : Path) (wanted : String) : Complaint where
  kind := .invalid
  message := "Invalid file extension. Expected " ++ wanted
  hint := some ("Rename the file to end with " ++ wanted)
  context := [("path", .str p.text), ("extension", .str p.suffix)]

/-- The complaint about something that is no file. -/
def notFile (p : Path) : Complaint where
  kind := .invalid
  message := "Not a file: " ++ p.text

/-- The path that a value gives; something has to be there if that is demanded. -/
def givenPath (fs : Files) (mustExist : Bool) : Data → Except Complaint Path
  | .null => .error pathWanted
  | .str s =>
    let p := Path.ofString s
    if mustExist && !fs.contains p then .error (nothingAt p) else .ok p
  | d => .error (notPath d)

/-- The path that a value gives; no value gives none. -/
def givenPath? (fs : Files) (mustExist : Bool) : Data → Except Complaint (Option Path)
  | .null => .ok none
  | d => some <$> givenPath fs mustExist d

/-- The path of a source file with the given ending. -/
def sourcePath (fs : Files) (ending : String) (value : Data) : Except Complaint Path := do
  let p ← givenPath fs true value
  if p.suffix ≠ ending then .error (wrongEnding p ending)
  else if !fs.isFile p then .error (notFile p)
  else return p

end MiniApp.Command
