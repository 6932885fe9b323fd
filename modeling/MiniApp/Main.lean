import MiniApp.Command.Execute

/-!
# The program

The files that arguments may name and the variables that matter are gathered, the command is carried
out on them, and its transcript is played back: files that changed are written, and text goes to the
standard streams.
-/

namespace MiniApp.Shell

/-- The variables of the environment that matter. -/
def variableNames : List String :=
  ["HOMY_LOG_LEVEL", "HOMY_MAX_CALL_DEPTH", "HOMY_MAX_STEPS", "HOMY_MAX_LINE_LENGTH",
    "HOMY_VERBOSE", "HOMY_DEBUG"]

/-- The paths that arguments may name: each one, what is attached to a flag, and the files where
settings are looked for. -/
def mentioned (args : List String) : List Path :=
  let attached := args.filterMap fun a => (Command.splitEquals? a).map (·.2)
  (args ++ attached ++ [Settings.ownFile, Settings.sharedFile]).map Path.ofString

/-- What stands at a path. -/
def inspect (p : Path) : IO (Option FileNode) := do
  let place := (← IO.currentDir) / p.text
  if ← place.isDir then return some .directory
  else if ← place.pathExists then
    let bytes ← IO.FS.readBinFile place
    return some (.file bytes.toList)
  else return none

/-- Gather what stands at the given paths. -/
def gather (paths : List Path) : IO (List (Path × FileNode)) :=
  paths.filterMapM fun p => do return (← inspect p).map fun node => (p, node)

/-- The variables that are set. -/
def readEnvironment : IO Environment :=
  variableNames.filterMapM fun name => do return (← IO.getEnv name).map fun value => (name, value)

/-- Write the files that a command changed. -/
def writeChanges (before after : Files) : IO Unit :=
  for (entry, old) in after.entries.zip before.entries do
    match entry.2 with
    | .file bytes =>
      if entry.2 ≠ old.2 then IO.FS.writeBinFile entry.1.text ⟨bytes.toArray⟩
    | .directory => pure ()

end MiniApp.Shell

open MiniApp in
/-- Carry out the command that the arguments give. -/
def main (args : List String) : IO UInt32 := do
  let cwd := Path.ofString (← IO.currentDir).toString
  let files : Files := { cwd, entries := ← Shell.gather (Shell.mentioned args) }
  let environment ← Shell.readEnvironment
  let transcript := Command.execute { files, environment } args
  Shell.writeChanges files transcript.files
  IO.print transcript.stdout
  transcript.grids.forM fun g => IO.print g.text
  IO.eprint (transcript.stderr (toString (← IO.monoMsNow)))
  transcript.breakdown.forM fun f => IO.eprintln (f.kind ++ ": " ++ f.message)
  return transcript.exit.toUInt32
