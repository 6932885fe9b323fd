import MiniApp.Settings.Read

/-!
# Finding settings

The file with the settings is the one asked for. If none is, it is the file of their own in the root
directory, or else the shared one if it mentions the tool.
-/

namespace MiniApp.Settings

/-- The table that a file holds. -/
def readTable (fs : Files) (p : Path) : Except SettingsFailure Table := do
  let bytes ← (fs.read p).mapError .file
  let text ← (Text.decode bytes).mapError fun u => .file (.undecodable u)
  match Data.ofToml text with
  | .ok t => return t
  | .error .malformed => .error (.refusal (some p) "Invalid TOML: malformed document")
  | .error (.tooManyDigits count) => .error (.fault (.digitLimit (some count)))

/-- The file with the settings, if there is one. -/
def locate (fs : Files) (root : Path) (asked : Option Path) :
    Except SettingsFailure (Option Path) :=
  match asked with
  | some p =>
    if fs.contains p then .ok (some p)
    else .error (.refusal (some p) "Configuration file not found")
  | none =>
    let own := root.join ownFile
    let shared := root.join sharedFile
    if fs.contains own then .ok (some own)
    else if fs.contains shared then do
      let t ← readTable fs shared
      let mentioned ← ((subtable "tool" t).holds "homy").mapError .mismatch
      return if mentioned then some shared else none
    else .ok none

/-- The settings for a root directory, by the file with the settings and the environment. -/
def load (fs : Files) (root : Path) (asked : Option Path) (env : Environment) :
    Except SettingsFailure Settings := do
  let settings ← match ← locate fs (root.resolve fs.cwd) asked with
    | none => pure {}
    | some p => ofTable (some p) (← readTable fs p)
  settings.override env

end MiniApp.Settings
