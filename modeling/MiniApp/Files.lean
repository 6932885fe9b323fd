import MiniApp.Path
import MiniApp.Text.Utf8

/-!
# Files

The files that a command can see, as a table from paths to contents. Paths are meant relative to a
working directory; a path through double dots is followed directory by directory.
-/

namespace MiniApp

/-- What stands at a path. -/
inductive FileNode where
  | file (bytes : List UInt8)
  | directory
  deriving DecidableEq, Repr

/-- The files below a working directory. -/
structure Files where
  cwd : Path
  entries : List (Path × FileNode) := []

/-- Where following a path has led: to a place below the working directory, or a number of levels
above it. -/
inductive Place where
  | below (parts : List String)
  | above (levels : Nat)
  deriving DecidableEq, Repr

namespace Files

/-- What stands at a place below the working directory. Directories that hold something exist. -/
def nodeBelow? (fs : Files) (parts : List String) : Option FileNode :=
  if parts.isEmpty then some .directory
  else
    match fs.entries.lookup ⟨"", parts⟩ with
    | some n => some n
    | none =>
      if fs.entries.any fun e => e.1.root.isEmpty && parts.isPrefixOf e.1.parts then some .directory
      else none

/-- What stands at a place. -/
def nodeAt? (fs : Files) : Place → Option FileNode
  | .below parts => fs.nodeBelow? parts
  | .above _ => some .directory

/-- Follow the parts of a path through existing directories. -/
def walk? (fs : Files) : Place → List String → Option Place
  | here, [] => some here
  | here, part :: rest =>
    match fs.nodeAt? here, here, part with
    | some .directory, .below parts, ".." =>
      walk? fs (if parts.isEmpty then .above 1 else .below parts.dropLast) rest
    | some .directory, .above n, ".." => walk? fs (.above (n + 1)) rest
    | some .directory, .below parts, name => walk? fs (.below (parts ++ [name])) rest
    | _, _, _ => none

/-- The parts of a path below the working directory. -/
def relative? (fs : Files) (p : Path) : Option (List String) :=
  if p.root = fs.cwd.root && fs.cwd.parts.isPrefixOf p.parts then
    some (p.parts.drop fs.cwd.parts.length)
  else if p.root.isEmpty then some p.parts
  else none

/-- The place that a path leads to, if something is there. -/
def locate? (fs : Files) (p : Path) : Option Place := do
  let parts ← fs.relative? p
  let place ← fs.walk? (.below []) parts
  let _ ← fs.nodeAt? place
  return place

/-- Whether a path leads from a root to a directory that holds the working directory. -/
def isAbove (fs : Files) (p : Path) : Bool := !p.root.isEmpty && p.parts.isPrefixOf fs.cwd.parts

/-- What stands at a path. -/
def node? (fs : Files) (p : Path) : Option FileNode :=
  match fs.entries.lookup p with
  | some n => some n
  | none => if fs.isAbove p then some .directory else (fs.locate? p).bind fs.nodeAt?

/-- Whether anything stands at a path. -/
def contains (fs : Files) (p : Path) : Bool := (fs.node? p).isSome

/-- Whether a file stands at a path. -/
def isFile (fs : Files) (p : Path) : Bool :=
  match fs.node? p with
  | some (.file _) => true
  | _ => false

/-- Replace the content of a file. -/
def write (fs : Files) (p : Path) (bytes : List UInt8) : Files :=
  let key : Path := match fs.locate? p with
    | some (.below parts) => ⟨"", parts⟩
    | _ => p
  { fs with entries := fs.entries.map fun e => if e.1 = key then (key, .file bytes) else e }

end Files

/-- Why a file could not be read. -/
inductive FileFailure where
  | missing (path : String)
  | directory (path : String)
  | undecodable (u : Text.Undecodable)
  deriving DecidableEq, Repr

namespace FileFailure

/-- The kind of failure, as reports name it. -/
def kind : FileFailure → String
  | .missing _ => "FileNotFoundError"
  | .directory _ => "IsADirectoryError"
  | .undecodable _ => "UnicodeDecodeError"

/-- The failure in words. -/
def message : FileFailure → String
  | .missing path => "[Errno 2] No such file or directory: " ++ Text.quoted path
  | .directory path => "[Errno 21] Is a directory: " ++ Text.quoted path
  | .undecodable u => u.message

end FileFailure

namespace Files

/-- The bytes of a file. -/
def read (fs : Files) (p : Path) : Except FileFailure (List UInt8) :=
  match fs.node? p with
  | some (.file bytes) => .ok bytes
  | some .directory => .error (.directory p.text)
  | none => .error (.missing p.text)

/-- The text of a file, with line feeds only. -/
def readText (fs : Files) (p : Path) : Except FileFailure String := do
  let bytes ← fs.read p
  (Text.decodeText bytes).mapError .undecodable

end Files

end MiniApp
