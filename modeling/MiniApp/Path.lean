/-!
# Paths

A path is a root, if it is absolute, and its parts. Empty parts and single dots are dropped when a
path is read; double dots are kept.
-/

namespace MiniApp

/-- A path to a file or directory. -/
structure Path where
  root : String
  parts : List String
  deriving DecidableEq, Repr, Inhabited

namespace Path

/-- Whether a part of a written path counts. -/
def counts (part : String) : Bool := part != "" && part != "."

/-- Read a path. Two slashes at the front, and no more, are a root of their own. -/
def ofString (s : String) : Path where
  root :=
    if s.startsWith "///" then "/"
    else if s.startsWith "//" then "//"
    else if s.startsWith "/" then "/"
    else ""
  parts := (s.splitOn "/").filter counts

/-- The text of a path. The empty path is a dot. -/
def text (p : Path) : String :=
  if p.root.isEmpty && p.parts.isEmpty then "." else p.root ++ "/".intercalate p.parts

/-- The last part. -/
def name (p : Path) : String := p.parts.getLastD ""

/-- The last dot of a name and what follows it, unless the dot begins or ends the name. -/
def suffix (p : Path) : String :=
  let tail := p.name.toList.reverse.takeWhile (· != '.')
  if tail.isEmpty || p.name.length ≤ tail.length + 1 then ""
  else String.ofList ('.' :: tail.reverse)

/-- A path below another one. -/
def join (p : Path) (part : String) : Path := { p with parts := p.parts ++ [part] }

/-- Follow the parts of a path from a directory, double dots leading upward. -/
def follow (start : List String) (parts : List String) : List String :=
  parts.foldl (fun here part => if part = ".." then here.dropLast else here ++ [part]) start

/-- The absolute path that a path means in a working directory. -/
def resolve (p : Path) (cwd : Path) : Path :=
  if p.root.isEmpty then { cwd with parts := follow cwd.parts p.parts }
  else { p with parts := follow [] p.parts }

end Path

end MiniApp
