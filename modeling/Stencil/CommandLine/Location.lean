import Stencil.Text

/-!
File names in paths.

A path is cut at its slashes; empty pieces and `.` lead nowhere. The file name is
the last piece, and the extension of a name is what stands behind its last dot,
unless that dot begins the name.
-/

namespace Stencil.CommandLine.Location

/-- The pieces of a path that lead somewhere. -/
def pieces (path : String) : List String :=
  ((Text.splitAt '/' path.toList).map String.ofList).filter fun piece =>
    piece != "" && piece != "."

/-- The name of the file at a path. The path itself stands for a name that it does
not have. -/
def fileName (path : String) : String :=
  match (pieces path).getLast? with
  | some name => if name = ".." then path else name
  | none => path

/-- What stands behind the last dot of a file name, in small letters. -/
def extension? (path : String) : Option String :=
  match Text.splitAt '.' (fileName path).toList with
  | [] | [_] | [[], _] => none
  | parts => parts.getLast?.map fun part => String.ofList (part.map Char.toLower)

example : extension? "dir.d/w.tar.YML" = some "yml" ∧ extension? "a/.json" = none ∧
    extension? "w" = none := by decide

end Stencil.CommandLine.Location
