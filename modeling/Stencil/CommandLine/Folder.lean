import Stencil.CommandLine.Location

/-!
A folder of files in memory.

Files have paths relative to the folder. A path is followed piece by piece as a
file system does it: every piece but the last must lead to a folder, `..` leads
back, and nothing outside of the folder is reached.
-/

namespace Stencil.CommandLine

/-- Files by their paths. -/
structure Folder where
  files : List (String × String)

namespace Folder

/-- The pieces lead from the top to a folder: to the top itself, or to a folder with
files in or below it. Pieces are given last one first. -/
def isFolder (folder : Folder) (place : List String) : Bool :=
  place.isEmpty || folder.files.any fun file =>
    let pieces := Location.pieces file.1
    place.reverse.isPrefixOf pieces && place.length < pieces.length

/-- Where pieces lead from a place. -/
def follow (folder : Folder) : List String → List String → Option (List String)
  | place, [] => some place
  | place, piece :: rest =>
    if !folder.isFolder place then
      none
    else if piece = ".." then
      match place with
      | [] => none
      | _ :: outer => folder.follow outer rest
    else
      folder.follow (piece :: place) rest

/-- The text of the file at a path. A path that ends in a slash or in `.` leads to no
file. -/
def read? (folder : Folder) (path : String) : Option String :=
  let parts := (Text.splitAt '/' path.toList).map String.ofList
  let last := parts.getLast?.getD ""
  if parts.head? = some "" ∨ last = "" ∨ last = "." then
    none
  else
    (folder.follow [] (Location.pieces path)).bind fun place =>
      (folder.files.find? fun file => Location.pieces file.1 == place.reverse).map Prod.snd

example : (Folder.mk [("a/t", "x")]).read? "./a/../a//t" = some "x" ∧
    (Folder.mk [("a/t", "x")]).read? "b/../a/t" = none := by decide

end Folder

end Stencil.CommandLine
