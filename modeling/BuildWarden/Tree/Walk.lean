import BuildWarden.Tree.Disk
/-!
# Walks

The files below a directory. At each level the files of the subdirectories come before the files of
the directory itself; beyond that the order is the listing order. Links below the start are neither
followed nor listed, though the start itself may be one.
-/

namespace BuildWarden

namespace Tree

/-- The names of the files in the directory itself. -/
def ownFiles : Tree → List String
  | empty => []
  | leaf name (.file _ _) rest => name :: rest.ownFiles
  | leaf _ (.link _) rest | dir _ _ rest => rest.ownFiles

/-- The files in the subdirectories. -/
def filesInside : Tree → List Location
  | empty => []
  | leaf _ _ rest => rest.filesInside
  | dir name inside rest =>
    (inside.filesInside ++ inside.ownFiles.map ([·])).map (name :: ·) ++ rest.filesInside

/-- All files, those of the subdirectories first. -/
def files (tree : Tree) : List Location :=
  tree.filesInside ++ tree.ownFiles.map ([·])

end Tree

/-- A file that a walk found: its path as the walk writes it, its directory and its name. -/
structure SourceFile where
  path : String
  directory : Location
  name : String
  deriving DecidableEq, Repr

namespace SourceFile

/-- Where the file is. -/
def location (file : SourceFile) : Location :=
  file.directory ++ [file.name]

/-- A file below the start of a walk. -/
def below (start : String) (location : Location) (names : Location) : SourceFile where
  path := names.foldl Path.join start
  directory := location ++ names.dropLast
  name := names.getLastD ""

/-- The file itself at the start of a walk. -/
def alone (start : String) (location : Location) : SourceFile where
  path := start
  directory := location.dropLast
  name := location.getLastD ""

end SourceFile

/-- The order in which a walk finds the entries of each directory: the same entries in another
order. -/
abbrev Listing := Tree → Tree

/-- The files below a path whose name is accepted. A path that leads nowhere has none. -/
def Disk.enumerate (disk : Disk) (listing : Listing) (start : String)
    (accepted : String → Bool) : List SourceFile :=
  let below (location : Location) (inside : Tree) :=
    ((listing inside).files.filter fun names => accepted (names.getLastD "")).map
      (SourceFile.below start location)
  match disk.locate false start with
  | .ok (.taken location (.dir inside)) => below location inside
  | .ok (.taken location (.leaf (.file _ _))) =>
    if accepted (location.getLastD "") then [.alone start location] else []
  | .ok (.taken _ (.leaf (.link _))) =>
    match disk.open? start with
    | .ok (location, .dir inside) => below location inside
    | _ => []
  | _ => []

end BuildWarden
