import BuildWarden.Fault
import BuildWarden.Guideline.ModuleGraph
import BuildWarden.Toml.Reader
import BuildWarden.Tree.Disk
/-!
# Graph files

A module graph is declared in a file: below `modules`, each module has the list of its dependencies.
Where there is no file nothing is declared.
-/

namespace BuildWarden.ModuleGraph

open Settings (Scalar Table)

/-- The texts of a list, if all items are texts. -/
def texts? (items : List Scalar) : Option (List String) :=
  items.mapM fun
    | .text content => some content
    | _ => none

/-- The declarations of a table, each of which must be a list of texts. -/
def declarations? : Table → Option (List (String × List String))
  | .empty => some []
  | .scalar name _ (.list items) rest => do
    return (name, ← texts? items) :: (← declarations? rest)
  | .scalar _ _ _ _ | .table _ _ _ _ => none

/-- The graph that a document declares. -/
def ofSettings? (settings : Table) : Option ModuleGraph :=
  match settings.find? "modules" with
  | none => some {}
  | some (.table _ inside) => (declarations? inside).map ofList
  | some (.scalar _ _) => none

/-- Reads the graph that the file at a path declares. -/
def load (disk : Disk) (path : String) : Except Fault ModuleGraph :=
  if !disk.isThere path then .ok {}
  else
    match disk.read path with
    | .error fault => .error (.os fault)
    | .ok content =>
      match Text.Utf8.decode? content with
      | none => .error (.os .invalid)
      | some text =>
        match (Toml.parse? text).bind fun document => ofSettings? (document.settings .builtin) with
        | some graph => .ok graph
        | none => .error (.invalidGraph path)

end BuildWarden.ModuleGraph
