import BuildWarden.Fault
import BuildWarden.Path
import BuildWarden.Tree.Changes
/-!
# Disks

A tree with a working directory, and paths that are followed in it: dots, links and slashes at the
end mean what they mean to an operating system. Each operation either succeeds or is refused, and a
refused operation changes nothing.
-/

namespace BuildWarden

/-- A tree, the directory that relative paths start from, and what cannot be written. -/
structure Disk where
  tree : Tree
  here : Location := []
  locked : Location → Bool := fun _ => false

/-- Where a path leads. -/
inductive Place where
  | taken (location : Location) (item : Item)
  /-- Nothing is there, but its directory exists -/
  | vacant (location : Location)

namespace Disk

/-- More links than this are not followed on the way of one path. -/
def mostLinks : Nat := 40

/-- The steps of a path, in order. A slash at the end asks for a directory. -/
def steps (path : String) : List String :=
  let named := (Path.pieces path).map String.ofList
  match named.reverse with
  | "" :: front => front.reverse.filter (· != "") ++ ["."]
  | _ => named.filter (· != "")

/-- Follows steps from a directory. A link at the end is followed if asked for. -/
def follow (disk : Disk) (last : Bool) (links : Nat) (location : Location) :
    List String → Except OsFault Place
  | [] =>
    match disk.tree.at? location with
    | some item => .ok (.taken location item)
    | none => .error .missing
  | "." :: rest => disk.follow last links location rest
  | ".." :: rest => disk.follow last links location.dropLast rest
  | name :: rest =>
    let next := location ++ [name]
    match disk.tree.at? next with
    | none =>
      if rest.isEmpty && disk.tree.hasDirAt location then .ok (.vacant next) else .error .missing
    | some (.dir _) => disk.follow last links next rest
    | some (.leaf (.file content executable)) =>
      if rest.isEmpty then .ok (.taken next (.leaf (.file content executable)))
      else .error .notDirectory
    | some (.leaf (.link target)) =>
      if rest.isEmpty && !last then .ok (.taken next (.leaf (.link target)))
      else
        match links with
        | 0 => .error .linkLoop
        | links + 1 =>
          if target.isEmpty then .error .missing
          else
            disk.follow last links (if Path.isAbsolute target then [] else location)
              (steps target ++ rest)
termination_by rest => (links, rest.length)

/-- Where a path leads from a directory. -/
def locateFrom (disk : Disk) (last : Bool) (location : Location) (path : String) :
    Except OsFault Place :=
  if path.isEmpty then .error .missing
  else
    disk.follow last mostLinks (if Path.isAbsolute path then [] else location) (steps path)

/-- Where a path leads from the working directory. -/
def locate (disk : Disk) (last : Bool) (path : String) : Except OsFault Place :=
  disk.locateFrom last disk.here path

/-- What a path leads to, links followed. -/
def open? (disk : Disk) (path : String) : Except OsFault (Location × Item) :=
  match disk.locate true path with
  | .ok (.taken location item) => .ok (location, item)
  | .ok (.vacant _) => .error .missing
  | .error fault => .error fault

/-- Whether a path leads to anything. -/
def isThere (disk : Disk) (path : String) : Bool :=
  (disk.open? path).isOk

/-- Whether a path leads to a directory. -/
def isDir (disk : Disk) (path : String) : Bool :=
  match disk.open? path with
  | .ok (_, .dir _) => true
  | _ => false

/-- The content of an item that is a file. -/
def contentOf : Item → Except OsFault Bytes
  | .leaf (.file content _) => .ok content
  | .leaf (.link _) => .error .missing
  | .dir _ => .error .isDirectory

/-- Reads a file. -/
def read (disk : Disk) (path : String) : Except OsFault Bytes := do
  contentOf (← disk.open? path).2

/-- Writes a file where a path led. A file that is there keeps its permissions. -/
def writeAt (disk : Disk) (content : Bytes) : Place → Except OsFault Disk
  | .taken location (.leaf (.file _ executable)) =>
    if disk.locked location then .error .denied
    else
      .ok { disk with tree := disk.tree.put location (.leaf (.file content executable)) }
  | .taken _ (.leaf (.link _)) => .error .missing
  | .taken _ (.dir _) => .error .isDirectory
  | .vacant location =>
    if disk.locked location then .error .denied
    else .ok { disk with tree := disk.tree.put location (.leaf (.file content false)) }

/-- Writes a file; a new one is made where nothing is. -/
def write (disk : Disk) (path : String) (content : Bytes) : Except OsFault Disk := do
  disk.writeAt content (← disk.locate true path)

/-- Writes a file in a directory. -/
def writeIn (disk : Disk) (location : Location) (name : String) (content : Bytes) :
    Except OsFault Disk := do
  disk.writeAt content (← disk.locateFrom true location name)

/-- Whether a name in a directory leads to a file. -/
def isFileIn (disk : Disk) (location : Location) (name : String) : Bool :=
  match disk.locateFrom true location name with
  | .ok (.taken _ (.leaf (.file _ _))) => true
  | _ => false

/-- Makes one directory; those on the way to it have to be there. A link at the end of the way is
not followed. -/
def makeDir (disk : Disk) (location : Location) (way : List String) : Except OsFault Disk :=
  match disk.follow false mostLinks location way with
  | .ok (.vacant next) =>
    if disk.locked next then .error .denied
    else .ok { disk with tree := disk.tree.put next (.dir .empty) }
  | .ok (.taken _ _) => .error .exists
  | .error fault => .error fault

/-- Whether steps lead to a directory. -/
def leadsToDir (disk : Disk) (location : Location) (way : List String) : Bool :=
  match disk.follow true mostLinks location way with
  | .ok (.taken _ (.dir _)) => true
  | _ => false

/-- Makes one directory, unless it is there. -/
def ensureDir (disk : Disk) (location : Location) (way : List String) : Disk × Option OsFault :=
  match disk.makeDir location way with
  | .ok made => (made, none)
  | .error fault => (disk, if disk.leadsToDir location way then none else some fault)

/-- Makes a directory and those above it, where they are not there yet. The steps are given from the
last to the first. What was made before a refusal stays. -/
def ensureDirs (location : Location) : (steps : List String) → Disk → Disk × Option OsFault
  | [], disk => (disk, none)
  | step :: above, disk =>
    match disk.makeDir location (step :: above).reverse with
    | .error .missing =>
      match ensureDirs location above disk with
      | (disk, none) => disk.ensureDir location (step :: above).reverse
      | refused => refused
    | _ => disk.ensureDir location (step :: above).reverse

/-- Makes a directory and those above it, where they are not there yet. -/
def makeDirs (disk : Disk) (path : String) : Disk × Option OsFault :=
  disk.ensureDirs (if Path.isAbsolute path then [] else disk.here) (steps path).reverse

/-- Removes a directory with all that is in it, or a link. A directory that is named by its own dots
is emptied, and the removal is refused then. -/
def removeTree (disk : Disk) (path : String) : Disk × Option OsFault :=
  match disk.locate false path with
  | .error fault => (disk, some fault)
  | .ok (.vacant _) => (disk, some .missing)
  | .ok (.taken location (.leaf (.link _))) =>
    ({ disk with tree := disk.tree.erase location }, none)
  | .ok (.taken _ (.leaf (.file _ _))) => (disk, some .notDirectory)
  | .ok (.taken location (.dir _)) =>
    match (steps path).getLast? with
    | some "." | some ".." | none =>
      ({ disk with tree := disk.tree.alterAt (fun _ => some (.dir .empty)) location },
        some .invalid)
    | some _ => ({ disk with tree := disk.tree.erase location }, none)

end Disk
end BuildWarden
