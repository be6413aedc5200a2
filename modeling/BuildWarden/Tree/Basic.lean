import BuildWarden.Text.Utf8
/-!
# File trees

The contents of a directory, in listing order: files, symbolic links and further directories. A
location is a list of names from the top, and `Tree.at?` looks one up. What can be seen of an entry
without looking into directories or at permissions is its aspect.
-/

namespace BuildWarden

/-- Names from the top of a tree down to an entry. -/
abbrev Location := List String

/-- An entry that has no entries of its own. -/
inductive Leaf where
  | file (content : Bytes) (executable : Bool)
  | link (target : String)
  deriving DecidableEq, Repr

/-- The entries of a directory, in listing order. -/
inductive Tree where
  | empty
  | leaf (name : String) (leaf : Leaf) (rest : Tree)
  | dir (name : String) (inside : Tree) (rest : Tree)
  deriving DecidableEq, Repr

/-- What a name or location stands for. -/
inductive Item where
  | leaf (leaf : Leaf)
  | dir (inside : Tree)
  deriving DecidableEq, Repr

/-- What can be seen of an entry without looking into directories or at permissions. -/
inductive Aspect where
  | file (content : Bytes)
  | link (target : String)
  | dir
  deriving DecidableEq, Repr

/-- The aspect of an entry. -/
def Item.aspect : Item → Aspect
  | .leaf (.file content _) => .file content
  | .leaf (.link target) => .link target
  | .dir _ => .dir

namespace Tree

/-- The entry of a name. -/
def find? (name : String) : Tree → Option Item
  | empty => none
  | leaf other found rest => if other = name then some (.leaf found) else rest.find? name
  | dir other inside rest => if other = name then some (.dir inside) else rest.find? name

/-- The entries by name. -/
def entries : Tree → List (String × Item)
  | empty => []
  | leaf name found rest => (name, .leaf found) :: rest.entries
  | dir name inside rest => (name, .dir inside) :: rest.entries

/-- What stands at a location; the top is the directory itself. -/
def at? : Tree → Location → Option Item
  | tree, [] => some (.dir tree)
  | tree, name :: rest =>
    match tree.find? name with
    | none => none
    | some (.leaf found) => if rest.isEmpty then some (.leaf found) else none
    | some (.dir inside) => inside.at? rest

/-- Whether a directory stands at a location. -/
def hasDirAt (tree : Tree) (location : Location) : Bool :=
  match tree.at? location with
  | some (.dir _) => true
  | _ => false

/-- The aspect of what stands at a location. -/
def aspect? (tree : Tree) (location : Location) : Option Aspect :=
  (tree.at? location).map (·.aspect)

end Tree
end BuildWarden
