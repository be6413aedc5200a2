import BuildWarden.Tree.Basic
/-!
# Changes of a tree

`Tree.alterAt` is the one operation that changes, adds or removes what is at a location. What
differs between two states of a tree is told by location: what is new or has another content, and
what is gone. Permissions do not count.
-/

namespace BuildWarden.Tree

/-- An entry in front of the others, if there is one. -/
def place (name : String) : Option Item → Tree → Tree
  | none, rest => rest
  | some (.leaf found), rest => leaf name found rest
  | some (.dir inside), rest => dir name inside rest

/-- Changes the entry of a name. A new entry is listed last. -/
def alter (name : String) (change : Option Item → Option Item) : Tree → Tree
  | empty => place name (change none) empty
  | leaf other found rest =>
    if other = name then place name (change (some (.leaf found))) rest
    else leaf other found (rest.alter name change)
  | dir other inside rest =>
    if other = name then place name (change (some (.dir inside))) rest
    else dir other inside (rest.alter name change)

/-- Changes what stands at a location whose directory exists. The top cannot be changed. -/
def alterAt (change : Option Item → Option Item) : Location → Tree → Tree
  | [], tree => tree
  | [name], tree => tree.alter name change
  | name :: rest, tree =>
    tree.alter name fun
      | some (.dir inside) => some (.dir (alterAt change rest inside))
      | other => other

/-- Puts an entry at a location, in place of what is there. -/
def put (location : Location) (item : Item) (tree : Tree) : Tree :=
  tree.alterAt (fun _ => some item) location

/-- Removes what stands at a location. -/
def erase (location : Location) (tree : Tree) : Tree :=
  tree.alterAt (fun _ => none) location

/-- Every location in the tree, a directory before what is in it. -/
def locations : Tree → List Location
  | empty => []
  | leaf name _ rest => [name] :: rest.locations
  | dir name inside rest => [name] :: inside.locations.map (name :: ·) ++ rest.locations

/-- The locations at which two trees differ, with what is there afterwards. -/
def changes (before after : Tree) : List (Location × Option Aspect) :=
  let gone := before.locations.filter fun location => (after.at? location).isNone
  let seen := after.locations.filter fun location =>
    after.aspect? location != before.aspect? location
  (gone ++ seen).map fun location => (location, after.aspect? location)

end BuildWarden.Tree
