import BuildWarden.Number.Binary64
import BuildWarden.Text.Quoted
/-!
# Settings

Settings are tables of values, in increasing order of their names, and every value knows where it
was given. Layers of settings are laid over each other: tables are merged name by name, and any
other value replaces what was there.
-/

namespace BuildWarden.Settings

/-- Where a value was given. -/
inductive Origin where
  /-- The settings that come with the program -/
  | builtin
  | file (path : String)
  | environment
  deriving DecidableEq, Repr

/-- A value that is no table of its own. -/
inductive Scalar where
  | text (text : String)
  | boolean (value : Bool)
  /-- An integer of a kind that is never negative -/
  | natural (value : Nat)
  | integer (value : Int)
  | real (value : Binary64)
  | list (items : List Scalar)
  /-- A table in a list; what it holds is never asked for -/
  | record
  deriving Repr

/-- A table of settings, in increasing order of the names. -/
inductive Table where
  | empty
  | scalar (name : String) (origin : Origin) (value : Scalar) (rest : Table)
  | table (name : String) (origin : Origin) (inside : Table) (rest : Table)
  deriving Repr

/-- What a name in a table stands for. -/
inductive Setting where
  | scalar (origin : Origin) (value : Scalar)
  | table (origin : Origin) (inside : Table)
  deriving Repr

namespace Table

/-- A setting in front of others. -/
def place (name : String) : Setting → Table → Table
  | .scalar origin value, rest => scalar name origin value rest
  | .table origin inside, rest => table name origin inside rest

/-- What a name stands for. -/
def find? (name : String) : Table → Option Setting
  | empty => none
  | scalar other origin value rest =>
    if other = name then some (.scalar origin value) else rest.find? name
  | table other origin inside rest =>
    if other = name then some (.table origin inside) else rest.find? name

/-- Sets a name, at its place. -/
def set (name : String) (setting : Setting) : Table → Table
  | empty => place name setting empty
  | scalar other origin value rest =>
    if other = name then place name setting rest
    else if name < other then place name setting (scalar other origin value rest)
    else scalar other origin value (rest.set name setting)
  | table other origin inside rest =>
    if other = name then place name setting rest
    else if name < other then place name setting (table other origin inside rest)
    else table other origin inside (rest.set name setting)

/-- Lays a table over another one. -/
def merge (base : Table) : (upper : Table) → Table
  | empty => base
  | scalar name origin value rest => (base.set name (.scalar origin value)).merge rest
  | table name origin inside rest =>
    let merged := match base.find? name with
      | some (.table first below) => .table first (below.merge inside)
      | _ => .table origin (empty.merge inside)
    (base.set name merged).merge rest

/-- The table of one setting below a path of names. -/
def nest : (path : List String) → Origin → Setting → Table
  | [], _, _ => empty
  | [name], _, setting => empty.set name setting
  | name :: rest, origin, setting => empty.set name (.table origin (nest rest origin setting))

end Table

namespace Scalar

/-- What was found where something else was expected. -/
def found : Scalar → String
  | text content => "string " ++ Text.quoted content
  | boolean value => "bool " ++ toString value
  | natural value => "unsigned int \x60" ++ toString value ++ "\x60"
  | integer value => "signed int \x60" ++ toString value ++ "\x60"
  | real value => "float \x60" ++ value.shown ++ "\x60"
  | list _ => "sequence"
  | record => "map"

end Scalar

/-- What was found where something else was expected. -/
def Setting.found : Setting → String
  | scalar _ value => value.found
  | table _ _ => "map"

/-- Where a setting was given. -/
def Setting.origin : Setting → Origin
  | scalar origin _ | table origin _ => origin

end BuildWarden.Settings
