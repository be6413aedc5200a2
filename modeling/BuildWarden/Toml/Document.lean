import BuildWarden.Settings.Value
/-!
# Documents

A document is built from statements in the order in which they stand. Each table remembers how it
came about, because that decides what may still be added to it: a table that a header names is
complete once another one starts, a table that only dotted keys made cannot be named by a header,
and a table written inline is closed.
-/

namespace BuildWarden.Toml

open Settings (Scalar Table Origin)

/-- How a table came about. -/
inductive TableKind where
  /-- Named by a header -/
  | named
  /-- On the way to a table that a header names -/
  | implied
  /-- On the way to a dotted key -/
  | dotted
  /-- Written inline -/
  | closed
  deriving DecidableEq, Repr

/-- A document, or a table of it. -/
inductive Document where
  | empty
  | value (name : String) (value : Scalar) (rest : Document)
  | table (name : String) (kind : TableKind) (inside : Document) (rest : Document)
  /-- Tables with the same header; only the last one can still grow -/
  | tables (name : String) (earlier : Nat) (last : Document) (rest : Document)
  deriving Repr

/-- What a name in a document stands for. -/
inductive Node where
  | value (value : Scalar)
  | table (kind : TableKind) (inside : Document)
  | tables (earlier : Nat) (last : Document)
  deriving Repr

namespace Document

/-- A node in front of others. -/
def place (name : String) : Node → Document → Document
  | .value scalar, rest => value name scalar rest
  | .table kind inside, rest => table name kind inside rest
  | .tables earlier last, rest => tables name earlier last rest

/-- Changes what a name stands for, unless that is refused. -/
def alter (name : String) (change : Option Node → Option Node) : Document → Option Document
  | empty => (change none).map fun node => place name node empty
  | value other scalar rest =>
    if other = name then (change (some (.value scalar))).map fun node => place name node rest
    else (rest.alter name change).map (value other scalar)
  | table other kind inside rest =>
    if other = name then (change (some (.table kind inside))).map fun node => place name node rest
    else (rest.alter name change).map (table other kind inside)
  | tables other earlier last rest =>
    if other = name then
      (change (some (.tables earlier last))).map fun node => place name node rest
    else (rest.alter name change).map (tables other earlier last)

/-- Changes the table that a path of names leads to; `made` is the kind of the tables made on the
way. Dotted keys do not lead into a table that a header names. -/
def within (made : TableKind) (change : TableKind → Document → Option Document)
    (kind : TableKind) : (path : List String) → Document → Option Document
  | [], document => change kind document
  | name :: rest, document =>
    document.alter name fun
      | none => (within made change made rest empty).map (.table made)
      | some (.table kind inside) =>
        if kind = .closed || (made = .dotted && kind = .named) then none
        else (within made change kind rest inside).map (.table kind)
      | some (.tables earlier last) =>
        (within made change .named rest last).map (.tables earlier)
      | some (.value _) => none

/-- Splits a path into the way and the last name. -/
def splitPath (path : List String) : List String × String :=
  (path.dropLast, path.getLastD "")

/-- Starts the table that a header names. -/
def openTable (path : List String) (document : Document) : Option Document :=
  let (way, name) := splitPath path
  document.within .implied
    (fun _ inside => inside.alter name fun
      | none => some (.table .named empty)
      | some (.table .implied inside) => some (.table .named inside)
      | some _ => none)
    .named way

/-- Starts one more of the tables that a header names. -/
def openTables (path : List String) (document : Document) : Option Document :=
  let (way, name) := splitPath path
  document.within .implied
    (fun _ inside => inside.alter name fun
      | none => some (.tables 0 empty)
      | some (.tables earlier _) => some (.tables (earlier + 1) empty)
      | some _ => none)
    .named way

/-- Gives a dotted key a value. -/
def assign (key : List String) (node : Node) (kind : TableKind) (document : Document) :
    Option Document :=
  let (way, name) := splitPath key
  document.within .dotted
    (fun kind inside =>
      if (kind == .dotted) == way.isEmpty then none
      else inside.alter name fun
        | none => some node
        | some _ => none)
    kind way

/-- Gives a dotted key a value in the table that the last header started. -/
def assignIn (header key : List String) (node : Node) (document : Document) : Option Document :=
  document.within .implied (fun kind inside => inside.assign key node kind) .named header

/-- The document as settings that were given in one place. -/
def settings (origin : Origin) : Document → Table
  | empty => .empty
  | value name scalar rest => (rest.settings origin).set name (.scalar origin scalar)
  | table name _ inside rest =>
    (rest.settings origin).set name (.table origin (inside.settings origin))
  | tables name earlier _ rest =>
    (rest.settings origin).set name
      (.scalar origin (.list (List.replicate (earlier + 1) .record)))

end Document
end BuildWarden.Toml
