import BuildWarden.Settings.Value
import BuildWarden.Text.Search
/-!
# Sections of settings

A section is a group of fields, each with a kind of value. It is read from a table, in which fields
go by name and unknown names do not matter, or from a list, in which they go by place. The first
fault in the order of the names is the one reported.
-/

namespace BuildWarden.Settings

/-- Why settings cannot be read. -/
inductive Misfit where
  /-- A file that is no document -/
  | malformed (file : String)
  /-- Another kind of value than expected -/
  | mismatch (key : List String) (origin : Origin) (found expected : String)
  /-- A list that ends before a field that is needed -/
  | tooShort (key : List String) (origin : Origin) (length : Nat) (expected : String)
  /-- A table without a field that is needed -/
  | missing (key : List String) (origin : Origin) (field : String)
  deriving DecidableEq, Repr

namespace Misfit

/-- What is wrong, without where. -/
def detail? : Misfit → Option String
  | malformed _ => none
  | mismatch _ _ found expected =>
    some ("invalid type: found " ++ found ++ ", expected " ++ expected)
  | tooShort _ _ length expected =>
    some ("invalid length " ++ toString length ++ ", expected " ++ expected)
  | missing _ _ field => some ("missing field \x60" ++ field ++ "\x60")

/-- The setting that is wrong. -/
def key : Misfit → List String
  | malformed _ => []
  | mismatch key _ _ _ | tooShort key _ _ _ | missing key _ _ => key

/-- Where the setting was given. -/
def origin : Misfit → Origin
  | malformed file => .file file
  | mismatch _ origin _ _ | tooShort _ origin _ _ | missing _ origin _ => origin

/-- The setting and its place, as the place spells them. -/
def place (misfit : Misfit) : String :=
  let key := Text.joined "." misfit.key
  match misfit.origin with
  | .builtin => " for key " ++ Text.quoted ("default." ++ key) ++ " in TOML source string"
  | .file path => " for key " ++ Text.quoted ("default." ++ key) ++ " in " ++ path ++ " TOML file"
  | .environment =>
    " for key " ++ Text.quoted (String.ofList (key.toList.map Char.toUpper))
      ++ " in \x60ACT_\x60 environment variable(s)"

/-- What every message about settings starts with. -/
def title : String := "Failed to load act configuration"

/-- The whole message. -/
def message (misfit : Misfit) : String :=
  match misfit.detail? with
  | some detail => title ++ ": " ++ detail ++ misfit.place
  | none => title ++ ": TOML parse error in " ++ match misfit.origin with
    | .file path => path ++ " TOML file"
    | _ => "TOML source string"

end Misfit

/-- A kind of value: how it is called where it is expected, and how it is read. -/
structure Kind (β : Type) where
  expected : String
  read? : Scalar → Option β

namespace Kind

/-- A text. -/
def text : Kind String where
  expected := "a string"
  read?
    | .text content => some content
    | _ => none

/-- A path. -/
def path : Kind String :=
  { text with expected := "path string" }

/-- A switch. -/
def boolean : Kind Bool where
  expected := "a boolean"
  read?
    | .boolean value => some value
    | _ => none

end Kind

/-- A field of a section. -/
structure Field (α : Type) where
  name : String
  expected : String
  /-- Whether a section that is not laid over another one needs it -/
  required : Bool
  write? : Scalar → Option (α → α)

/-- A field of a kind. -/
def Field.of {α β : Type} (name : String) (kind : Kind β) (required : Bool)
    (write : β → α → α) : Field α :=
  ⟨name, kind.expected, required, fun scalar => (kind.read? scalar).map write⟩

/-- Reads one field. -/
def Field.read {α : Type} (field : Field α) (key : List String) (setting : Setting) (target : α) :
    Except Misfit α :=
  match setting with
  | .scalar origin value =>
    match field.write? value with
    | some write => .ok (write target)
    | none => .error (.mismatch key origin value.found field.expected)
  | .table origin _ => .error (.mismatch key origin "map" field.expected)

/-- A group of fields. -/
structure Section (α : Type) where
  name : String
  title : String
  fields : List (Field α)

namespace Section
variable {α : Type}

/-- Reads the fields that a table names. -/
def readTable (part : Section α) : Table → α → Except Misfit α
  | .empty, target => .ok target
  | .scalar name origin value rest, target =>
    match part.fields.find? (·.name == name) with
    | some field =>
      match field.read [part.name, name] (.scalar origin value) target with
      | .ok target => part.readTable rest target
      | .error misfit => .error misfit
    | none => part.readTable rest target
  | .table name origin inside rest, target =>
    match part.fields.find? (·.name == name) with
    | some field =>
      match field.read [part.name, name] (.table origin inside) target with
      | .ok target => part.readTable rest target
      | .error misfit => .error misfit
    | none => part.readTable rest target

/-- Reads fields by their place in a list. -/
def readList (part : Section α) (origin : Origin) (length : Nat) :
    List (Field α) → List Scalar → α → Except Misfit α
  | [], _, target => .ok target
  | field :: fields, [], target =>
    if field.required then
      let count := toString part.fields.length ++
        if part.fields.length = 1 then " element" else " elements"
      .error (.tooShort [part.name] origin length (part.title ++ " with " ++ count))
    else part.readList origin length fields [] target
  | field :: fields, item :: items, target =>
    match field.read [part.name] (.scalar origin item) target with
    | .ok target => part.readList origin length fields items target
    | .error misfit => .error misfit

/-- Reads a section over a target that holds what is not given. -/
def read (part : Section α) (setting : Setting) (target : α) : Except Misfit α :=
  match setting with
  | .table origin inside =>
    match part.readTable inside target with
    | .error misfit => .error misfit
    | .ok target =>
      match part.fields.find? fun field => field.required && (inside.find? field.name).isNone with
      | some field => .error (.missing [part.name] origin field.name)
      | none => .ok target
  | .scalar origin (.list items) => part.readList origin items.length part.fields items target
  | .scalar origin value => .error (.mismatch [part.name] origin value.found part.title)

end Section
end BuildWarden.Settings
