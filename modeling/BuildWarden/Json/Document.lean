import BuildWarden.Text.Utf8
/-!
# JSON documents

Documents for other programs. A document is written over several lines, each level indented by two
blanks; the fields of an object keep their order, and what has nothing in it is written on one line.
-/

namespace BuildWarden.Json

/-- A document. -/
inductive Document where
  | null
  | bool (value : Bool)
  | number (value : Int)
  | text (value : String)
  | list (items : List Document)
  /-- The names of the fields, and their values -/
  | object (names : List String) (values : List Document)

namespace Document

/-- An object with some fields. -/
def ofFields (fields : List (String × Document)) : Document :=
  object (fields.map (·.1)) (fields.map (·.2))

/-- A text, or null. -/
def ofText? (value : Option String) : Document :=
  match value with
  | some value => text value
  | none => null

/-- The escape of a character below the blank that has no letter of its own. -/
def controlEscape (c : Char) : List Char :=
  ['\\', 'u', '0', '0', Nat.digitChar (c.toNat / 16), Nat.digitChar (c.toNat % 16)]

/-- A character as it is written between quotes. -/
def escapeChar (c : Char) : List Char :=
  match c with
  | '"' => ['\\', '"']
  | '\\' => ['\\', '\\']
  | '\n' => ['\\', 'n']
  | '\r' => ['\\', 'r']
  | '\t' => ['\\', 't']
  | '\x08' => ['\\', 'b']
  | '\x0c' => ['\\', 'f']
  | c => if c.toNat < 0x20 then controlEscape c else [c]

/-- A text between quotes. -/
def quote (value : String) : List Char :=
  '"' :: value.toList.flatMap escapeChar ++ ['"']

/-- The start of a line at a level. -/
def lineAt (level : Nat) : List Char :=
  '\n' :: List.replicate (2 * level) ' '

mutual

/-- A document whose lines after the first stand at a level. -/
def render (level : Nat) : Document → List Char
  | null => "null".toList
  | bool value => (toString value).toList
  | number value => (toString value).toList
  | text value => quote value
  | list [] => ['[', ']']
  | list (first :: rest) =>
    '[' :: renderItems (level + 1) [] (first :: rest) ++ lineAt level ++ [']']
  | object _ [] => ['\x7b', '\x7d']
  | object names (first :: rest) =>
    '\x7b' :: renderItems (level + 1) names (first :: rest) ++ lineAt level ++ ['\x7d']

/-- Items, each on its own line, with the names that belong to them. -/
def renderItems (level : Nat) (names : List String) : List Document → List Char
  | [] => []
  | [item] => lineAt level ++ named names ++ render level item
  | item :: others =>
    lineAt level ++ named names ++ render level item ++ ','
      :: renderItems level (names.drop 1) others
where
  /-- The name in front of a field -/
  named : List String → List Char
    | [] => []
    | name :: _ => quote name ++ [':', ' ']

end

/-- The text of a document. -/
def toText (document : Document) : String :=
  String.ofList (render 0 document)

end Document
end BuildWarden.Json
