import BuildWarden.Settings.Value
import BuildWarden.Text.Blank
import BuildWarden.Text.Search
import BuildWarden.Toml.Number
/-!
# Settings from the environment

A variable whose name starts with `ACT_`, in any case, is a setting; two underscores in the rest of
the name lead into a table. Values have a small syntax of their own; what does not follow it through
to the end is taken as it is, as a text.
-/

namespace BuildWarden.Settings.Environment

/-- How the names of settings start. -/
def mark : String := "ACT_"

/-- The rest of the name with a dot for each two underscores. -/
def dotted : List Char → List Char
  | '_' :: '_' :: rest => '.' :: dotted rest
  | c :: rest => c :: dotted rest
  | [] => []

/-- The path of the setting that a variable names. A name with an empty part names none. -/
def path? (name : String) : Option (List String) :=
  ((mark.toList.map Char.toLower).isPrefixOf? (name.toList.map Char.toLower)).bind fun rest =>
    let parts := List.splitOn '.' (dotted rest)
    if parts.any (·.isEmpty) then none else some (parts.map String.ofList)

/-- Blanks of the value syntax. -/
def isGap (c : Char) : Bool :=
  [' ', '\t', '\n', '\r', '\x0c'].contains c

/-- What remains behind the gaps. -/
def skipGaps (text : List Char) : List Char :=
  text.dropWhile isGap

/-- Characters that end a bare value. -/
def endsBare (c : Char) : Bool :=
  [',', '[', ']', '\x7b', '\x7d'].contains c

/-- Digits in front, perhaps none. -/
def spanDigits (text : List Char) : List Char × List Char :=
  (text.takeWhile Char.isDigit, text.dropWhile Char.isDigit)

/-- Whether the text starts with a minus sign, and what remains behind a sign. -/
def signed : List Char → Bool × List Char
  | '-' :: rest => (true, rest)
  | '+' :: rest => (false, rest)
  | rest => (false, rest)

/-- A number with a point: digits on at least one side of it, and perhaps an exponent. -/
def real? (text : List Char) : Option Binary64 :=
  let (negative, rest) := signed text
  let (whole, rest) := spanDigits rest
  let (fraction, rest) := match rest with
    | '.' :: rest => spanDigits rest
    | rest => ([], rest)
  let value (exponent : Int) :=
    Binary64.ofDecimal negative (Toml.decimalValue (whole ++ fraction)) (exponent - fraction.length)
  if whole.isEmpty && fraction.isEmpty then none
  else
    match rest with
    | [] => some (value 0)
    | e :: rest =>
      let (down, digits) := signed rest
      if (e = 'e' || e = 'E') && !digits.isEmpty && digits.all Char.isDigit then
        let exponent : Int := Toml.decimalValue digits
        some (value (if down then -exponent else exponent))
      else none

/-- A bare value: a number, or a text. -/
def bare (text : List Char) : Scalar :=
  let number? : Option Scalar :=
    if text.contains '.' then (real? text).map Scalar.real else none
  let integer? : Option Scalar :=
    let (negative, digits) := signed text
    let value := Toml.decimalValue digits
    if digits.isEmpty || digits.any (!·.isDigit) then none
    else if text.head? = some '-' then
      if value ≤ UInt64.size / 2 then some (.integer (-value)) else none
    else if !negative && value < UInt64.size then some (.natural value)
    else none
  (number?.or integer?).getD (.text (String.ofList text))

/-- A setting as an item of a list. -/
def item : Setting → Scalar
  | .scalar _ value => value
  | .table _ _ => .record

/-- A scalar that was given in the environment. -/
def given (value : Scalar) : Setting :=
  .scalar .environment value

/-- Characters of bare keys. -/
def isBareKey (c : Char) : Bool :=
  c.isAlphanum || c = '_' || c = '-'

/-- A key. -/
def key? (text : List Char) : Option (String × List Char) :=
  match text with
  | '"' :: rest =>
    (Toml.basicText (rest.length + 1) rest).map fun (key, rest) => (String.ofList key, rest)
  | _ =>
    let key := text.takeWhile isBareKey
    if key.isEmpty then none else some (String.ofList key, text.dropWhile isBareKey)

mutual

/-- A value, with the gaps around it. -/
def value? (fuel : Nat) (text : List Char) : Option (Setting × List Char) :=
  match fuel with
  | 0 => none
  | fuel + 1 =>
    let ended (read : Option (Setting × List Char)) : Option (Setting × List Char) :=
      read.map fun (setting, rest) => (setting, skipGaps rest)
    match skipGaps text with
    | 't' :: 'r' :: 'u' :: 'e' :: rest => ended (some (given (.boolean true), rest))
    | 'f' :: 'a' :: 'l' :: 's' :: 'e' :: rest => ended (some (given (.boolean false), rest))
    | '\x7b' :: rest =>
      ended ((pairs? fuel .empty rest).map fun (inside, rest) => (.table .environment inside, rest))
    | '[' :: rest =>
      ended ((items? fuel rest).map fun (items, rest) => (given (.list items), rest))
    | '"' :: rest =>
      ended ((Toml.basicText (rest.length + 1) rest).map fun (content, rest) =>
        (given (.text (String.ofList content)), rest))
    | '\'' :: rest =>
      match rest with
      | c :: '\'' :: rest => ended (some (given (.text c.toString), rest))
      | _ => none
    | text =>
      let word := text.takeWhile (!endsBare ·)
      some (given (bare (Text.trimChars word)), text.dropWhile (!endsBare ·))

/-- The items of a list and its end. -/
def items? (fuel : Nat) (text : List Char) : Option (List Scalar × List Char) :=
  match fuel with
  | 0 => none
  | fuel + 1 =>
    match text with
    | ']' :: rest => some ([], rest)
    | text =>
      match value? fuel text with
      | some (setting, ']' :: rest) => some ([item setting], rest)
      | some (setting, ',' :: rest) =>
        (items? fuel rest).map fun (items, rest) => (item setting :: items, rest)
      | _ => none

/-- The keys of a table with their values, and its end. -/
def pairs? (fuel : Nat) (inside : Table) (text : List Char) : Option (Table × List Char) :=
  match fuel with
  | 0 => none
  | fuel + 1 =>
    match text with
    | '\x7d' :: rest => some (inside, rest)
    | text =>
      match key? (skipGaps text) with
      | none => none
      | some (key, rest) =>
        match skipGaps rest with
        | '=' :: rest =>
          match value? fuel rest with
          | some (setting, '\x7d' :: rest) => some (inside.set key setting, rest)
          | some (setting, ',' :: rest) => pairs? fuel (inside.set key setting) rest
          | _ => none
        | _ => none

end

/-- The setting that the value of a variable stands for. -/
def read (value : String) : Setting :=
  match value? (2 * value.length + 2) value.toList with
  | some (setting, []) => setting
  | _ => given (.text value)

/-- The settings that variables stand for; a later one is laid over the earlier ones. -/
def settings (environment : List (String × String)) : Table :=
  environment.foldl (fun table (name, value) =>
    match path? name with
    | some path => table.merge (.nest path .environment (read value))
    | none => table) .empty

end BuildWarden.Settings.Environment
