import BuildWarden.Text.Search
/-!
# Texts and keys of a document

Texts stand between single or double quotes, three of them for a text of several lines; between
double quotes a backslash starts an escape. Keys are bare words or quoted texts with dots between.
Each reader takes characters from the front and answers with what they mean and what remains.
-/

namespace BuildWarden.Toml

/-- The blanks inside a line. -/
def isGap (c : Char) : Bool :=
  c = ' ' || c = '\t'

/-- Characters that may stand for themselves in texts and comments. -/
def isPlain (c : Char) : Bool :=
  c = '\t' || (0x20 ≤ c.toNat && c.toNat != 0x7F)

/-- What remains behind the gaps. -/
def skipGaps (text : List Char) : List Char :=
  text.dropWhile isGap

/-- What remains behind the end of a line. -/
def lineEnd? : List Char → Option (List Char)
  | '\n' :: rest => some rest
  | '\r' :: '\n' :: rest => some rest
  | _ => none

/-- What remains behind a comment, if there is one; the end of the line stays. -/
def skipComment : List Char → List Char
  | '#' :: rest => rest.dropWhile isPlain
  | text => text

/-- The value of some digits in base sixteen. -/
def hexValue? (digits : List Char) : Option Nat :=
  digits.foldl (fun value c => do
    let value ← value
    let digit ←
      if c.isDigit then some (c.toNat - '0'.toNat)
      else if 'a' ≤ c && c ≤ 'f' then some (c.toNat - 'a'.toNat + 10)
      else if 'A' ≤ c && c ≤ 'F' then some (c.toNat - 'A'.toNat + 10)
      else none
    return value * 16 + digit) (some 0)

/-- The character of a code point that is written with the given number of digits. -/
def codePoint? (count : Nat) (text : List Char) : Option (Char × List Char) :=
  let digits := text.take count
  if digits.length < count then none
  else
    match hexValue? digits with
    | none => none
    | some value =>
      if value.isValidChar then some (Char.ofNat value, text.drop count) else none

/-- What an escape stands for, behind the backslash. -/
def escape? : List Char → Option (Char × List Char)
  | 'b' :: rest => some ('\x08', rest)
  | 't' :: rest => some ('\t', rest)
  | 'n' :: rest => some ('\n', rest)
  | 'f' :: rest => some ('\x0c', rest)
  | 'r' :: rest => some ('\r', rest)
  | '"' :: rest => some ('"', rest)
  | '\\' :: rest => some ('\\', rest)
  | 'u' :: rest => codePoint? 4 rest
  | 'U' :: rest => codePoint? 8 rest
  | _ => none

/-- The rest of a text of one line that double quotes enclose. -/
def basicText (fuel : Nat) (text : List Char) : Option (List Char × List Char) :=
  match fuel with
  | 0 => none
  | fuel + 1 =>
    match text with
    | '"' :: rest => some ([], rest)
    | '\\' :: rest => do
      let (c, rest) ← escape? rest
      let (others, rest) ← basicText fuel rest
      return (c :: others, rest)
    | c :: rest =>
      if isPlain c then do
        let (others, rest) ← basicText fuel rest
        return (c :: others, rest)
      else none
    | [] => none

/-- The rest of a text of one line that single quotes enclose. -/
def literalText : List Char → Option (List Char × List Char)
  | [] => none
  | '\'' :: rest => some ([], rest)
  | c :: rest =>
    if isPlain c then (literalText rest).map fun (others, rest) => (c :: others, rest) else none

/-- What remains behind the quotes that end a text of several lines, and how many of them belong to
the text: up to two may stand in front of the three that end it. -/
def closing? (quote : Char) (text : List Char) : Option (Nat × List Char) :=
  let count := (text.takeWhile (· = quote)).length
  if count < 3 then none else some (min (count - 3) 2, text.drop (min count 5))

/-- What remains behind the blanks and line ends that an escaped line end swallows. -/
def skipBlankLines (fuel : Nat) (text : List Char) : List Char :=
  match fuel with
  | 0 => text
  | fuel + 1 =>
    let text := skipGaps text
    match lineEnd? text with
    | some rest => skipBlankLines fuel rest
    | none => text

/-- The rest of a text of several lines. Escapes count only between double quotes. -/
def longText (quote : Char) (fuel : Nat) (text : List Char) : Option (List Char × List Char) :=
  match fuel with
  | 0 => none
  | fuel + 1 =>
    let go (c : Char) (rest : List Char) : Option (List Char × List Char) :=
      (longText quote fuel rest).map fun (others, rest) => (c :: others, rest)
    match closing? quote text with
    | some (count, rest) => some (List.replicate count quote, rest)
    | none =>
      match lineEnd? text with
      | some rest => go '\n' rest
      | none =>
        match text with
        | [] => none
        | c :: rest =>
          if c = '\\' && quote = '"' then
            match lineEnd? (skipGaps rest) with
            | some behind => longText quote fuel (skipBlankLines behind.length behind)
            | none =>
              match escape? rest with
              | some (c, rest) => go c rest
              | none => none
          else if isPlain c then go c rest
          else none

/-- The text without the line end that may follow three opening quotes. -/
def skipFirstEnd (text : List Char) : List Char :=
  (lineEnd? text).getD text

/-- A quoted text. -/
def quotedText? (text : List Char) : Option (String × List Char) :=
  let read : Option (List Char × List Char) := match text with
    | '"' :: '"' :: '"' :: rest => longText '"' (rest.length + 1) (skipFirstEnd rest)
    | '\'' :: '\'' :: '\'' :: rest => longText '\'' (rest.length + 1) (skipFirstEnd rest)
    | '"' :: rest => basicText (rest.length + 1) rest
    | '\'' :: rest => literalText rest
    | _ => none
  read.map fun (content, rest) => (String.ofList content, rest)

/-- Characters of bare keys. -/
def isBare (c : Char) : Bool :=
  c.isAlphanum || c = '_' || c = '-'

/-- One part of a key. -/
def keyPart? (text : List Char) : Option (String × List Char) :=
  match text with
  | '"' :: rest => (basicText (rest.length + 1) rest).map fun (c, rest) => (String.ofList c, rest)
  | '\'' :: rest => (literalText rest).map fun (c, rest) => (String.ofList c, rest)
  | _ =>
    let bare := text.takeWhile isBare
    if bare.isEmpty then none else some (String.ofList bare, text.dropWhile isBare)

/-- A key, with the gaps around its parts. -/
def key? (fuel : Nat) (text : List Char) : Option (List String × List Char) :=
  match fuel with
  | 0 => none
  | fuel + 1 => do
    let (part, rest) ← keyPart? (skipGaps text)
    match skipGaps rest with
    | '.' :: rest =>
      let (parts, rest) ← key? fuel rest
      return (part :: parts, rest)
    | rest => return ([part], rest)

end BuildWarden.Toml
