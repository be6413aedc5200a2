import BuildWarden.Text.Utf8
import BuildWarden.Toml.Document
import BuildWarden.Toml.Number
/-!
# Reading documents

A document is a sequence of lines: headers, keys with their values, comments and nothing. Values may
hold further values, and lists may go over several lines. A document that breaks a rule anywhere is
refused as a whole.
-/

namespace BuildWarden.Toml

open Settings (Scalar Table Origin)

/-- What remains behind gaps, line ends and comments. -/
def skipLines (fuel : Nat) (text : List Char) : List Char :=
  match fuel with
  | 0 => text
  | fuel + 1 =>
    let text := skipComment (skipGaps text)
    match lineEnd? text with
    | some rest => skipLines fuel rest
    | none => text

/-- A node as an item of a list. -/
def Node.item : Node → Scalar
  | .value scalar => scalar
  | .table _ _ => .record
  | .tables earlier _ => .list (List.replicate (earlier + 1) .record)

/-- A value that is neither a list nor a table. A moment is read as a table of which nothing is
asked for. -/
def simpleValue? (text : List Char) : Option (Node × List Char) :=
  let scalar (read : Option (Scalar × List Char)) : Option (Node × List Char) :=
    read.map fun (value, rest) => (.value value, rest)
  match text with
  | '"' :: _ | '\'' :: _ =>
    (quotedText? text).map fun (content, rest) => (.value (.text content), rest)
  | 't' :: 'r' :: 'u' :: 'e' :: rest => some (.value (.boolean true), rest)
  | 'f' :: 'a' :: 'l' :: 's' :: 'e' :: rest => some (.value (.boolean false), rest)
  | '+' :: rest => scalar (signed? false rest)
  | '-' :: rest => scalar (signed? true rest)
  | '0' :: 'x' :: rest => scalar (basedInteger? 4 (fun c => (hexValue? [c]).isSome) rest)
  | '0' :: 'o' :: rest => scalar (basedInteger? 3 (fun c => '0' ≤ c && c ≤ '7') rest)
  | '0' :: 'b' :: rest => scalar (basedInteger? 1 (fun c => c = '0' || c = '1') rest)
  | _ =>
    if looksLikeMoment text then
      (moment? text).map fun rest => (.table .closed .empty, rest)
    else scalar (signed? false text)

mutual

/-- A value. -/
def value? (fuel : Nat) (text : List Char) : Option (Node × List Char) :=
  match fuel with
  | 0 => none
  | fuel + 1 =>
    match text with
    | '[' :: rest =>
      (items? fuel rest).map fun (items, rest) => (.value (.list items), rest)
    | '\x7b' :: rest =>
      match skipGaps rest with
      | '\x7d' :: rest => some (.table .closed .empty, rest)
      | rest => (pairs? fuel .empty rest).map fun (inside, rest) => (.table .closed inside, rest)
    | _ => simpleValue? text

/-- The items of a list and its end. -/
def items? (fuel : Nat) (text : List Char) : Option (List Scalar × List Char) :=
  match fuel with
  | 0 => none
  | fuel + 1 =>
    match skipLines text.length text with
    | ']' :: rest => some ([], rest)
    | text => do
      let (node, rest) ← value? fuel text
      match skipLines rest.length rest with
      | ']' :: rest => return ([node.item], rest)
      | ',' :: rest =>
        let (others, rest) ← items? fuel rest
        return (node.item :: others, rest)
      | _ => none

/-- The keys of an inline table with their values, and its end. -/
def pairs? (fuel : Nat) (inside : Document) (text : List Char) : Option (Document × List Char) :=
  match fuel with
  | 0 => none
  | fuel + 1 => do
    let (key, rest) ← key? text.length text
    let (node, rest) ← value? fuel (skipGaps (← sign? '=' rest))
    let inside ← inside.assign key node .closed
    match skipGaps rest with
    | ',' :: rest => pairs? fuel inside rest
    | '\x7d' :: rest => return (inside, rest)
    | _ => none

end

/-- What remains behind the end of a line, which may have a comment. -/
def endOfLine? (text : List Char) : Option (List Char) :=
  match skipComment (skipGaps text) with
  | [] => some []
  | text => lineEnd? text

/-- Reads one line: the header in force and the document after it. -/
def line? (header : List String) (document : Document) (text : List Char) :
    Option (List String × Document × List Char) :=
  match text with
  | '[' :: '[' :: rest => do
    let (path, rest) ← key? rest.length rest
    let rest ← endOfLine? (← sign? ']' (← sign? ']' rest))
    return (path, ← document.openTables path, rest)
  | '[' :: rest => do
    let (path, rest) ← key? rest.length rest
    let rest ← endOfLine? (← sign? ']' rest)
    return (path, ← document.openTable path, rest)
  | _ => do
    let (key, rest) ← key? text.length text
    let rest ← sign? '=' rest
    let (node, rest) ← value? (2 * rest.length + 2) (skipGaps rest)
    return (header, ← document.assignIn header key node, ← endOfLine? rest)

/-- Reads lines up to the end. -/
def lines? (fuel : Nat) (header : List String) (document : Document) (text : List Char) :
    Option Document :=
  match fuel with
  | 0 => none
  | fuel + 1 =>
    match skipLines text.length text with
    | [] => some document
    | text => do
      let (header, document, rest) ← line? header document text
      lines? fuel header document rest

/-- Reads a document. A mark of the byte order may stand in front. -/
def parse? (text : String) : Option Document :=
  let text := match text.toList with
    | c :: rest => if c.toNat = 0xFEFF then rest else c :: rest
    | [] => []
  lines? (text.length + 1) [] .empty text

/-- Reads a document from bytes, which must be UTF-8. -/
def parseBytes? (bytes : Bytes) : Option Document := do
  parse? (← Text.Utf8.decode? bytes)

end BuildWarden.Toml
