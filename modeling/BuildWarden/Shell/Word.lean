import BuildWarden.Text.Search
/-!
# Words of a command line

The words that a command line consists of, before anything is put in for parameters. Quotes decide
what stands for itself: blanks separate words only where they are not quoted, and what stands
between double quotes without a dollar sign, a backquote or a backslash stands for itself.
-/

namespace BuildWarden.Shell

/-- How the value of a parameter is changed before it is put in. -/
inductive Change where
  | unchanged
  | length
  /-- Another word instead, by one of the signs `-`, `=`, `?` and `+`; perhaps for an empty value
  as well -/
  | instead (sign : Char) (empty : Bool) (word : String)
  /-- A part cut off that a pattern describes, at either end, the longest or the shortest -/
  | cut (ending longest : Bool) (pattern : String)
  deriving DecidableEq, Repr

/-- A part of a word. -/
inductive Piece where
  | bare (c : Char)
  | quoted (text : String)
  | parameter (quoted : Bool) (name : String) (change : Change)
  /-- What a script writes -/
  | script (quoted : Bool) (source : String)
  /-- The value of a formula -/
  | formula (quoted : Bool) (source : String)
  deriving DecidableEq, Repr

/-- A word as it is written. -/
abbrev Word := List Piece

/-- The text of a word in which nothing is quoted or put in. -/
def literal? (word : Word) : Option String :=
  (word.mapM fun
    | Piece.bare c => some c
    | _ => none).map String.ofList

/-- Why a line cannot be read. -/
inductive LineFault where
  | openQuote
  | openBackquote
  | openBrace
  /-- A parameter that cannot be put in as it is written -/
  | badParameter
  /-- What stands where it cannot stand, and what should -/
  | unexpected (found : String) (wanted : Option String)
  deriving DecidableEq, Repr

/-- The wording of a fault. -/
def LineFault.message : LineFault → String
  | openQuote => "Syntax error: Unterminated quoted string"
  | openBackquote => "Syntax error: EOF in backquote substitution"
  | openBrace => "Syntax error: Missing '\x7d'"
  | badParameter => "Bad substitution"
  | unexpected found none => "Syntax error: " ++ found ++ " unexpected"
  | unexpected found (some wanted) =>
    "Syntax error: " ++ found ++ " unexpected (expecting " ++ wanted ++ ")"

/-- Characters that end an unquoted word. -/
def endsWord (c : Char) : Bool :=
  [' ', '\t', '\n', ';', '&', '|', '<', '>', '(', ')'].contains c

/-- Characters of names. -/
def isNameChar (c : Char) : Bool :=
  c.isAlphanum || c = '_'

/-- Whether a text is a name. -/
def isName (text : List Char) : Bool :=
  match text with
  | [] => false
  | c :: _ => !c.isDigit && text.all isNameChar

/-- What stands up to a single quote, and what remains behind it. -/
def upTo (quote : Char) : List Char → Option (List Char × List Char)
  | [] => none
  | c :: rest =>
    if c = quote then some ([], rest)
    else (upTo quote rest).map fun (inside, rest) => (c :: inside, rest)

/-- What stands up to the end of something that may hold the same again, and what remains behind the
end. `quote` is the quote that is open. -/
def upToClosing (opening closing : Char) (depth : Nat) (quote : Option Char) :
    List Char → Option (List Char × List Char)
  | [] => none
  | '\\' :: c :: rest =>
    let quoteThen := if quote = some '\'' && c = '\'' then none else quote
    (upToClosing opening closing depth quoteThen rest).map fun (inside, rest) =>
      ('\\' :: c :: inside, rest)
  | c :: rest =>
    let go (depth : Nat) (quote : Option Char) : Option (List Char × List Char) :=
      (upToClosing opening closing depth quote rest).map fun (inside, rest) => (c :: inside, rest)
    match quote with
    | some mark => go depth (if c = mark then none else quote)
    | none =>
      if c = closing then
        match depth with
        | 0 => some ([], rest)
        | depth + 1 => go depth none
      else if c = opening then go (depth + 1) none
      else if c = '\'' || c = '"' then go depth (some c)
      else go depth none

/-- What stands up to a backquote, escapes taken away, and what remains behind it. -/
def upToBackquote : List Char → Option (List Char × List Char)
  | [] => none
  | '\x60' :: rest => some ([], rest)
  | '\\' :: c :: rest =>
    (upToBackquote rest).map fun (inside, rest) =>
      (if c = '\x60' || c = '\\' || c = '$' then c :: inside else '\\' :: c :: inside, rest)
  | c :: rest => (upToBackquote rest).map fun (inside, rest) => (c :: inside, rest)

/-- The change that is written behind the name of a parameter. -/
def changeOf? (text : List Char) : Option Change :=
  match text with
  | [] => some .unchanged
  | '#' :: '#' :: rest => some (.cut false true (String.ofList rest))
  | '#' :: rest => some (.cut false false (String.ofList rest))
  | '%' :: '%' :: rest => some (.cut true true (String.ofList rest))
  | '%' :: rest => some (.cut true false (String.ofList rest))
  | ':' :: c :: rest =>
    if ['-', '=', '?', '+'].contains c then some (.instead c true (String.ofList rest)) else none
  | c :: rest =>
    if ['-', '=', '?', '+'].contains c then some (.instead c false (String.ofList rest)) else none

/-- The name of a parameter in front, and what remains. -/
def parameterName? (text : List Char) : Option (String × List Char) :=
  match text with
  | [] => none
  | c :: rest =>
    if c.isDigit || ['@', '*', '#', '?', '-', '$', '!'].contains c then
      some (c.toString, rest)
    else
      let name := text.takeWhile isNameChar
      if name.isEmpty then none else some (String.ofList name, text.drop name.length)

/-- A parameter between braces. -/
def braced? (quoted : Bool) (inside : List Char) : Option Piece :=
  match inside with
  | '#' :: c :: rest =>
    match parameterName? (c :: rest) with
    | some (name, []) => some (.parameter quoted name .length)
    | _ => none
  | _ =>
    let digits := inside.takeWhile (·.isDigit)
    if digits.isEmpty then
      match parameterName? inside with
      | some (name, rest) => (changeOf? rest).map (.parameter quoted name)
      | none => none
    else
      (changeOf? (inside.drop digits.length)).map (.parameter quoted (String.ofList digits))

/-- What a dollar sign starts. -/
def dollar (quoted : Bool) (text : List Char) : Except LineFault (Piece × List Char) :=
  match text with
  | '(' :: rest =>
    match upToClosing '(' ')' 0 none rest with
    | none => .error (.unexpected "end of file" (some "\")\""))
    | some (inside, rest) =>
      match inside, inside.getLast? with
      | '(' :: formula, some ')' =>
        .ok (.formula quoted (String.ofList formula.dropLast), rest)
      | _, _ => .ok (.script quoted (String.ofList inside), rest)
  | '\x7b' :: rest =>
    match upToClosing '\x7b' '\x7d' 0 none rest with
    | none => .error .openBrace
    | some (inside, rest) =>
      match braced? quoted inside with
      | some piece => .ok (piece, rest)
      | none => .error .badParameter
  | _ =>
    match parameterName? text with
    | some (name, rest) => .ok (.parameter quoted name .unchanged, rest)
    | none => .ok (if quoted then .quoted "$" else .bare '$', text)

/-- Reads what stands between double quotes, behind the first one. -/
def readQuoted (fuel : Nat) (text : List Char) : Except LineFault (Word × List Char) :=
  match fuel with
  | 0 => .error .openQuote
  | fuel + 1 =>
    let also (piece : Piece) (rest : List Char) : Except LineFault (Word × List Char) := do
      let (pieces, rest) ← readQuoted fuel rest
      return (piece :: pieces, rest)
    match text with
    | [] => .error .openQuote
    | '"' :: rest => .ok ([], rest)
    | '\\' :: '\n' :: rest => readQuoted fuel rest
    | '\\' :: c :: rest =>
      if ['$', '\x60', '"', '\\'].contains c then also (.quoted c.toString) rest
      else also (.quoted (String.ofList ['\\', c])) rest
    | '$' :: rest => do
      let (piece, rest) ← dollar true rest
      also piece rest
    | '\x60' :: rest =>
      match upToBackquote rest with
      | some (inside, rest) => also (.script true (String.ofList inside)) rest
      | none => .error .openBackquote
    | c :: rest => also (.quoted c.toString) rest

/-- Reads a word. -/
def readWord (fuel : Nat) (text : List Char) : Except LineFault (Word × List Char) :=
  match fuel with
  | 0 => .ok ([], text)
  | fuel + 1 =>
    let also (piece : Piece) (rest : List Char) : Except LineFault (Word × List Char) := do
      let (pieces, rest) ← readWord fuel rest
      return (piece :: pieces, rest)
    match text with
    | [] => .ok ([], [])
    | '\\' :: '\n' :: rest => readWord fuel rest
    | '\\' :: c :: rest => also (.quoted c.toString) rest
    | ['\\'] => .ok ([.quoted "\\"], [])
    | '\'' :: rest =>
      match upTo '\'' rest with
      | some (inside, rest) => also (.quoted (String.ofList inside)) rest
      | none => .error .openQuote
    | '"' :: rest => do
      let (inside, rest) ← readQuoted (rest.length + 1) rest
      let (pieces, rest) ← readWord fuel rest
      return (.quoted "" :: inside ++ pieces, rest)
    | '$' :: rest => do
      let (piece, rest) ← dollar false rest
      also piece rest
    | '\x60' :: rest =>
      match upToBackquote rest with
      | some (inside, rest) => also (.script false (String.ofList inside)) rest
      | none => .error .openBackquote
    | c :: rest => if endsWord c then .ok ([], text) else also (.bare c) rest

end BuildWarden.Shell
