import BuildWarden.Text.Search
/-!
# Regular expressions

Expressions that describe parts of a line, with groups that can be asked for again. There are two
ways of writing them: in the plain one brackets and bars have a backslash in front where they mean
something, in the extended one where they mean themselves. A match is found by trying the longest
repetition first.
-/

namespace BuildWarden.Shell

/-- An expression. -/
inductive Expression where
  | nothing
  | one (accepts : Char → Bool)
  | lineStart
  | lineEnd
  | sequence (first second : Expression)
  | either (first second : Expression)
  /-- Repeated, at least and at most so many times -/
  | many (inside : Expression) (least : Nat) (most : Option Nat)
  | group (number : Nat) (inside : Expression)
  /-- What a group stood for -/
  | again (number : Nat)

namespace Expression

/-- What the groups stand for. -/
abbrev Groups := List (Nat × List Char)

/-- Matches an expression in front of a text and goes on with what remains. `whole` is the length of
the line. -/
def attempt {α : Type} (fuel whole : Nat) (expression : Expression) (text : List Char)
    (groups : Groups) (next : List Char → Groups → Option α) : Option α :=
  match fuel with
  | 0 => none
  | fuel + 1 =>
    match expression with
    | nothing => next text groups
    | one accepts =>
      match text with
      | [] => none
      | c :: rest => if accepts c then next rest groups else none
    | lineStart => if text.length = whole then next text groups else none
    | lineEnd => if text.isEmpty then next text groups else none
    | sequence first second =>
      attempt fuel whole first text groups fun rest groups =>
        attempt fuel whole second rest groups next
    | either first second =>
      match attempt fuel whole first text groups next with
      | some result => some result
      | none => attempt fuel whole second text groups next
    | many inside least most =>
      let more : Option α :=
        if most = some 0 then none
        else
          attempt fuel whole inside text groups fun rest groups =>
            if rest.length < text.length then
              attempt fuel whole (many inside (least - 1) (most.map (· - 1))) rest groups next
            else none
      match more with
      | some result => some result
      | none => if least = 0 then next text groups else none
    | group number inside =>
      attempt fuel whole inside text groups fun rest groups =>
        next rest ((number, text.take (text.length - rest.length)) :: groups)
    | again number =>
      match ((groups.lookup number).getD []).isPrefixOf? text with
      | some rest => next rest groups
      | none => none

/-- The length of the match in front of a text, and what the groups stand for. -/
def match? (expression : Expression) (whole : Nat) (text : List Char) : Option (Nat × Groups) :=
  attempt (50 * (text.length + 2)) whole expression text [] fun rest groups =>
    some (text.length - rest.length, groups)

/-- The first match in a text: how much stands in front of it, how long it is, and what the groups
stand for. -/
def firstMatch (expression : Expression) (whole skipped : Nat) :
    List Char → Option (Nat × Nat × Groups)
  | [] => (expression.match? whole []).map fun (length, groups) => (skipped, length, groups)
  | c :: rest =>
    match expression.match? whole (c :: rest) with
    | some (length, groups) => some (skipped, length, groups)
    | none => expression.firstMatch whole (skipped + 1) rest

/-- Whether an expression describes a part of a line. -/
def isIn (expression : Expression) (line : List Char) : Bool :=
  (expression.firstMatch line.length 0 line).isSome

/-! Reading expressions -/

/-- The characters of a named class. -/
def namedClass (name : List Char) (c : Char) : Bool :=
  match String.ofList name with
  | "space" => [' ', '\t', '\n', '\r', '\x0b', '\x0c'].contains c
  | "blank" => c = ' ' || c = '\t'
  | "digit" => c.isDigit
  | "alpha" => c.isAlpha
  | "alnum" => c.isAlphanum
  | "upper" => c.isUpper
  | "lower" => c.isLower
  | "punct" => 0x20 < c.toNat && c.toNat < 0x7F && !c.isAlphanum
  | _ => false

/-- The character of an escape with a letter. -/
def escapeOf? (c : Char) : Option Char :=
  match c with
  | 'n' => some '\n'
  | 't' => some '\t'
  | 'r' => some '\r'
  | 'f' => some '\x0c'
  | 'v' => some '\x0b'
  | _ => none

/-- The items between brackets, up to the closing one. -/
def classItems (fuel : Nat) (first : Bool) (text : List Char) :
    Option (List (Char → Bool) × List Char) :=
  match fuel with
  | 0 => none
  | fuel + 1 =>
    let also (item : Char → Bool) (rest : List Char) : Option (List (Char → Bool) × List Char) := do
      let (items, rest) ← classItems fuel false rest
      return (item :: items, rest)
    match text with
    | [] => none
    | ']' :: rest => if first then also (· == ']') rest else some ([], rest)
    | '[' :: ':' :: rest =>
      let name := rest.takeWhile Char.isAlpha
      match rest.drop name.length with
      | ':' :: ']' :: rest => also (namedClass name) rest
      | _ => none
    | '\\' :: c :: rest =>
      match escapeOf? c with
      | some escaped => also (· == escaped) rest
      | none => also (· == '\\') (c :: rest)
    | low :: '-' :: high :: rest =>
      if high = ']' then also (· == low) ('-' :: ']' :: rest)
      else also (fun c => low ≤ c && c ≤ high) rest
    | c :: rest => also (· == c) rest

/-- The class behind an opening bracket. -/
def readClass (text : List Char) : Option (Expression × List Char) :=
  let (negated, rest) := match text with
    | '^' :: rest => (true, rest)
    | rest => (false, rest)
  (classItems (text.length + 1) true rest).map fun (items, rest) =>
    (.one fun c => items.any (· c) != negated, rest)

/-- A sign of the grammar, with or without a backslash in front as the way of writing asks for. -/
def sign? (extended : Bool) (sign : Char) (text : List Char) : Option (List Char) :=
  match extended, text with
  | true, c :: rest => if c = sign then some rest else none
  | false, '\\' :: c :: rest => if c = sign then some rest else none
  | _, _ => none

/-- The bounds of a repetition, behind the opening brace. -/
def bounds? (extended : Bool) (text : List Char) : Option (Nat × Option Nat × List Char) :=
  let number (digits : List Char) : Nat := digits.foldl (fun n c => n * 10 + (c.toNat - 48)) 0
  let low := text.takeWhile Char.isDigit
  match text.drop low.length with
  | ',' :: rest =>
    let high := rest.takeWhile Char.isDigit
    (sign? extended '\x7d' (rest.drop high.length)).map fun rest =>
      (number low, if high.isEmpty then none else some (number high), rest)
  | rest => (sign? extended '\x7d' rest).map fun rest => (number low, some (number low), rest)

/-- An expression with the repetitions that stand behind it. -/
def repeated (fuel : Nat) (extended : Bool) (expression : Expression) (text : List Char) :
    Expression × List Char :=
  match fuel with
  | 0 => (expression, text)
  | fuel + 1 =>
    match text, sign? extended '+' text, sign? extended '?' text,
      (sign? extended '\x7b' text).bind (bounds? extended) with
    | '*' :: rest, _, _, _ => repeated fuel extended (.many expression 0 none) rest
    | _, some rest, _, _ => repeated fuel extended (.many expression 1 none) rest
    | _, _, some rest, _ => repeated fuel extended (.many expression 0 (some 1)) rest
    | _, _, _, some (least, most, rest) =>
      repeated fuel extended (.many expression least most) rest
    | _, _, _, _ => (expression, text)

/-- Whether a branch ends here. -/
def endsBranch (extended : Bool) (text : List Char) : Bool :=
  text.isEmpty || (sign? extended '|' text).isSome || (sign? extended ')' text).isSome

mutual

/-- Reads branches. `count` is the number of groups before them. -/
def branches (fuel : Nat) (extended : Bool) (count : Nat) (text : List Char) :
    Option (Expression × Nat × List Char) :=
  match fuel with
  | 0 => none
  | fuel + 1 => do
    let (first, count, rest) ← branch fuel extended true count text
    match sign? extended '|' rest with
    | some rest =>
      let (others, count, rest) ← branches fuel extended count rest
      return (.either first others, count, rest)
    | none => return (first, count, rest)

/-- Reads a branch. `start` says that nothing of it was read. -/
def branch (fuel : Nat) (extended start : Bool) (count : Nat) (text : List Char) :
    Option (Expression × Nat × List Char) :=
  match fuel with
  | 0 => none
  | fuel + 1 =>
    if endsBranch extended text then some (.nothing, count, text)
    else
      let also (found : Expression) (count : Nat) (rest : List Char) :
          Option (Expression × Nat × List Char) := do
        let (found, rest) := repeated (rest.length + 1) extended found rest
        let (others, count, rest) ← branch fuel extended false count rest
        return (.sequence found others, count, rest)
      let assertion (found : Expression) (rest : List Char) :
          Option (Expression × Nat × List Char) := do
        let (others, count, rest) ← branch fuel extended (!extended) count rest
        return (.sequence found others, count, rest)
      match sign? extended '(' text with
      | some rest => do
        let number := count + 1
        let (inside, count, rest) ← branches fuel extended number rest
        also (.group number inside) count (← sign? extended ')' rest)
      | none =>
        match text with
        | '^' :: rest =>
          if extended || start then assertion .lineStart rest else also (.one (· == '^')) count rest
        | '$' :: rest =>
          if extended || endsBranch extended rest then assertion .lineEnd rest
          else also (.one (· == '$')) count rest
        | '.' :: rest => also (.one fun _ => true) count rest
        | '[' :: rest => do
          let (found, rest) ← readClass rest
          also found count rest
        | '\\' :: c :: rest =>
          if c.isDigit && c != '0' then also (.again (c.toNat - 48)) count rest
          else
            match c with
            | 's' => also (.one (namedClass "space".toList)) count rest
            | 'S' => also (.one fun c => !namedClass "space".toList c) count rest
            | 'w' => also (.one fun c => c.isAlphanum || c = '_') count rest
            | 'W' => also (.one fun c => !(c.isAlphanum || c = '_')) count rest
            | c => also (.one (· == (escapeOf? c).getD c)) count rest
        | c :: rest => also (.one (· == c)) count rest
        | [] => some (.nothing, count, [])

end

/-- Reads an expression. -/
def read? (extended : Bool) (text : List Char) : Option Expression :=
  match branches (2 * text.length + 4) extended 0 text with
  | some (found, _, []) => some found
  | _ => none

end Expression
end BuildWarden.Shell
