import BuildWarden.Pattern.Reader
import BuildWarden.Shell.Formula
/-!
# Expansion of words

What words become when a command runs: values are put in, unquoted values are split at blanks, and
unquoted patterns become the names they describe. A pattern that describes no name stays as it is.
-/

namespace BuildWarden.Shell

/-- A part of an expanded word. -/
inductive Glyph where
  | char (c : Char) (quoted : Bool)
  /-- A character of an unquoted value -/
  | soft (c : Char)
  /-- Something quoted that may be empty -/
  | mark
  /-- The end of a field -/
  | cut
  deriving DecidableEq, Repr

/-- The characters of a text, quoted or as an unquoted value. -/
def glyphs (quoted : Bool) (text : String) : List Glyph :=
  text.toList.map fun c => if quoted then .char c true else .soft c

/-- A field: its characters, and which of them are quoted. -/
abbrev Field := List (Char × Bool)

/-- The text of a field. -/
def Field.text (field : Field) : String :=
  String.ofList (field.map (·.1))

/-- The pattern that a field describes; quoted characters stand for themselves. -/
def Field.pattern (field : Field) : Pattern :=
  match field with
  | [] => .done
  | ('*', false) :: rest => .many (Field.pattern rest)
  | ('?', false) :: rest => .one ⟨true, []⟩ (Field.pattern rest)
  | ('[', false) :: rest =>
    match Pattern.readClass (rest.map (·.1)) with
    | .ok (part, behind) =>
      Pattern.ofPart part (Field.pattern (rest.drop (rest.length - behind.length)))
    | .error _ => Pattern.bytes (String.utf8EncodeChar '[') (Field.pattern rest)
  | (c, _) :: rest => Pattern.bytes (String.utf8EncodeChar c) (Field.pattern rest)
termination_by field.length
decreasing_by all_goals (simp only [List.length_cons, List.length_drop]; omega)

/-- Whether a field has a character of a pattern. -/
def Field.isPattern (field : Field) : Bool :=
  field.any fun (c, quoted) => !quoted && ['*', '?', '['].contains c

/-- The field of the glyphs of a word that is not split. -/
def wholeField (glyphs : List Glyph) : Field :=
  glyphs.filterMap fun
    | .char c quoted => some (c, quoted)
    | .soft c => some (c, false)
    | .mark | .cut => none

/-- The text of the glyphs of a word that is not split. -/
def wholeText (glyphs : List Glyph) : String :=
  Field.text (wholeField glyphs)

/-- Splits a word into fields. `current` is the field being read, if one was begun. -/
def splitFields (separates : Char → Bool) (current : Option Field) : List Glyph → List Field
  | [] => (current.map List.reverse).toList
  | .char c quoted :: rest =>
    splitFields separates (some ((c, quoted) :: current.getD [])) rest
  | .mark :: rest => splitFields separates (some (current.getD [])) rest
  | .cut :: rest => (current.map List.reverse).toList ++ splitFields separates none rest
  | .soft c :: rest =>
    if separates c then (current.map List.reverse).toList ++ splitFields separates none rest
    else splitFields separates (some ((c, false) :: current.getD [])) rest

/-- The parts of a word between slashes. -/
def Field.segments (field : Field) : List Field :=
  List.splitOn ('/', false) (field.map fun (c, quoted) => (c, quoted && c != '/'))

/-- The names in the directory at a path that a pattern describes. -/
def describedNames (disk : Disk) (directory : String) (segment : Field) : List String :=
  let names : List String := match disk.open? (if directory.isEmpty then "." else directory) with
    | .ok (_, .dir inside) => inside.entries.map Prod.fst
    | _ => ([] : List String)
  let hidden := segment.head?.map (·.1) = some '.'
  (names.filter fun name =>
    (hidden || name.toList.head? != some '.') && (Field.pattern segment).accepts name).mergeSort
      fun first second => decide (first ≤ second)

/-- The paths that lead through names the segments describe. -/
def describedPaths (disk : Disk) (front : String) : List Field → List String
  | [] => [front]
  | [segment] =>
    if Field.isPattern segment then (describedNames disk front segment).map (front ++ ·)
    else
      let path := front ++ Field.text segment
      if segment.isEmpty || disk.isThere path then [path] else []
  | segment :: rest =>
    if Field.isPattern segment then
      (describedNames disk front segment).flatMap fun name =>
        describedPaths disk (front ++ name ++ "/") rest
    else describedPaths disk (front ++ Field.text segment ++ "/") rest

/-- The texts a field stands for. -/
def Field.texts (disk : Disk) (field : Field) : List String :=
  if Field.isPattern field then
    match describedPaths disk "" (Field.segments field) with
    | [] => [Field.text field]
    | paths => paths
  else [Field.text field]

/-- Runs a script for what it writes. -/
abbrev Capture := String → State → String × State

/-- The shortest or longest part of a value that a pattern describes, taken away. -/
def cutPart (ending longest : Bool) (pattern : Pattern) (value : List Char) : List Char :=
  let lengths := List.range (value.length + 1)
  let ordered := if longest then lengths.reverse else lengths
  let part (length : Nat) : List Char :=
    if ending then value.drop (value.length - length) else value.take length
  match ordered.find? fun length => pattern.accepts (String.ofList (part length)) with
  | some length => if ending then value.take (value.length - length) else value.drop length
  | none => value

/-- The values of all parameters. -/
def allParameters (state : State) (quoted joined : Bool) : List Glyph :=
  if quoted && joined then glyphs true (Text.joined " " state.parameters)
  else
    let fields := state.parameters.map fun value =>
      if quoted then .mark :: glyphs true value else glyphs false value
    [Glyph.cut].intercalate fields

/-- The pieces of a pattern behind the name of a parameter. -/
def operandOf (source : String) : Word :=
  match readWord (source.length + 1) source.toList with
  | .ok (pieces, []) => pieces
  | _ => [.quoted source]

mutual

/-- What a piece becomes. -/
def expandPiece (capture : Capture) (fuel : Nat) (piece : Piece) (state : State) :
    Except String (List Glyph × State) :=
  match fuel with
  | 0 => .error "too deep"
  | fuel + 1 =>
    match piece with
    | .bare c => .ok ([.char c false], state)
    | .quoted text => .ok (.mark :: glyphs true text, state)
    | .script quoted source =>
      let (text, state) := capture source state
      .ok (glyphs quoted text, state)
    | .formula quoted source => do
      let (text, state) ← expandText capture fuel source state
      match Formula.value state text with
      | .ok value => return (glyphs quoted (toString value), state)
      | .error reason => throw ("arithmetic expression: " ++ reason ++ ": \"" ++ source ++ "\"")
    | .parameter quoted name change =>
      if name = "@" || name = "*" then
        match change with
        | .length => .ok (glyphs quoted (toString state.parameters.length), state)
        | _ => .ok (allParameters state quoted (name = "*"), state)
      else
        let value? := state.special? name
        let value := value?.getD ""
        match change with
        | .unchanged => .ok (glyphs quoted value, state)
        | .length => .ok (glyphs quoted (toString value.length), state)
        | .cut ending longest source => do
          let (pieces, state) ← expandPieces capture fuel (operandOf source) state
          let kept := cutPart ending longest (Field.pattern (wholeField pieces)) value.toList
          return (glyphs quoted (String.ofList kept), state)
        | .instead sign empty word =>
          let absent := value?.isNone || (empty && value.isEmpty)
          if sign = '+' then
            if absent then .ok ([], state)
            else do
              let (text, state) ← expandText capture fuel word state
              return (glyphs quoted text, state)
          else if !absent then .ok (glyphs quoted value, state)
          else do
            let (text, state) ← expandText capture fuel word state
            if sign = '?' then
              throw (name ++ ": " ++ if text.isEmpty then "parameter not set" else text)
            else
              let state := if sign = '=' then state.assign name text else state
              return (glyphs quoted text, state)

/-- What pieces become, one after the other. -/
def expandPieces (capture : Capture) (fuel : Nat) (pieces : Word) (state : State) :
    Except String (List Glyph × State) :=
  match fuel with
  | 0 => .error "too deep"
  | fuel + 1 =>
    match pieces with
    | [] => .ok ([], state)
    | piece :: rest => do
      let (first, state) ← expandPiece capture fuel piece state
      let (others, state) ← expandPieces capture fuel rest state
      return (first ++ others, state)

/-- What a text becomes in which quotes mean nothing. -/
def expandText (capture : Capture) (fuel : Nat) (text : String) (state : State) :
    Except String (String × State) :=
  match fuel with
  | 0 => .error "too deep"
  | fuel + 1 =>
    match readQuoted (text.length + 2) (text.toList ++ ['"']) with
    | .ok (pieces, []) => do
      let (glyphs, state) ← expandPieces capture fuel pieces state
      return (wholeText glyphs, state)
    | _ => .ok (text, state)

end

/-- Pieces nest no deeper than this, however many of them a word has. -/
def deepest : Nat := 1000000

/-- The glyphs of a word. Quotes around no parameters at all leave nothing. -/
def expandWord (capture : Capture) (word : Word) (state : State) :
    Except String (List Glyph × State) := do
  let (found, after) ← expandPieces capture (deepest + word.length) word state
  let vanishes := state.parameters.isEmpty && word.any fun
    | .parameter true "@" _ => true
    | _ => false
  return (if vanishes then found.filter (· != .mark) else found, after)

/-- Characters at which unquoted values are split. -/
def separators (state : State) : List Char :=
  ((state.lookup? "IFS").getD " \t\n").toList

/-- The fields that words become. -/
def expandFields (capture : Capture) : List Word → State → Except String (List String × State)
  | [], state => .ok ([], state)
  | word :: rest, state => do
    let (found, state) ← expandWord capture word state
    let fields := splitFields ((separators state).contains ·) none found
    let texts := fields.flatMap (Field.texts state.disk)
    let (others, state) ← expandFields capture rest state
    return (texts ++ others, state)

/-- The text that a word becomes where nothing is split. -/
def expandWhole (capture : Capture) (word : Word) (state : State) :
    Except String (String × State) := do
  let (found, state) ← expandWord capture word state
  return (wholeText found, state)

end BuildWarden.Shell
