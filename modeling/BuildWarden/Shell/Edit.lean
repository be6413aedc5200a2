import BuildWarden.Shell.Builtins
import BuildWarden.Shell.Expression
/-!
# Editing streams

A small language of commands that are applied to each line: substitution of what an expression
describes, deletion, printing and new lines, for all lines or for those at an address. An address
may be a stretch of lines, which is left open from one line to the next.
-/

namespace BuildWarden.Shell.Edit

/-- Which matches a substitution replaces. -/
inductive Which where
  | all
  | only (number : Nat)
  deriving DecidableEq, Repr

/-- A place in a content. -/
inductive Place where
  | number (line : Nat)
  | last
  | matching (expression : Expression)

/-- Where a command applies. -/
inductive Address where
  | always
  | at (place : Place)
  | stretch (first final : Place)

/-- What a command does. -/
inductive Action where
  | substitute (expression : Expression) (other : List Char) (which : Which) (print fold : Bool)
  /-- One character in place of another -/
  | exchange (old new : List Char)
  | delete
  | print
  | quit
  | number
  | insert (text : List Char)
  | append (text : List Char)
  | change (text : List Char)

/-- A command with its address. -/
structure Step where
  address : Address
  negated : Bool
  action : Action

/-- What takes the place of a match. -/
def replacement (found : List Char) (groups : Expression.Groups) : List Char → List Char
  | [] => []
  | '\\' :: c :: rest =>
    let put := if c.isDigit then
        if c = '0' then found else (groups.lookup (c.toNat - 48)).getD []
      else [(Expression.escapeOf? c).getD c]
    put ++ replacement found groups rest
  | '&' :: rest => found ++ replacement found groups rest
  | c :: rest => c :: replacement found groups rest

/-- Replaces matches from a place in a line on. `number` counts the matches. -/
def substitute (fuel whole : Nat) (expression : Expression) (other : List Char) (which : Which)
    (fold : Bool) (number : Nat) (text : List Char) : List Char × Bool :=
  match fuel with
  | 0 => (text, false)
  | fuel + 1 =>
    let seen := if fold then text.map Char.toLower else text
    match expression.firstMatch whole 0 seen with
    | none => (text, false)
    | some (skipped, length, groups) =>
      let found := (text.drop skipped).take length
      let rest := text.drop (skipped + length)
      let wanted := which = .all || which = .only number
      let put := text.take skipped ++ if wanted then replacement found groups other else found
      if rest.isEmpty && (length > 0 || skipped = text.length) then (put, wanted)
      else if wanted && which != .all then (put ++ rest, true)
      else
        let (kept, rest) := if length = 0 then (rest.take 1, rest.drop 1) else ([], rest)
        let (others, more) :=
          substitute fuel whole expression other which fold (number + 1) rest
        (put ++ kept ++ others, wanted || more)

/-- What stands up to a separator, which may be escaped. -/
def upToMark (mark : Char) : List Char → Option (List Char × List Char)
  | [] => none
  | '\\' :: c :: rest =>
    (upToMark mark rest).map fun (inside, rest) =>
      (if c = mark then c :: inside else '\\' :: c :: inside, rest)
  | c :: rest =>
    if c = mark then some ([], rest)
    else (upToMark mark rest).map fun (inside, rest) => (c :: inside, rest)

/-- The number of some digits. -/
def numberOf (digits : List Char) : Nat :=
  digits.foldl (fun n c => n * 10 + (c.toNat - 48)) 0

/-- The place in front, and what remains. -/
def place? (extended : Bool) (text : List Char) : Option (Option Place × List Char) :=
  match text with
  | '$' :: rest => some (some .last, rest)
  | '/' :: rest => do
    let (inside, rest) ← upToMark '/' rest
    return (some (.matching (← Expression.read? extended inside)), rest)
  | text =>
    let digits := text.takeWhile (·.isDigit)
    if digits.isEmpty then some (none, text)
    else some (some (.number (numberOf digits)), text.drop digits.length)

/-- The address in front, and what remains. -/
def address? (extended : Bool) (text : List Char) : Option (Address × List Char) := do
  match ← place? extended text with
  | (none, rest) => return (.always, rest)
  | (some first, ',' :: rest) =>
    match ← place? extended rest with
    | (some final, rest) => return (.stretch first final, rest)
    | (none, _) => none
  | (some first, rest) => return (.at first, rest)

/-- The flags of a substitution. -/
def substitution? (extended : Bool) (pattern other flags : List Char) : Option Action := do
  let fold := flags.any fun c => c = 'i' || c = 'I'
  let digits := flags.filter (·.isDigit)
  let which := if flags.contains 'g' then Which.all
    else .only (if digits.isEmpty then 1 else numberOf digits)
  let pattern := if fold then pattern.map Char.toLower else pattern
  return .substitute (← Expression.read? extended pattern) other which (flags.contains 'p') fold

/-- The text of a command that brings a line, up to the end of the line. -/
def broughtText (text : List Char) : List Char × List Char :=
  let text := match text with
    | '\\' :: '\n' :: rest => rest
    | '\\' :: rest => rest
    | text => text.dropWhile (· == ' ')
  let line := text.takeWhile (· != '\n')
  (line, text.drop line.length)

/-- The action in front, and what remains. -/
def action? (extended : Bool) (text : List Char) : Option (Action × List Char) :=
  let bring (make : List Char → Action) (rest : List Char) : Option (Action × List Char) :=
    let (line, rest) := broughtText rest
    some (make line, rest)
  match text with
  | 'd' :: rest => some (.delete, rest)
  | 'p' :: rest => some (.print, rest)
  | 'q' :: rest => some (.quit, rest)
  | '=' :: rest => some (.number, rest)
  | 'i' :: rest => bring .insert rest
  | 'a' :: rest => bring .append rest
  | 'c' :: rest => bring .change rest
  | 'y' :: mark :: rest => do
    let (old, rest) ← upToMark mark rest
    let (new, rest) ← upToMark mark rest
    return (.exchange old new, rest)
  | 's' :: mark :: rest => do
    let (pattern, rest) ← upToMark mark rest
    let (other, rest) ← upToMark mark rest
    let flags := rest.takeWhile fun c => ['g', 'p', 'i', 'I'].contains c || c.isDigit
    return (← substitution? extended pattern other flags, rest.drop flags.length)
  | _ => none

/-- Reads the commands of a script. -/
def steps? (fuel : Nat) (extended : Bool) (text : List Char) : Option (List Step) :=
  match fuel with
  | 0 => none
  | fuel + 1 =>
    match text.dropWhile fun c => c = ' ' || c = '\t' || c = '\n' || c = ';' with
    | [] => some []
    | text => do
      let (address, rest) ← address? extended text
      let (negated, rest) := match rest with
        | '!' :: rest => (true, rest)
        | rest => (false, rest)
      let (action, rest) ← action? extended rest
      let ends := match rest.dropWhile (· == ' ') with
        | [] | ';' :: _ | '\n' :: _ => true
        | _ => false
      if ends then return ⟨address, negated, action⟩ :: (← steps? fuel extended rest) else none

/-- A line of a content: its number, whether it is the last one, and its text. -/
structure Line where
  number : Nat
  isLast : Bool
  text : List Char

/-- Whether a line is at a place. -/
def Line.isAt (line : Line) : Place → Bool
  | .number wanted => line.number = wanted
  | .last => line.isLast
  | .matching expression => expression.isIn line.text

/-- Whether a line is at an address, and whether its stretch is open afterwards. -/
def Line.isAtAddress (line : Line) (isOpen : Bool) : Address → Bool × Bool
  | .always => (true, false)
  | .at place => (line.isAt place, false)
  | .stretch first final =>
    let reached : Bool := match final with
      | .number wanted => wanted ≤ line.number
      | .last => line.isLast
      | .matching _ => isOpen && line.isAt final
    if isOpen then (true, !reached)
    else if line.isAt first then (true, !reached)
    else (false, false)

/-- What commands make of a line: the lines in front of it, its text unless it is deleted, the lines
behind it, and whether more lines follow. -/
structure Edited where
  front : List (List Char) := []
  text : Option (List Char)
  behind : List (List Char) := []
  goesOn : Bool := true

/-- Applies commands to a line; `stretches` says whose stretches are open. -/
def editLine (line : Line) (edited : Edited) : List (Step × Bool) → Edited × List Bool
  | [] => (edited, [])
  | (step, isOpen) :: rest =>
    match edited.text with
    | none => (edited, isOpen :: rest.map (·.2))
    | some text =>
      let (there, after) := { line with text }.isAtAddress isOpen step.address
      let edited : Edited := if there == step.negated || !edited.goesOn then edited
        else
          match step.action with
          | .delete => { edited with text := none }
          | .quit => { edited with goesOn := false }
          | .print => { edited with front := edited.front ++ [text] }
          | .number => { edited with front := edited.front ++ [(toString line.number).toList] }
          | .insert brought => { edited with front := edited.front ++ [brought] }
          | .append brought => { edited with behind := edited.behind ++ [brought] }
          | .change brought => { edited with front := edited.front ++ [brought], text := none }
          | .exchange old new =>
            let put (c : Char) : Char := ((old.idxOf? c).bind (new[·]?)).getD c
            { edited with text := some (text.map put) }
          | .substitute expression other which print fold =>
            let (changed, found) :=
              substitute (text.length + 2) text.length expression other which fold 1 text
            { edited with
              text := some changed
              front := if found && print then edited.front ++ [changed] else edited.front }
      let (edited, others) := editLine line edited rest
      (edited, after :: others)

/-- What the commands make of lines. -/
def editLines (silent : Bool) (steps : List Step) (stretches : List Bool) (number : Nat) :
    List (List Char) → List (List Char)
  | [] => []
  | text :: rest =>
    let (edited, stretches) :=
      editLine ⟨number, rest.isEmpty, text⟩ { text := some text } (steps.zip stretches)
    let kept := if silent then [] else edited.text.toList
    let out := edited.front ++ kept ++ edited.behind
    if edited.goesOn then out ++ editLines silent steps stretches (number + 1) rest else out

/-- One character for each byte. -/
def charsOf (bytes : Bytes) : List Char :=
  bytes.map fun b => Char.ofNat b.toNat

/-- One byte for each character. -/
def bytesOf (chars : List Char) : Bytes :=
  chars.map fun c => UInt8.ofNat c.toNat

/-- What the commands make of a content. A last line without an end stays without one. -/
def edit (silent : Bool) (steps : List Step) (content : Bytes) : Bytes :=
  let lines := List.splitOn '\n' (charsOf content)
  let ended := lines.getLast? = some []
  let lines := if ended then lines.dropLast else lines
  let out := editLines silent steps (steps.map fun _ => false) 1 lines
  let joined := out.flatMap (· ++ ['\n'])
  bytesOf (if ended || out.isEmpty then joined else joined.dropLast)

end BuildWarden.Shell.Edit
