import BuildWarden.Text.Blank
import BuildWarden.Text.Search
/-!
# Lines of a text

Two readings of a text as lines. `lines` drops the line ends: a line ends at a line feed or at
carriage return and line feed. `markedLines` keeps each end with its line and also ends a line at a
lone carriage return; joining the marked lines gives the text back.
-/

namespace BuildWarden.Text

/-- A line without the carriage return that belongs to its end. -/
def dropReturn (line : List Char) : List Char :=
  match line.reverse with
  | '\r' :: front => front.reverse
  | _ => line

/-- The lines without their ends. The last line may lack its end; a text that ends in a line feed
has no empty line after it. -/
def linesChars (text : List Char) : List (List Char) :=
  let all := List.splitOn '\n' text
  match all.reverse with
  | [] => []
  | last :: earlier =>
    let ended := earlier.reverse.map dropReturn
    if last.isEmpty then ended else ended ++ [last]

/-- The lines of a text without their ends. -/
def lines (text : String) : List String :=
  (linesChars text.toList).map String.ofList

/-- Adds one character in front of the marked lines of the rest. -/
private def extendFirst (c : Char) : List (List Char) → List (List Char)
  | [] => [[c]]
  | first :: others => (c :: first) :: others

/-- The lines with their ends: a line feed, carriage return and line feed, or a lone carriage
return. -/
def markedLines : List Char → List (List Char)
  | [] => []
  | '\n' :: rest => ['\n'] :: markedLines rest
  | '\r' :: '\n' :: rest => ['\r', '\n'] :: markedLines rest
  | '\r' :: rest => ['\r'] :: markedLines rest
  | c :: rest => extendFirst c (markedLines rest)

/-! ### Differing lines

How many lines have to be removed or inserted to turn one text into another, when as many lines as
possible stay. -/

/-- One row of the table of common lengths: what each beginning of `others` has in common with the
lines so far, `line` included. `corner` stands left of the row above, `left` left of this one. -/
def commonRow {α : Type} [BEq α] (line : α) (corner left : Nat) :
    (others : List α) → (above : List Nat) → List Nat
  | other :: others, up :: above =>
    let length := if line == other then corner + 1 else max up left
    length :: commonRow line up length others above
  | _, _ => []

/-- The length of a longest sequence that is part of both. -/
def commonLength {α : Type} [BEq α] (lines others : List α) : Nat :=
  (lines.foldl (fun row line => commonRow line 0 0 others row)
    (List.replicate others.length 0)).getLastD 0

/-- The number of lines to remove and to insert. -/
def changedLines (before after : String) : Nat :=
  let lines := markedLines before.toList
  let others := markedLines after.toList
  lines.length + others.length - 2 * commonLength lines others

end BuildWarden.Text
