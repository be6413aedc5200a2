import BuildWarden.Console.Style
/-!
# Console messages

Everything the program says is a message. Which messages are shown depends on two switches: quiet
hides all but errors, and verbose shows the progress notes as well.
-/

namespace BuildWarden.Console

/-- The switches that decide what is shown. -/
structure Settings where
  verbose : Bool := false
  quiet : Bool := false
  deriving DecidableEq, Repr

/-- Something to say. -/
inductive Message where
  | notice (text : String)
  /-- A note on progress, shown only when verbose -/
  | progress (text : String)
  | success (text : String)
  | warning (text : String)
  | error (text : String)
  /-- The error that ends the program -/
  | fatal (text : String)
  /-- A command about to be run -/
  | trace (command : String)
  | header (title : String)
  | field (key value : String)
  /-- A line of a document, shown always and as it is -/
  | line (text : String)
  deriving DecidableEq, Repr

namespace Message

/-- An error, or the end of the program. -/
def isError : Message → Bool
  | error _ | fatal _ => true
  | _ => false

/-- Whether the message is shown. -/
def shownUnder (settings : Settings) : Message → Bool
  | error _ | fatal _ | line _ => true
  | progress _ => settings.verbose && !settings.quiet
  | notice _ | success _ | warning _ | trace _ | header _ | field _ _ => !settings.quiet

/-- Keys are padded to this width. -/
def keyWidth : Nat := 12

/-- A mark, and the text behind it with its brackets highlighted. -/
def marked (color : Bool) (mark : Char) (style : Style) (text : String) : List Char :=
  styled color [style] [mark] ++ [' '] ++ highlightChars color text.toList

/-- The lines of the message. -/
def render (color : Bool) : Message → List (List Char)
  | notice text => [marked color 'ℹ' .blue text]
  | progress text => [marked color 'ℹ' .dim text]
  | success text => [marked color '✔' .green text]
  | warning text => [marked color '⚠' .yellow text]
  | error text => [marked color '✖' .red text]
  | fatal text =>
    [styled color [.red, .bold] ['✖'] ++ [' '] ++ styled color [.red, .bold] text.toList,
      styled color [.dim] "Stopped.".toList]
  | trace command => [styled color [.cyan] ['❯'] ++ [' '] ++ styled color [.dim] command.toList]
  | header title => [[], styled color [.cyan, .bold] (highlightChars color title.toList)]
  | field key value =>
    let padding := List.replicate (keyWidth - key.length) ' '
    [[' ', ' '] ++ styled color [.dim] (key.toList ++ padding) ++ [' '] ++ value.toList]
  | line text => [text.toList]

end Message
end BuildWarden.Console
