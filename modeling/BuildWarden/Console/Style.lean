import BuildWarden.Text.Search
/-!
# Console styles

Text with colours and attributes. A style is a list of codes written in front of the text, and one
code behind it resets them all; without colours only the text is written. `highlight` styles what
stands between square brackets and drops the brackets.
-/

namespace BuildWarden.Console

/-- Colours and attributes. -/
inductive Style where
  | red
  | green
  | yellow
  | blue
  | cyan
  | bold
  | dim
  deriving DecidableEq, Repr

/-- The number that selects a colour or attribute. -/
def Style.code : Style → Nat
  | .bold => 1
  | .dim => 2
  | .red => 31
  | .green => 32
  | .yellow => 33
  | .blue => 34
  | .cyan => 36

/-- The sequence of characters that a code is written as. -/
def sequence (code : Nat) : List Char :=
  '\x1b' :: '[' :: Nat.toDigits 10 code ++ ['m']

/-- The text in the given styles. -/
def styled (color : Bool) (styles : List Style) (text : List Char) : List Char :=
  if color then styles.flatMap (fun style => sequence style.code) ++ text ++ sequence 0 else text

/-- The text, without brackets and with what stood between them highlighted. A bracket that opens
stays unless one that closes follows it. -/
def highlightChars (color : Bool) (text : List Char) : List Char :=
  match _opened : Text.cutAt? '[' text with
  | none => text
  | some (before, rest) =>
    match _closed : Text.cutAt? ']' rest with
    | none => text
    | some (value, after) =>
      before ++ styled color [.yellow, .bold] value ++ highlightChars color after
termination_by text.length
decreasing_by
  have := Text.length_of_cutAt? _opened
  have := Text.length_of_cutAt? _closed
  omega

/-- The text, without brackets and with what stood between them highlighted. -/
def highlight (color : Bool) (text : String) : String :=
  String.ofList (highlightChars color text.toList)

end BuildWarden.Console
