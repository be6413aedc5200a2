import BuildWarden.Shell.Expansion
/-!
# Commands of the shell itself

Commands that every shell has: writing texts, testing, and changing the variables, the parameters
and the working directory. A command answers with a status, zero for success.
-/

namespace BuildWarden.Shell

/-- A command: from its arguments and the state to a status and the state it leaves. -/
abbrev Utility := List String → State → Nat × State

namespace Builtins

/-- The value of some octal digits. -/
def octal (digits : List Char) : UInt8 :=
  UInt8.ofNat (digits.foldl (fun value c => value * 8 + (c.toNat - '0'.toNat)) 0)

/-- Up to a number of octal digits in front. -/
def octalDigits (count : Nat) (text : List Char) : List Char :=
  (text.take count).takeWhile fun c => '0' ≤ c && c ≤ '7'

/-- The byte of an escape with a letter. -/
def escapedByte? (c : Char) : Option UInt8 :=
  match c with
  | 'a' => some 7
  | 'b' => some 8
  | 'f' => some 12
  | 'n' => some 10
  | 'r' => some 13
  | 't' => some 9
  | 'v' => some 11
  | '\\' => some 92
  | _ => none

/-- The bytes of a text with escapes, and whether it ends the output. `leading` says whether octal
escapes have a zero in front. -/
def escaped (fuel : Nat) (leading : Bool) (text : List Char) : Bytes × Bool :=
  match fuel with
  | 0 => ([], false)
  | fuel + 1 =>
    let also (front : Bytes) (rest : List Char) : Bytes × Bool :=
      let (bytes, ended) := escaped fuel leading rest
      (front ++ bytes, ended)
    match text with
    | [] => ([], false)
    | '\\' :: c :: rest =>
      if c = 'c' && leading then ([], true)
      else
        match escapedByte? c with
        | some b => also [b] rest
        | none =>
          let body := if leading then rest else c :: rest
          let digits := octalDigits 3 body
          if c = '0' && leading then also [octal digits] (rest.drop digits.length)
          else if !leading && !digits.isEmpty then also [octal digits] (body.drop digits.length)
          else also (92 :: String.utf8EncodeChar c) rest
    | c :: rest => also (String.utf8EncodeChar c) rest

/-- The bytes of a text with escapes. -/
def escapedText (leading : Bool) (text : String) : Bytes × Bool :=
  escaped (text.length + 1) leading text.toList

/-- Writes its words with escapes put in; `-n` leaves the line end out. -/
def echo : Utility := fun words state =>
  let (silent, words) := match words with
    | "-n" :: rest => (true, rest)
    | words => (false, words)
  let (bytes, ended) := escapedText true (Text.joined " " words)
  (0, state.write 1 (if silent || ended then bytes else bytes ++ [10]))

/-- A text padded to a width, on the left or on the right. -/
def padded (left : Bool) (width : Nat) (text : List Char) : List Char :=
  let blanks := List.replicate (width - text.length) ' '
  if left then text ++ blanks else blanks ++ text

/-- A number padded to a width, with zeros if the width is written with one. -/
def paddedNumber (left zero : Bool) (width : Nat) (value : Int) : List Char :=
  let digits := (toString value.natAbs).toList
  let sign := if value < 0 then ['-'] else []
  if zero && !left then
    sign ++ List.replicate (width - sign.length - digits.length) '0' ++ digits
  else padded left width (sign ++ digits)

/-- The value of digits in a base, up to the first character that is none, and whether that is the
whole text. -/
def digitsIn (base : Nat) (text : List Char) : Nat × Bool :=
  let value (c : Char) : Nat := if c.isDigit then c.toNat - 48 else c.toLower.toNat - 87
  let digits := text.takeWhile fun c => c.isAlphanum && value c < base
  (digits.foldl (fun n c => n * base + value c) 0, digits.length = text.length && !text.isEmpty)

/-- The integer that an argument stands for, and whether all of it is read. -/
def integerOf (text : String) : Int × Bool :=
  let magnitude (text : List Char) : Nat × Bool :=
    match text with
    | '0' :: 'x' :: rest | '0' :: 'X' :: rest => digitsIn 16 rest
    | '0' :: c :: rest => digitsIn 8 (c :: rest)
    | text => digitsIn 10 text
  match text.toList with
  | [] => (0, true)
  | '"' :: c :: _ | '\'' :: c :: _ => (c.toNat, true)
  | '-' :: rest =>
    let (value, whole) := magnitude rest
    (-(value : Int), whole)
  | '+' :: rest | rest =>
    let (value, whole) := magnitude rest
    (value, whole)

/-- What a pass of a format leaves: what it writes, the arguments that are left, whether any was
used, whether the output ends, and the arguments that are no numbers. -/
structure Passed where
  bytes : Bytes := []
  words : List String := []
  used : Bool := false
  ended : Bool := false
  refused : List String := []

/-- The pass with bytes written in front. -/
def Passed.after (front : Bytes) (passed : Passed) : Passed :=
  { passed with bytes := front ++ passed.bytes }

/-- A width or precision in front of a format's letter. -/
structure Widths where
  left : Bool
  zero : Bool
  width : Nat
  precision : Option Nat

/-- Reads the flags, the width and the precision of a format. -/
def widthsOf (text : List Char) : Widths × List Char :=
  let number (digits : List Char) : Nat := digits.foldl (fun n c => n * 10 + (c.toNat - 48)) 0
  let flags := text.takeWhile fun c => ['-', '0', '+', ' ', '#'].contains c
  let rest := text.drop flags.length
  let digits := rest.takeWhile (·.isDigit)
  let rest := rest.drop digits.length
  let (precision, rest) := match rest with
    | '.' :: rest =>
      let places := rest.takeWhile (·.isDigit)
      (some (number places), rest.drop places.length)
    | rest => (none, rest)
  (⟨flags.contains '-', flags.contains '0', number digits, precision⟩, rest)

/-- Writes one pass of a format. -/
def formatPass (fuel : Nat) (format : List Char) (words : List String) (used : Bool) : Passed :=
  match fuel with
  | 0 => { words, used }
  | fuel + 1 =>
    match format with
    | [] => { words, used }
    | '%' :: '%' :: rest => (formatPass fuel rest words used).after [37]
    | '%' :: rest =>
      let (widths, rest) := widthsOf rest
      let word := words.headD ""
      let (value, whole) := integerOf word
      let next (rest : List Char) (shown : List Char) : Passed :=
        (formatPass fuel rest (words.drop 1) true).after (Text.Utf8.encode (String.ofList shown))
      let number (rest : List Char) (shown : List Char) : Passed :=
        let passed := next rest shown
        if whole then passed else { passed with refused := word :: passed.refused }
      match rest with
      | 's' :: rest =>
        next rest (padded widths.left widths.width (match widths.precision with
          | some most => word.toList.take most
          | none => word.toList))
      | 'b' :: rest =>
        let (bytes, ended) := escapedText true word
        if ended then { bytes, used := true, ended := true }
        else (formatPass fuel rest (words.drop 1) true).after bytes
      | 'c' :: rest => next rest (padded widths.left widths.width (word.toList.take 1))
      | c :: rest =>
        if c = 'd' || c = 'i' || c = 'u' then
          number rest (paddedNumber widths.left widths.zero widths.width value)
        else if c = 'x' || c = 'o' then
          number rest (padded widths.left widths.width
            (Nat.toDigits (if c = 'x' then 16 else 8) value.toNat))
        else { bytes := [], words, used, ended := true }
      | [] => { bytes := [], words, used, ended := true }
    | '\\' :: c :: rest =>
      match escapedByte? c with
      | some b => (formatPass fuel rest words used).after [b]
      | none =>
        let digits := octalDigits 3 (c :: rest)
        if digits.isEmpty then
          (formatPass fuel rest words used).after (92 :: String.utf8EncodeChar c)
        else
          (formatPass fuel ((c :: rest).drop digits.length) words used).after [octal digits]
    | c :: rest => (formatPass fuel rest words used).after (String.utf8EncodeChar c)

/-- Writes a format until the arguments are used up. -/
def formatAll (fuel : Nat) (format : List Char) (words : List String) : Bytes × List String :=
  match fuel with
  | 0 => ([], [])
  | fuel + 1 =>
    let passed := formatPass (format.length + 1) format words false
    if passed.used && !passed.ended && !passed.words.isEmpty then
      let (bytes, refused) := formatAll fuel format passed.words
      (passed.bytes ++ bytes, passed.refused ++ refused)
    else (passed.bytes, passed.refused)

/-- Writes its words in a format. -/
def printf : Utility := fun words state =>
  match if words.head? = some "--" then words.drop 1 else words with
  | [] => (2, state.report 1 "printf: usage: printf format [arg ...]")
  | format :: rest =>
    let (bytes, refused) := formatAll (rest.length + 1) format.toList rest
    let state := refused.foldl (fun state word =>
      state.report 1 ("printf: " ++ word ++ ": expected numeric value")) state
    (if refused.isEmpty then 0 else 1, state.write 1 bytes)

/-- Whether a test of a path holds. -/
def pathTest (disk : Disk) (sign : Char) (path : String) : Bool :=
  let item? : Option Item := ((disk.open? path).toOption).map Prod.snd
  match sign, item? with
  | 'e', found | 'r', found | 'w', found => found.isSome
  | 'f', some (.leaf (.file _ _)) => true
  | 'd', some (.dir _) => true
  | 's', some (.leaf (.file content _)) => !content.isEmpty
  | 's', some (.dir _) => true
  | 'x', some (.leaf (.file _ executable)) => executable
  | 'x', some (.dir _) => true
  | 'h', _ | 'L', _ =>
    match disk.locate false path with
    | .ok (.taken _ (.leaf (.link _))) => true
    | _ => false
  | _, _ => false

/-- Signs of tests of two texts or numbers. -/
def pairTest? (sign first second : String) : Option (Except String Bool) :=
  let compare (test : Int → Int → Bool) : Option (Except String Bool) :=
    some do
      let some left := first.toInt? | throw ("Illegal number: " ++ first)
      let some right := second.toInt? | throw ("Illegal number: " ++ second)
      return test left right
  match sign with
  | "=" => some (.ok (first == second))
  | "!=" => some (.ok (first != second))
  | "-eq" => compare (· == ·)
  | "-ne" => compare (· != ·)
  | "-lt" => compare (· < ·)
  | "-le" => compare (· ≤ ·)
  | "-gt" => compare (· > ·)
  | "-ge" => compare (· ≥ ·)
  | _ => none

/-- Whether a test holds, or why it cannot be read. -/
def holds (fuel : Nat) (disk : Disk) (words : List String) : Except String Bool :=
  match fuel with
  | 0 => .ok false
  | fuel + 1 =>
    match words with
    | [] => .ok false
    | [word] => .ok (!word.isEmpty)
    | ["!", word] => .ok word.isEmpty
    | ["-n", word] => .ok (!word.isEmpty)
    | ["-z", word] => .ok word.isEmpty
    | [sign, path] =>
      match sign.toList with
      | ['-', c] =>
        if "erwfdsxhL".toList.contains c then .ok (pathTest disk c path)
        else .error (sign ++ ": unexpected operator")
      | _ =>
        if (pairTest? path sign "").isSome then .error (path ++ ": argument expected")
        else .error (sign ++ ": unexpected operator")
    | "!" :: rest => (holds fuel disk rest).map (!·)
    | words =>
      let single : Option (Except String Bool) := match words with
        | [first, sign, second] => pairTest? sign first second
        | _ => none
      let parts (sign : String) : Option (List String × List String) := Text.cutAt? sign words
      match single with
      | some result => result
      | none =>
        match parts "-o", parts "-a" with
        | some (first, second), _ => do
          let left ← holds fuel disk first
          let right ← holds fuel disk second
          return left || right
        | none, some (first, second) => do
          let left ← holds fuel disk first
          let right ← holds fuel disk second
          return left && right
        | none, none => .error (words.headD "" ++ ": unexpected operator")

/-- Tests, under the name that was used. -/
def testAs (name : String) : Utility := fun words state =>
  match holds (words.length + 1) state.disk words with
  | .ok true => (0, state)
  | .ok false => (1, state)
  | .error message => (2, state.report 1 (name ++ ": " ++ message))

/-- Tests under the usual name. -/
def test : Utility := testAs "test"

/-- Tests between brackets. -/
def bracketTest : Utility := fun words state =>
  if words.getLast? = some "]" then testAs "[" words.dropLast state
  else (2, state.report 1 "[: missing ]")

/-- Changes the working directory. -/
def changeDirectory : Utility := fun words state =>
  let path := words.headD ((state.lookup? "HOME").getD "")
  match state.disk.open? path with
  | .ok (location, .dir _) => (0, { state with disk.here := location })
  | _ => (2, state.report 1 ("cd: can't cd to " ++ path))

/-- Writes the working directory. -/
def printDirectory : Utility := fun _ state =>
  (0, state.print ("/" ++ Text.joined "/" state.disk.here ++ "\n"))

/-- Distributes a line over variables; the last one takes what is left. -/
def distribute (separates : Char → Bool) : List String → List Char → State → State
  | [], _, state => state
  | [name], text, state =>
    let kept := (text.dropWhile separates).reverse.dropWhile separates
    state.assign name (String.ofList kept.reverse)
  | name :: others, text, state =>
    let text := text.dropWhile separates
    let word := text.takeWhile (!separates ·)
    distribute separates others (text.drop word.length) (state.assign name (String.ofList word))

/-- Reads a line and distributes it over variables. -/
def read : Utility := fun words state =>
  let names := words.filter fun word => word.toList.head? != some '-'
  let bytes := state.available 0
  let line := bytes.takeWhile (· != 10)
  let ended := line.length < bytes.length
  let state := state.consume 0 (line.length + 1)
  let text := Text.Utf8.decodeLenientChars line
  let state := distribute ((separators state).contains ·) names text state
  (if ended then 0 else 1, state)

/-- Drops parameters in front. -/
def shift : Utility := fun words state =>
  let count := (words.head?.bind String.toNat?).getD 1
  if count ≤ state.parameters.length then
    (0, { state with parameters := state.parameters.drop count })
  else (2, state.report 1 ("shift: can't shift that many"))

/-- Switches of the shell. -/
def switched (on : Bool) (letters : List Char) (state : State) : State :=
  if letters.contains 'e' then { state with strict := on } else state

/-- Sets switches or the parameters. -/
def set : Utility := fun words state =>
  match words with
  | "--" :: rest => (0, { state with parameters := rest })
  | first :: rest =>
    match first.toList with
    | '-' :: letters =>
      (0, switched true letters (if rest.isEmpty then state else { state with parameters := rest }))
    | '+' :: letters => (0, switched false letters state)
    | _ => (0, { state with parameters := first :: rest })
  | [] => (0, state)

/-- Takes the values of variables away. -/
def unset : Utility := fun words state =>
  (0, words.foldl State.forget state)

/-- Assigns where a word assigns. `exports` says that programs are to be given the variables. -/
def assignEach (exports : Bool) : Utility := fun words state =>
  (0, words.foldl (fun state word =>
    let (name, state) := match Text.cutAt? '=' word.toList with
      | some (name, value) =>
        (String.ofList name, state.assign (String.ofList name) (String.ofList value))
      | none => (word, state)
    if exports then { state with exported := name :: state.exported } else state) state)

/-- The commands that every shell has. -/
def find? (name : String) : Option Utility :=
  match name with
  | ":" | "true" | "trap" | "wait" | "umask" => some fun _ state => (0, state)
  | "false" => some fun _ state => (1, state)
  | "echo" => some echo
  | "printf" => some printf
  | "test" => some test
  | "[" => some bracketTest
  | "cd" => some changeDirectory
  | "pwd" => some printDirectory
  | "read" => some read
  | "shift" => some shift
  | "set" => some set
  | "unset" => some unset
  | "export" => some (assignEach true)
  | "readonly" | "local" => some (assignEach false)
  | _ => none

end Builtins
end BuildWarden.Shell
