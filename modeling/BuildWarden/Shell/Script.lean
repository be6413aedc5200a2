import BuildWarden.Shell.Word
/-!
# Scripts

Commands and how they are put together: simple commands with assignments and redirections, pipes,
sequences, conditions and loops. A script is read one complete command at a time, so what stands in
front of a fault has run when the fault is met.
-/

namespace BuildWarden.Shell

/-- Where a redirection leads. -/
inductive Redirection where
  | input
  | output
  | append
  /-- To where another descriptor leads -/
  | duplicate
  deriving DecidableEq, Repr

/-- A redirection of a descriptor. -/
structure Redirect where
  descriptor : Nat
  kind : Redirection
  target : Word
  deriving DecidableEq, Repr

/-- A command. -/
inductive Command where
  | nothing
  | simple (line : Nat) (assignments : List (String × Word)) (words : List Word)
      (redirects : List Redirect)
  | pipe (first second : Command)
  | not (inside : Command)
  | sequence (first second : Command)
  | andThen (first second : Command)
  | orElse (first second : Command)
  | subshell (inside : Command)
  | condition (test yes no : Command)
  /-- Repeats while the test has the given outcome -/
  | loop (goal : Bool) (test inside : Command)
  /-- Once for each of the words; of the positional parameters if no words are given -/
  | each (name : String) (words : Option (List Word)) (inside : Command)
  /-- The first of several commands one of whose patterns describes the word -/
  | choose (word : Word) (patterns : List Word) (inside others : Command)
  | function (name : String) (inside : Command)
  | redirected (inside : Command) (redirects : List Redirect)
  deriving Repr

/-- A token of a script. -/
inductive Token where
  | word (word : Word)
  /-- A number in front of a redirection -/
  | descriptor (number : Nat)
  | operator (text : String)
  | lineEnd
  | fault (fault : LineFault)
  deriving DecidableEq, Repr

/-- A token and the line on which it stands. -/
abbrev Tokens := List (Nat × Token)

/-- Operators, longer ones first. -/
def operators : List String :=
  ["<&", ">&", ">>", ">|", "&&", "||", ";;", "<", ">", "&", "|", ";", "(", ")"]

/-- The operator in front, and what remains. -/
def operator? (text : List Char) : Option (String × List Char) :=
  operators.findSome? fun operator =>
    (operator.toList.isPrefixOf? text).map fun rest => (operator, rest)

/-- The number of line ends in what was read. -/
def linesBetween (text rest : List Char) : Nat :=
  (text.take (text.length - rest.length)).count '\n'

/-- Reads the tokens of a script. -/
def tokens (fuel : Nat) (line : Nat) (text : List Char) : Tokens :=
  match fuel with
  | 0 => []
  | fuel + 1 =>
    match text with
    | [] => []
    | ' ' :: rest | '\t' :: rest => tokens fuel line rest
    | '\\' :: '\n' :: rest => tokens fuel (line + 1) rest
    | '#' :: rest => tokens fuel line (rest.dropWhile (· != '\n'))
    | '\n' :: rest => (line, .lineEnd) :: tokens fuel (line + 1) rest
    | text =>
      match operator? text with
      | some (operator, rest) => (line, .operator operator) :: tokens fuel line rest
      | none =>
        match readWord (text.length + 1) text with
        | .error fault => [(line, .fault fault)]
        | .ok (word, rest) =>
          let digits := (literal? word).getD ""
          let redirects := match rest with
            | '<' :: _ | '>' :: _ => true
            | _ => false
          let token := if redirects && !digits.isEmpty && digits.toList.all Char.isDigit then
              Token.descriptor (digits.toList.foldl (fun n c => n * 10 + (c.toNat - 48)) 0)
            else .word word
          (line, token) :: tokens fuel (line + linesBetween text rest) rest

/-- What was read, and the tokens that remain. -/
abbrev Parsed := Except (Nat × LineFault) (Command × Tokens)

/-- How a token is called where it is not expected. -/
def Token.shown : Token → String
  | .word written =>
    match literal? written with
    | some text =>
      if ["then", "else", "elif", "fi", "do", "done", "case", "esac", "while", "until", "for", "if",
          "\x7b", "\x7d", "!"].contains text then "\"" ++ text ++ "\""
      else "word"
    | none => "word"
  | .descriptor _ => "word"
  | .operator text => "\"" ++ text ++ "\""
  | .lineEnd => "newline"
  | .fault found => found.message

/-- The fault of the token in front. What is wrong at the end of a script is on no line of it, which
is written as zero. -/
def refuse {α : Type} (tokens : Tokens) (wanted : Option String := none) :
    Except (Nat × LineFault) α :=
  match tokens with
  | (line, .fault fault) :: _ => .error (line, fault)
  | (line, token) :: _ => .error (line, .unexpected token.shown wanted)
  | [] => .error (0, .unexpected "end of file" wanted)

/-- The tokens without the line ends in front. -/
def skipLineEnds (tokens : Tokens) : Tokens :=
  tokens.dropWhile fun (_, token) => token == .lineEnd

/-- Whether a reserved word stands in front. -/
def reserved? (text : String) (tokens : Tokens) : Option Tokens :=
  match tokens with
  | (_, .word word) :: rest => if literal? word = some text then some rest else none
  | _ => none

/-- Takes a reserved word. -/
def expect (text : String) (tokens : Tokens) : Except (Nat × LineFault) Tokens :=
  match reserved? text tokens with
  | some rest => .ok rest
  | none => refuse tokens (some ("\"" ++ text ++ "\""))

/-- Whether the list of commands ends here. -/
def endsList (tokens : Tokens) : Bool :=
  match tokens with
  | [] => true
  | (_, .operator text) :: _ => text = ")" || text = ";;"
  | (_, .word _) :: _ =>
    ["then", "else", "elif", "fi", "do", "done", "esac", "\x7d"].any fun word =>
      (reserved? word tokens).isSome
  | _ => false

/-- A redirection in front. -/
def redirect? (tokens : Tokens) : Option (Except (Nat × LineFault) (Redirect × Tokens)) :=
  let (given, rest) := match tokens with
    | (_, .descriptor number) :: rest => (some number, rest)
    | _ => (none, tokens)
  let make (kind : Redirection) (usual : Nat) (rest : Tokens) :=
    match rest with
    | (_, .word target) :: rest => Except.ok (⟨given.getD usual, kind, target⟩, rest)
    | rest => refuse rest
  match rest with
  | (_, .operator "<") :: rest => some (make .input 0 rest)
  | (_, .operator ">") :: rest | (_, .operator ">|") :: rest => some (make .output 1 rest)
  | (_, .operator ">>") :: rest => some (make .append 1 rest)
  | (_, .operator "<&") :: rest => some (make .duplicate 0 rest)
  | (_, .operator ">&") :: rest => some (make .duplicate 1 rest)
  | _ => none

/-- Redirections behind a command. -/
def redirects (fuel : Nat) (tokens : Tokens) :
    Except (Nat × LineFault) (List Redirect × Tokens) :=
  match fuel with
  | 0 => .ok ([], tokens)
  | fuel + 1 =>
    match redirect? tokens with
    | none => .ok ([], tokens)
    | some (.error fault) => .error fault
    | some (.ok (redirect, rest)) => do
      let (others, rest) ← redirects fuel rest
      return (redirect :: others, rest)

/-- The name and value of an assignment. -/
def assignment? (word : Word) : Option (String × Word) :=
  let name := word.takeWhile fun
    | .bare c => c != '='
    | _ => false
  match literal? name, word.drop name.length with
  | some text, .bare '=' :: value => if isName text.toList then some (text, value) else none
  | _, _ => none

/-- Reads the parts of a simple command. -/
def simpleParts (fuel : Nat) (words : List Word) (tokens : Tokens) :
    Except (Nat × LineFault) (List (String × Word) × List Word × List Redirect × Tokens) :=
  match fuel with
  | 0 => .ok ([], words, [], tokens)
  | fuel + 1 =>
    match redirect? tokens with
    | some (.error fault) => .error fault
    | some (.ok (redirect, rest)) => do
      let (assignments, words, others, rest) ← simpleParts fuel words rest
      return (assignments, words, redirect :: others, rest)
    | none =>
      match tokens with
      | (_, .word word) :: rest =>
        match if words.isEmpty then assignment? word else none with
        | some assignment => do
          let (assignments, words, others, rest) ← simpleParts fuel words rest
          return (assignment :: assignments, words, others, rest)
        | none => simpleParts fuel (words ++ [word]) rest
      | (_, .fault _) :: _ => refuse tokens
      | _ => .ok ([], words, [], tokens)

/-- The patterns of a branch, up to the bracket behind them. -/
def patterns (fuel : Nat) (tokens : Tokens) : Except (Nat × LineFault) (List Word × Tokens) :=
  match fuel with
  | 0 => refuse tokens
  | fuel + 1 =>
    match tokens with
    | (_, .word word) :: (_, .operator ")") :: rest => .ok ([word], rest)
    | (_, .word word) :: (_, .operator "|") :: rest => do
      let (others, rest) ← patterns fuel rest
      return (word :: others, rest)
    | (_, .word _) :: rest => refuse rest (some "\")\"")
    | tokens => refuse tokens

/-- The words a loop goes through. -/
def loopWords (tokens : Tokens) : List Word × Tokens :=
  let words := tokens.takeWhile fun
    | (_, .word _) => true
    | _ => false
  (words.filterMap fun
    | (_, .word word) => some word
    | _ => none, tokens.drop words.length)

/-- What may separate commands. -/
def skipSeparators (tokens : Tokens) : Tokens :=
  match skipLineEnds tokens with
  | (_, .operator ";") :: rest => skipLineEnds rest
  | tokens => tokens

mutual

/-- A sequence of commands, up to where it ends. -/
def commands (fuel : Nat) (tokens : Tokens) : Parsed :=
  match fuel with
  | 0 => refuse tokens
  | fuel + 1 =>
    let tokens := skipLineEnds tokens
    if endsList tokens then .ok (.nothing, tokens)
    else do
      let (first, rest) ← andOr fuel tokens
      match rest with
      | (_, .operator ";") :: rest | (_, .operator "&") :: rest | (_, .lineEnd) :: rest =>
        let (others, rest) ← commands fuel rest
        return (.sequence first others, rest)
      | rest => if endsList rest then return (first, rest) else refuse rest

/-- Commands that depend on each other's status. -/
def andOr (fuel : Nat) (tokens : Tokens) : Parsed :=
  match fuel with
  | 0 => refuse tokens
  | fuel + 1 => do
    let (first, rest) ← pipeline fuel tokens
    andOrRest fuel first rest

/-- What follows a command in front of which others may stand. -/
def andOrRest (fuel : Nat) (first : Command) (tokens : Tokens) : Parsed :=
  match fuel with
  | 0 => refuse tokens
  | fuel + 1 =>
    match tokens with
    | (_, .operator "&&") :: rest => do
      let (second, rest) ← pipeline fuel (skipLineEnds rest)
      andOrRest fuel (.andThen first second) rest
    | (_, .operator "||") :: rest => do
      let (second, rest) ← pipeline fuel (skipLineEnds rest)
      andOrRest fuel (.orElse first second) rest
    | tokens => .ok (first, tokens)

/-- Commands each of which reads what the one in front writes. -/
def pipeline (fuel : Nat) (tokens : Tokens) : Parsed :=
  match fuel with
  | 0 => refuse tokens
  | fuel + 1 =>
    match reserved? "!" tokens with
    | some rest => do
      let (inside, rest) ← pipeline fuel rest
      return (.not inside, rest)
    | none => do
      let (first, rest) ← command fuel tokens
      match rest with
      | (_, .operator "|") :: rest =>
        let (second, rest) ← pipeline fuel (skipLineEnds rest)
        return (.pipe first second, rest)
      | rest => return (first, rest)

/-- One command. -/
def command (fuel : Nat) (tokens : Tokens) : Parsed :=
  match fuel with
  | 0 => refuse tokens
  | fuel + 1 =>
    let closed (parsed : Parsed) : Parsed := do
      let (inside, rest) ← parsed
      let (others, rest) ← redirects rest.length rest
      return (if others.isEmpty then inside else .redirected inside others, rest)
    match tokens with
    | (_, .operator "(") :: rest =>
      closed do
        let (inside, rest) ← commands fuel rest
        match rest with
        | (_, .operator ")") :: rest => return (.subshell inside, rest)
        | rest => refuse rest (some "\")\"")
    | (_, .word name) :: (_, .operator "(") :: (_, .operator ")") :: rest => do
      let (inside, rest) ← command fuel (skipLineEnds rest)
      return (.function ((literal? name).getD "") inside, rest)
    | (line, .word word) :: rest =>
      match literal? word with
      | some "\x7b" =>
        closed do
          let (inside, rest) ← commands fuel rest
          return (inside, ← expect "\x7d" rest)
      | some "if" => closed (conditional fuel rest)
      | some "while" => closed (repeated fuel true rest)
      | some "until" => closed (repeated fuel false rest)
      | some "for" =>
        match rest with
        | (_, .word name) :: rest =>
          closed do
            let rest := skipLineEnds rest
            let (words, rest) := match reserved? "in" rest with
              | some rest =>
                let (words, rest) := loopWords rest
                (some words, rest)
              | none => (none, rest)
            let (inside, rest) ← commands fuel (← expect "do" (skipSeparators rest))
            return (.each ((literal? name).getD "") words inside, ← expect "done" rest)
        | rest => refuse rest
      | some "case" =>
        match rest with
        | (_, .word subject) :: rest =>
          closed do
            branches fuel subject (skipLineEnds (← expect "in" (skipLineEnds rest)))
        | rest => refuse rest
      | _ =>
        if endsList tokens then refuse tokens
        else do
          let (assignments, words, others, rest) ← simpleParts tokens.length [] tokens
          return (.simple line assignments words others, rest)
    | (line, _) :: _ => do
      let (assignments, words, others, rest) ← simpleParts tokens.length [] tokens
      if assignments.isEmpty && words.isEmpty && others.isEmpty then refuse tokens
      else return (.simple line assignments words others, rest)
    | [] => refuse tokens

/-- A condition, behind the word that starts it. -/
def conditional (fuel : Nat) (tokens : Tokens) : Parsed :=
  match fuel with
  | 0 => refuse tokens
  | fuel + 1 => do
    let (test, rest) ← commands fuel tokens
    let (yes, rest) ← commands fuel (← expect "then" rest)
    match reserved? "elif" rest with
    | some rest =>
      let (no, rest) ← conditional fuel rest
      return (.condition test yes no, rest)
    | none =>
      match reserved? "else" rest with
      | some rest =>
        let (no, rest) ← commands fuel rest
        return (.condition test yes no, ← expect "fi" rest)
      | none => return (.condition test yes .nothing, ← expect "fi" rest)

/-- A loop, behind the word that starts it. -/
def repeated (fuel : Nat) (goal : Bool) (tokens : Tokens) : Parsed :=
  match fuel with
  | 0 => refuse tokens
  | fuel + 1 => do
    let (test, rest) ← commands fuel tokens
    let (inside, rest) ← commands fuel (← expect "do" rest)
    return (.loop goal test inside, ← expect "done" rest)

/-- The branches of a choice, and its end. -/
def branches (fuel : Nat) (subject : Word) (tokens : Tokens) : Parsed :=
  match fuel with
  | 0 => refuse tokens
  | fuel + 1 =>
    match reserved? "esac" tokens with
    | some rest => .ok (.nothing, rest)
    | none => do
      let tokens := match tokens with
        | (_, .operator "(") :: rest => rest
        | tokens => tokens
      let (words, rest) ← patterns tokens.length tokens
      let (inside, rest) ← commands fuel rest
      match rest with
      | (_, .operator ";;") :: rest =>
        let (others, rest) ← branches fuel subject (skipLineEnds rest)
        return (.choose subject words inside others, rest)
      | rest => return (.choose subject words inside .nothing, ← expect "esac" rest)

end

/-- Reads one complete command, up to the end of its line. -/
def completeCommand (tokens : Tokens) : Parsed :=
  let fuel := 8 * tokens.length + 8
  let rec line (count : Nat) (tokens : Tokens) : Parsed :=
    match count with
    | 0 => refuse tokens
    | count + 1 => do
      let (first, rest) ← andOr fuel tokens
      match rest with
      | (_, .operator ";") :: rest | (_, .operator "&") :: rest =>
        match rest with
        | [] | (_, .lineEnd) :: _ => return (first, rest)
        | rest =>
          let (others, rest) ← line count rest
          return (.sequence first others, rest)
      | [] | (_, .lineEnd) :: _ => return (first, rest)
      | rest => refuse rest
  line (tokens.length + 1) tokens

end BuildWarden.Shell
