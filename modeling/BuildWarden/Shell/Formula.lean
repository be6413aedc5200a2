import BuildWarden.Shell.State
/-!
# Formulas

Integer formulas: numbers and variables with the usual operators, which bind as usual.
-/

namespace BuildWarden.Shell.Formula

/-- A token of a formula. -/
inductive Token where
  | number (value : Int)
  | sign (text : String)
  deriving DecidableEq, Repr

/-- Signs of a formula, longer ones first. -/
def signs : List String :=
  ["<<", ">>", "<=", ">=", "==", "!=", "&&", "||", "+", "-", "*", "/", "%", "(", ")", "<", ">",
    "!", "~", "&", "|", "^"]

/-- Reads the tokens of a formula; a variable stands for its value. -/
def tokens? (value : String → Int) (fuel : Nat) (text : List Char) : Option (List Token) :=
  match fuel with
  | 0 => none
  | fuel + 1 =>
    match text with
    | [] => some []
    | c :: rest =>
      if c = ' ' || c = '\t' || c = '\n' then tokens? value fuel rest
      else if c.isDigit then
        let digits := text.takeWhile (·.isDigit)
        let number : Int := digits.foldl (fun n c => n * 10 + (c.toNat - 48)) (0 : Nat)
        (tokens? value fuel (text.drop digits.length)).map (.number number :: ·)
      else if isNameChar c then
        let name := text.takeWhile isNameChar
        (tokens? value fuel (text.drop name.length)).map
          (.number (value (String.ofList name)) :: ·)
      else
        match signs.findSome? fun sign => (sign.toList.isPrefixOf? text).map (sign, ·) with
        | some (sign, rest) => (tokens? value fuel rest).map (.sign sign :: ·)
        | none => none

/-- A reason for which a formula has no value: it cannot be read. -/
def unreadable : String := "expecting primary"

/-- The other reason: a divisor is zero. -/
def byZero : String := "division by zero"

/-- How strongly an operator binds, and what it computes. -/
def operator? (sign : String) : Option (Nat × (Int → Int → Except String Int)) :=
  let truth (holds : Bool) : Except String Int := .ok (if holds then 1 else 0)
  match sign with
  | "||" => some (1, fun a b => truth (a != 0 || b != 0))
  | "&&" => some (2, fun a b => truth (a != 0 && b != 0))
  | "==" => some (3, fun a b => truth (a == b))
  | "!=" => some (3, fun a b => truth (a != b))
  | "<<" => some (5, fun a b => .ok (a * Int.ofNat (1 <<< b.toNat)))
  | ">>" => some (5, fun a b => .ok (a.fdiv (Int.ofNat (1 <<< b.toNat))))
  | "<" => some (4, fun a b => truth (a < b))
  | ">" => some (4, fun a b => truth (a > b))
  | "<=" => some (4, fun a b => truth (a ≤ b))
  | ">=" => some (4, fun a b => truth (a ≥ b))
  | "+" => some (6, fun a b => .ok (a + b))
  | "-" => some (6, fun a b => .ok (a - b))
  | "*" => some (7, fun a b => .ok (a * b))
  | "/" => some (7, fun a b => if b = 0 then .error byZero else .ok (a.tdiv b))
  | "%" => some (7, fun a b => if b = 0 then .error byZero else .ok (a.tmod b))
  | _ => none

mutual

/-- A number, a formula between brackets, or the opposite of one. -/
def operand (fuel : Nat) (tokens : List Token) : Except String (Int × List Token) :=
  match fuel with
  | 0 => .error unreadable
  | fuel + 1 =>
    match tokens with
    | .number value :: rest => .ok (value, rest)
    | .sign "-" :: rest => (operand fuel rest).map fun (value, rest) => (-value, rest)
    | .sign "+" :: rest => operand fuel rest
    | .sign "~" :: rest => do
      let (value, rest) ← operand fuel rest
      return (-value - 1, rest)
    | .sign "!" :: rest =>
      (operand fuel rest).map fun (value, rest) => (if value = 0 then 1 else 0, rest)
    | .sign "(" :: rest => do
      let (value, rest) ← formula fuel 0 rest
      match rest with
      | .sign ")" :: rest => return (value, rest)
      | _ => .error unreadable
    | _ => .error unreadable

/-- Operands with operators that bind at least as strongly as `least`. -/
def formula (fuel least : Nat) (tokens : List Token) : Except String (Int × List Token) :=
  match fuel with
  | 0 => .error unreadable
  | fuel + 1 => do
    let (value, rest) ← operand fuel tokens
    continued fuel least value rest

/-- What follows a value. -/
def continued (fuel least : Nat) (value : Int) (tokens : List Token) :
    Except String (Int × List Token) :=
  match fuel with
  | 0 => .error unreadable
  | fuel + 1 =>
    match tokens with
    | .sign sign :: rest =>
      match operator? sign with
      | some (strength, compute) =>
        if strength < least then .ok (value, tokens)
        else do
          let (other, rest) ← formula fuel (strength + 1) rest
          continued fuel least (← compute value other) rest
      | none => .ok (value, tokens)
    | _ => .ok (value, tokens)

end

/-- The value of a formula, or why it has none; an empty one is zero. -/
def value (state : State) (text : String) : Except String Int :=
  let variableValue (name : String) : Int := ((state.lookup? name).bind String.toInt?).getD 0
  match tokens? variableValue (text.length + 1) text.toList with
  | none => .error unreadable
  | some [] => .ok 0
  | some tokens => do
    match ← formula (4 * tokens.length + 4) 0 tokens with
    | (value, []) => return value
    | _ => throw unreadable

end BuildWarden.Shell.Formula
