import BuildWarden.Number.Binary64
import BuildWarden.Settings.Value
import BuildWarden.Toml.Text
/-!
# Numbers and moments of a document

Integers in base ten, sixteen, eight and two, numbers with a fraction or an exponent, and dates and
times. Digits may have single underscores between them.
-/

namespace BuildWarden.Toml

open Settings (Scalar)

/-- Digits, with single underscores between them, and what remains. -/
def digits? (isDigit : Char → Bool) : List Char → Option (List Char × List Char)
  | [] => none
  | c :: '_' :: behind =>
    if isDigit c then
      (digits? isDigit behind).map fun (others, rest) => (c :: others, rest)
    else none
  | c :: rest =>
    if isDigit c then
      match digits? isDigit rest with
      | some (others, rest) => some (c :: others, rest)
      | none => some ([c], rest)
    else none

/-- The value of decimal digits. -/
def decimalValue (digits : List Char) : Nat :=
  digits.foldl (fun value c => value * 10 + (c.toNat - '0'.toNat)) 0

/-- An integer that fits 64 bits. -/
def integer? (value : Int) : Option Scalar :=
  let bound := Int.ofNat (UInt64.size / 2)
  if -bound ≤ value && value < bound then some (.integer value) else none

/-- An integer behind a sign of its base. -/
def basedInteger? (bits : Nat) (isDigit : Char → Bool) (text : List Char) :
    Option (Scalar × List Char) := do
  let (digits, rest) ← digits? isDigit text
  let value ← digits.foldl (fun value c => do
    return ((← value) <<< bits) + (← hexValue? [c])) (some 0)
  return (← integer? (value : Nat), rest)

/-- The exponent of a number, if one follows. -/
def exponent? (text : List Char) : Option (Option (Int × List Char)) :=
  let read (negative : Bool) (text : List Char) : Option (Option (Int × List Char)) :=
    (digits? Char.isDigit text).map fun (digits, rest) =>
      let value : Int := decimalValue digits
      some (if negative then -value else value, rest)
  let signed : List Char → Option (Option (Int × List Char))
    | '-' :: rest => read true rest
    | '+' :: rest => read false rest
    | rest => read false rest
  match text with
  | 'e' :: rest | 'E' :: rest => signed rest
  | _ => some none

/-- A number with a fraction or an exponent. It must not be too large. -/
def real? (negative : Bool) (digits fraction : List Char) (exponent : Int) : Option Scalar :=
  let value :=
    Binary64.ofDecimal negative (decimalValue (digits ++ fraction)) (exponent - fraction.length)
  if value = .infinite false then none else some (.real value)

/-- A number in base ten, behind its sign. -/
def decimal? (negative : Bool) (text : List Char) : Option (Scalar × List Char) := do
  let (digits, rest) ← digits? Char.isDigit text
  if digits.length > 1 && digits.head? = some '0' then none
  let (fraction, rest) ← match rest with
    | '.' :: behind =>
      (digits? Char.isDigit behind).map fun (fraction, rest) => (some fraction, rest)
    | _ => some (none, rest)
  match fraction, ← exponent? rest with
  | none, none =>
    let value : Int := decimalValue digits
    return (← integer? (if negative then -value else value), rest)
  | fraction, none => return (← real? negative digits (fraction.getD []) 0, rest)
  | fraction, some (exponent, rest) =>
    return (← real? negative digits (fraction.getD []) exponent, rest)

/-- A number with a sign in front. -/
def signed? (negative : Bool) (text : List Char) : Option (Scalar × List Char) :=
  match text with
  | 'i' :: 'n' :: 'f' :: rest => some (.real (.infinite negative), rest)
  | 'n' :: 'a' :: 'n' :: rest => some (.real .undefined, rest)
  | _ => decimal? negative text

/-- An exact number of digits. -/
def fixed? (count : Nat) (text : List Char) : Option (Nat × List Char) :=
  let digits := text.take count
  if digits.length = count && digits.all (·.isDigit) then
    some (decimalValue digits, text.drop count)
  else none

/-- One character. -/
def sign? (c : Char) : List Char → Option (List Char)
  | [] => none
  | d :: rest => if d = c then some rest else none

/-- The days of a month. -/
def daysIn (year month : Nat) : Nat :=
  if month = 2 then
    if (year % 4 = 0 && year % 100 != 0) || year % 400 = 0 then 29 else 28
  else if [4, 6, 9, 11].contains month then 30
  else 31

/-- A date. -/
def date? (text : List Char) : Option (List Char) := do
  let (year, rest) ← fixed? 4 text
  let (month, rest) ← fixed? 2 (← sign? '-' rest)
  let (day, rest) ← fixed? 2 (← sign? '-' rest)
  if 1 ≤ month && month ≤ 12 && 1 ≤ day && day ≤ daysIn year month then return rest else none

/-- A time of the day, perhaps with a fraction of a second. -/
def time? (text : List Char) : Option (List Char) := do
  let (hour, rest) ← fixed? 2 text
  let (minute, rest) ← fixed? 2 (← sign? ':' rest)
  let (second, rest) ← fixed? 2 (← sign? ':' rest)
  if hour > 23 || minute > 59 || second > 60 then none
  match rest with
  | '.' :: c :: behind => return if c.isDigit then behind.dropWhile (·.isDigit) else rest
  | _ => return rest

/-- The distance of a time from the common one, if it is given. -/
def offset? (text : List Char) : Option (List Char) :=
  let distance (rest : List Char) : Option (List Char) := do
    let (hour, rest) ← fixed? 2 rest
    let (minute, rest) ← fixed? 2 (← sign? ':' rest)
    if hour ≤ 23 && minute ≤ 59 then return rest else none
  match text with
  | 'Z' :: rest | 'z' :: rest => some rest
  | '+' :: rest | '-' :: rest => distance rest
  | _ => some text

/-- A date, a time or both; what remains behind it. -/
def moment? (text : List Char) : Option (List Char) :=
  match date? text with
  | none => time? text
  | some rest =>
    match rest with
    | c :: behind =>
      if c = 'T' || c = 't' || c = ' ' then
        match time? behind with
        | some rest => offset? rest
        | none => some rest
      else some rest
    | [] => some rest

/-- Whether digits and what follows them look like a date or a time. -/
def looksLikeMoment (text : List Char) : Bool :=
  match (text.takeWhile (·.isDigit)).length, text.dropWhile (·.isDigit) with
  | 4, '-' :: _ | 2, ':' :: _ => true
  | _, _ => false

end BuildWarden.Toml
