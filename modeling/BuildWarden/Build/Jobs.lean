import BuildWarden.Text.Blank
/-!
# Job requests

How many jobs a build may run at once: all the cores, half of them, all but one, half but one, or a
number. Whatever was asked, a build gets at least one job and no more jobs than cores; a request
that cannot be understood asks for half but one.
-/

namespace BuildWarden

/-- A number of parallel jobs, before the number of cores is known. -/
inductive JobRequest where
  | all
  | half
  | allButOne
  | halfButOne
  | exactly (count : Int)
  deriving DecidableEq, Repr

namespace JobRequest

/-- The value of a sequence of decimal digits, none of which may be missing. -/
def digitsValue? (digits : List Char) : Option Nat :=
  if digits.isEmpty || digits.any (!·.isDigit) then none
  else some (digits.foldl (fun value c => value * 10 + (c.toNat - '0'.toNat)) 0)

/-- An integer: decimal digits of any length behind an optional sign. -/
def integer? : List Char → Option Int
  | '-' :: digits => (digitsValue? digits).map fun value => -(value : Int)
  | '+' :: digits => (digitsValue? digits).map Int.ofNat
  | digits => (digitsValue? digits).map Int.ofNat

/-- Reads a request; blanks around it do not matter. -/
def parse? (text : String) : Option JobRequest :=
  match Text.trim text with
  | "all" => some all
  | "half" => some half
  | "except1" => some allButOne
  | "halfexcept1" => some halfButOne
  | other => (integer? other.toList).map exactly

/-- A request as it is written. -/
def shown : JobRequest → String
  | all => "all"
  | half => "half"
  | allButOne => "except1"
  | halfButOne => "halfexcept1"
  | exactly count => toString count

/-- What a request that cannot be understood asks for. -/
def fallback : JobRequest := halfButOne

/-- The word of 64 bits for a count, unless the count is too large for one. -/
def word? (count : Int) : Option Int64 :=
  if Int64.minValue.toInt ≤ count ∧ count ≤ Int64.maxValue.toInt then some (Int64.ofInt count)
  else none

/-- A count between one and the number of cores. Words are compared as signed ones; a count without
a word is beyond the cores of any host, or negative. -/
def clamped (count : Int) (cores : Nat) : Nat :=
  match word? count with
  | some requested => (max 1 (min requested (Int64.ofNat cores))).toUInt64.toNat
  | none => if count < 0 then 1 else cores

/-- The number of jobs on a host with the given cores. -/
def jobs (request : JobRequest) (cores : Nat) : Nat :=
  if cores ≤ 1 then 1
  else
    match request with
    | all => cores
    | half => cores / 2
    | allButOne => cores - 1
    | halfButOne => if cores ≤ 3 then 1 else cores / 2 - 1
    | exactly count => clamped count cores

/-- The number of jobs a request text stands for. -/
def resolve (text : String) (cores : Nat) : Nat :=
  ((parse? text).getD fallback).jobs cores

end JobRequest
end BuildWarden
