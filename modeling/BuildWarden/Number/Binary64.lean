/-!
# Binary floating-point numbers

Numbers with 53 significant bits, as settings may hold them. A decimal is rounded to the nearest of
them, a tie to the even one; a number is shown with the fewest digits that round back to it, always
positionally.
-/

namespace BuildWarden

/-- A number `mantissa * 2 ^ exponent` with its sign, an infinity, or no number at all. -/
inductive Binary64 where
  | finite (negative : Bool) (mantissa : Nat) (exponent : Int)
  | infinite (negative : Bool)
  | undefined
  deriving DecidableEq, Repr

namespace Binary64

/-- The least exponent. -/
def leastExponent : Int := -1074

/-- The greatest exponent of a full mantissa. -/
def greatestExponent : Int := 971

/-- Mantissas lie below this. -/
def mantissaBound : Nat := 1 <<< 53

/-- A power of a base with an integer exponent, as a quotient. -/
def power (base : Nat) (exponent : Int) : Nat × Nat :=
  (base.pow exponent.toNat, base.pow (-exponent).toNat)

/-- The nearest integer to a quotient; a tie goes to the even one. -/
def roundQuotient (numerator denominator : Nat) : Nat :=
  let quotient := numerator / denominator
  let twice := 2 * (numerator % denominator)
  if twice < denominator then quotient
  else if denominator < twice then quotient + 1
  else if quotient % 2 = 0 then quotient else quotient + 1

/-- The quotient in units of `2 ^ exponent`. -/
def inUnits (numerator denominator : Nat) (exponent : Int) : Nat :=
  let (up, down) := power 2 exponent
  roundQuotient (numerator * down) (denominator * up)

/-- The exponent at which a positive quotient has a full mantissa, or the least one. -/
def exponentOf (numerator denominator : Nat) : Int :=
  let guess : Int := Int.ofNat numerator.log2 - Int.ofNat denominator.log2 - 53
  let (up, down) := power 2 (guess + 53)
  let exact := if numerator * down < denominator * up then guess else guess + 1
  max exact leastExponent

/-- The number nearest to a positive quotient. -/
def ofQuotient (negative : Bool) (numerator denominator : Nat) : Binary64 :=
  let exponent := exponentOf numerator denominator
  let mantissa := inUnits numerator denominator exponent
  let (mantissa, exponent) :=
    if mantissa = mantissaBound then (mantissa / 2, exponent + 1) else (mantissa, exponent)
  if exponent > greatestExponent then .infinite negative else .finite negative mantissa exponent

/-- The number nearest to `digits * 10 ^ exponent`. -/
def ofDecimal (negative : Bool) (digits : Nat) (exponent : Int) : Binary64 :=
  let size : Int := Int.ofNat (Nat.toDigits 10 digits).length + exponent
  if digits = 0 || size < -330 then .finite negative 0 leastExponent
  else if size > 330 then .infinite negative
  else
    let (up, down) := power 10 exponent
    ofQuotient negative (digits * up) down

/-- Whether `digits * 10 ^ exponent` rounds to the positive number with this mantissa. -/
def roundsTo (mantissa : Nat) (exponent : Int) (digits : Nat) (tens : Int) : Bool :=
  ofDecimal false digits tens == .finite false mantissa exponent

/-- The decimal nearest to a quotient on the grid of `10 ^ tens` that rounds to the number, if its
two neighbours on the grid hold one. -/
def neighbour? (mantissa : Nat) (exponent tens : Int) : Option Nat :=
  let (up, down) := power 2 exponent
  let (tensUp, tensDown) := power 10 tens
  let numerator := mantissa * up * tensDown
  let denominator := down * tensUp
  let low := numerator / denominator
  let nearest := roundQuotient numerator denominator
  let other := if nearest = low then low + 1 else low
  [nearest, other].find? fun digits => roundsTo mantissa exponent digits tens

/-- The fewest digits that round back, with the power of ten of the last one: the first grid that
holds some, from the coarsest down. -/
def shortestFrom (mantissa : Nat) (exponent : Int) (tens : Int) : (grids : Nat) → Nat × Int
  | 0 => (mantissa, 0)
  | grids + 1 =>
    match neighbour? mantissa exponent tens with
    | some digits =>
      if digits = 0 then shortestFrom mantissa exponent (tens - 1) grids else (digits, tens)
    | none => shortestFrom mantissa exponent (tens - 1) grids

/-- Grids finer than this are not needed by any number. -/
def grids : Nat := 700

/-- The shortest decimal of a positive number. -/
def shortest (mantissa : Nat) (exponent : Int) : Nat × Int :=
  shortestFrom mantissa exponent 310 grids

/-- A decimal without an exponent. -/
def positional (digits : Nat) (tens : Int) : String :=
  let shown := Nat.toDigits 10 digits
  if tens ≥ 0 then String.ofList (shown ++ List.replicate tens.toNat '0')
  else
    let places := (-tens).toNat
    let padded := List.replicate (places + 1 - shown.length) '0' ++ shown
    let whole := padded.length - places
    String.ofList (padded.take whole ++ '.' :: padded.drop whole)

/-- The text of a number. -/
def shown : Binary64 → String
  | finite negative mantissa exponent =>
    let (digits, tens) := if mantissa = 0 then (0, 0) else shortest mantissa exponent
    (if negative then "-" else "") ++ positional digits tens
  | infinite negative => if negative then "-inf" else "inf"
  | undefined => "NaN"

end Binary64
end BuildWarden
