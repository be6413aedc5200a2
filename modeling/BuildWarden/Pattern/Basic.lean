import BuildWarden.Text.Utf8
/-!
# File patterns

A pattern is matched against the bytes of a whole name. It is a sequence of parts: one byte out of a
set, any bytes, or a choice between two patterns.
-/

namespace BuildWarden

/-- A set of bytes: what lies in one of the ranges, or what lies in none. -/
structure ByteSet where
  negated : Bool
  ranges : List (UInt8 × UInt8)
  deriving DecidableEq, Repr

/-- Membership in a set of bytes. -/
def ByteSet.holds (set : ByteSet) (b : UInt8) : Bool :=
  set.ranges.any (fun (first, last) => first ≤ b && b ≤ last) != set.negated

/-- A file pattern. -/
inductive Pattern where
  | done
  /-- One byte of the set -/
  | one (set : ByteSet) (rest : Pattern)
  /-- Any bytes -/
  | many (rest : Pattern)
  /-- One of two patterns -/
  | either (first second : Pattern) (rest : Pattern)
  deriving DecidableEq, Repr

namespace Pattern

/-- The sequences that remain when some bytes are taken from the front. -/
def tails : Bytes → List Bytes
  | [] => [[]]
  | b :: rest => (b :: rest) :: tails rest

/-- Whether the pattern takes some bytes from the front so that `next` holds of the others. -/
def takes : Pattern → (next : Bytes → Bool) → Bytes → Bool
  | done, next, bytes => next bytes
  | one _ _, _, [] => false
  | one set rest, next, b :: bytes => set.holds b && rest.takes next bytes
  | many rest, next, bytes => (tails bytes).any (rest.takes next)
  | either first second rest, next, bytes =>
    first.takes (rest.takes next) bytes || second.takes (rest.takes next) bytes

/-- Whether the pattern describes all the bytes. -/
def matchesBytes (pattern : Pattern) (bytes : Bytes) : Bool :=
  pattern.takes (·.isEmpty) bytes

/-- Whether the pattern describes the name. -/
def accepts (pattern : Pattern) (name : String) : Bool :=
  pattern.matchesBytes (Text.Utf8.encode name)

/-- The set of one byte. -/
def only (b : UInt8) : ByteSet :=
  ⟨false, [(b, b)]⟩

/-- Exactly these bytes, then the rest. -/
def bytes (literal : Bytes) (rest : Pattern) : Pattern :=
  literal.foldr (fun b rest => one (only b) rest) rest

/-- Names that end in the text. -/
def endingIn (text : String) : Pattern :=
  many (bytes (Text.Utf8.encode text) done)

end Pattern
end BuildWarden
