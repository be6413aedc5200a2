import BuildWarden.Text.Utf8
/-!
# Slices of encoded text

A part of a text by offsets into its bytes. An offset has to lie between two characters: there is no
slice that starts or ends beyond the bytes or inside a character.
-/

namespace BuildWarden.Text.Utf8

/-- The bytes of characters. -/
def encodeChars (text : List Char) : Bytes :=
  text.flatMap String.utf8EncodeChar

/-- Whether a byte goes on with a character that an earlier byte began. -/
def isContinuation (b : UInt8) : Bool :=
  0x80 ≤ b && b < 0xC0

/-- Whether an offset lies between two characters or at one of the ends. -/
def isBoundary (bytes : Bytes) (offset : Nat) : Bool :=
  match bytes[offset]? with
  | some b => offset == 0 || !isContinuation b
  | none => offset == bytes.length

/-- The bytes from one offset up to another one. -/
def slice? (bytes : Bytes) (start stop : Nat) : Option Bytes :=
  if start ≤ stop && isBoundary bytes start && isBoundary bytes stop then
    some ((bytes.take stop).drop start)
  else none

/-- The bytes from an offset on. -/
def sliceFrom? (bytes : Bytes) (start : Nat) : Option Bytes :=
  slice? bytes start bytes.length

/-- A slice from an offset on is shorter by that offset. -/
theorem length_of_sliceFrom? {bytes part : Bytes} {start : Nat}
    (sliced : sliceFrom? bytes start = some part) : part.length + start = bytes.length := by
  unfold sliceFrom? slice? at sliced
  split at sliced
  next inside =>
    simp only [Bool.and_eq_true, decide_eq_true_eq] at inside
    obtain rfl := Option.some.inj sliced
    rw [List.length_drop, List.take_length]
    omega
  next => cases sliced

end BuildWarden.Text.Utf8
