import BuildWarden.Console.Style
import BuildWarden.Text.Slice
/-!
# Highlighting by offsets

The scan for brackets over the bytes of a text. Each bracket is looked for from where the scan has
got to, and what stands between two brackets is sliced out by its offsets, so a scan may fail.
-/

namespace BuildWarden.Console

open Text.Utf8 (encodeChars slice? sliceFrom? length_of_sliceFrom?)

/-- The bytes of a text in the given styles. -/
def styledBytes (color : Bool) (styles : List Style) (bytes : Bytes) : Bytes :=
  if color then
    encodeChars (styles.flatMap fun style => sequence style.code) ++ bytes ++
      encodeChars (sequence 0)
  else bytes

/-- The byte of the bracket that opens. -/
def openingByte : UInt8 := 0x5B

/-- The byte of the bracket that closes. -/
def closingByte : UInt8 := 0x5D

/-- The bytes of a text with its brackets highlighted, if each slice that this takes is one. -/
def scan? (color : Bool) (bytes : Bytes) : Option Bytes :=
  match bytes.idxOf? openingByte with
  | none => some bytes
  | some start =>
    match sliceFrom? bytes (start + 1) with
    | none => none
    | some inside =>
      match inside.idxOf? closingByte with
      | none => some bytes
      | some length =>
        match slice? bytes 0 start, slice? bytes (start + 1) (start + 1 + length) with
        | some before, some value =>
          match _behind : sliceFrom? bytes (start + length + 2) with
          | none => none
          | some after =>
            (scan? color after).map fun rest =>
              before ++ styledBytes color [.yellow, .bold] value ++ rest
        | _, _ => none
termination_by bytes.length
decreasing_by
  have := length_of_sliceFrom? _behind
  omega

end BuildWarden.Console
