/-!
# UTF-8

File contents are bytes. `decode?` reads them strictly. `decodeLenient` never fails: it writes
U+FFFD for each longest run of bytes that starts a character without completing it, and for each
byte that starts none.
-/

namespace BuildWarden

/-- Contents of files and of output streams. -/
abbrev Bytes := List UInt8

namespace Text.Utf8

/-- The bytes of a text. -/
def encode (text : String) : Bytes :=
  text.toList.flatMap String.utf8EncodeChar

/-- What a leading byte announces. -/
structure Lead where
  /-- Payload bits of the leading byte -/
  bits : Nat
  /-- Continuation bytes to come -/
  count : Nat
  /-- Bounds of the first continuation byte -/
  low : UInt8
  high : UInt8

/-- The leading bytes of well-formed sequences, none of them overlong, a surrogate or too large. -/
def lead? (b : UInt8) : Option Lead :=
  let n := b.toNat
  if n < 0x80 then some ⟨n, 0, 0x80, 0xBF⟩
  else if n < 0xC2 then none
  else if n < 0xE0 then some ⟨n - 0xC0, 1, 0x80, 0xBF⟩
  else if n == 0xE0 then some ⟨0, 2, 0xA0, 0xBF⟩
  else if n == 0xED then some ⟨0xD, 2, 0x80, 0x9F⟩
  else if n < 0xF0 then some ⟨n - 0xE0, 2, 0x80, 0xBF⟩
  else if n == 0xF0 then some ⟨0, 3, 0x90, 0xBF⟩
  else if n < 0xF4 then some ⟨n - 0xF0, 3, 0x80, 0xBF⟩
  else if n == 0xF4 then some ⟨4, 3, 0x80, 0x8F⟩
  else none

/-- Reads `count` continuation bytes: the code point if all are there, and how many were read. -/
def continuation (value : Nat) : (count : Nat) → (low high : UInt8) → Bytes → Option Nat × Nat
  | 0, _, _, _ => (some value, 0)
  | _ + 1, _, _, [] => (none, 0)
  | count + 1, low, high, b :: rest =>
    if low ≤ b && b ≤ high then
      let (result, used) := continuation (value * 64 + (b.toNat - 0x80)) count 0x80 0xBF rest
      (result, used + 1)
    else (none, 0)

/-- One character per well-formed sequence, `none` per malformed part. -/
def characters : Bytes → List (Option Char)
  | [] => []
  | b :: rest =>
    match lead? b with
    | none => none :: characters rest
    | some lead =>
      let (value, used) := continuation lead.bits lead.count lead.low lead.high rest
      value.map Char.ofNat :: characters (rest.drop used)
termination_by bytes => bytes.length
decreasing_by all_goals (simp only [List.length_cons, List.length_drop]; omega)

/-- The characters, with U+FFFD for every malformed part. -/
def decodeLenientChars (bytes : Bytes) : List Char :=
  (characters bytes).map (·.getD (Char.ofNat 0xFFFD))

/-- The text, with U+FFFD for every malformed part. -/
def decodeLenient (bytes : Bytes) : String :=
  String.ofList (decodeLenientChars bytes)

/-- The text, if the bytes are well formed. -/
def decode? (bytes : Bytes) : Option String :=
  ((characters bytes).mapM id).map String.ofList

end Text.Utf8
end BuildWarden
