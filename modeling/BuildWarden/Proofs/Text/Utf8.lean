import BuildWarden.Text.Utf8
import Mathlib.Data.List.Induction
/-!
# Reading back encoded text

Lenient decoding is the inverse of encoding, and what stands in front of other bytes is read on its
own: `decodeLenientChars_encode_append` splits an encoded text off whatever bytes follow it, well
formed or not.
-/

namespace BuildWarden.Text.Utf8

/-- A continuation byte within its bounds adds six bits. -/
theorem continuation_cons {low high : UInt8} {bits : Nat} (small : bits < 64)
    (above : low.toNat ≤ bits + 0x80) (below : bits + 0x80 ≤ high.toNat)
    (value count : Nat) (rest : Bytes) :
    continuation value (count + 1) low high (UInt8.ofNat (bits + 0x80) :: rest) =
      ((continuation (value * 64 + bits) count 0x80 0xBF rest).1,
        (continuation (value * 64 + bits) count 0x80 0xBF rest).2 + 1) := by
  have exact : (UInt8.ofNat (bits + 0x80)).toNat = bits + 0x80 := by
    rw [UInt8.toNat_ofNat']
    omega
  have inside : (low ≤ UInt8.ofNat (bits + 0x80) && UInt8.ofNat (bits + 0x80) ≤ high) = true := by
    simp only [UInt8.le_iff_toNat_le, exact, above, below, decide_true, Bool.and_true]
  simp only [continuation, inside, exact, Nat.add_sub_cancel, ↓reduceIte]

/-- A later continuation byte takes any six bits. -/
theorem continuation_tail {bits : Nat} (small : bits < 64) (value count : Nat) (rest : Bytes) :
    continuation value (count + 1) 0x80 0xBF (UInt8.ofNat (bits + 0x80) :: rest) =
      ((continuation (value * 64 + bits) count 0x80 0xBF rest).1,
        (continuation (value * 64 + bits) count 0x80 0xBF rest).2 + 1) :=
  continuation_cons small (by simp) (by simp; omega) value count rest

/-- A leading byte starts one character. -/
theorem characters_cons {b : UInt8} {lead : Lead} (leads : lead? b = some lead) (rest : Bytes) :
    characters (b :: rest) =
      (continuation lead.bits lead.count lead.low lead.high rest).1.map Char.ofNat ::
        characters (rest.drop (continuation lead.bits lead.count lead.low lead.high rest).2) := by
  rw [characters]
  simp only [leads]

private theorem lead?_one {v : Nat} (high : v ≤ 0x7F) :
    lead? (UInt8.ofNat v) = some ⟨v, 0, 0x80, 0xBF⟩ := by
  have exact : (UInt8.ofNat v).toNat = v := by
    rw [UInt8.toNat_ofNat']
    omega
  simp only [lead?, exact]
  grind

private theorem lead?_two {v : Nat} (low : 0x7F < v) (high : v ≤ 0x7FF) :
    lead? (UInt8.ofNat (v / 64 % 32 + 0xC0)) = some ⟨v / 64, 1, 0x80, 0xBF⟩ := by
  have exact : (UInt8.ofNat (v / 64 % 32 + 0xC0)).toNat = v / 64 + 0xC0 := by
    rw [UInt8.toNat_ofNat']
    omega
  simp only [lead?, exact]
  grind

/-- The bounds behind the leading byte of three leave out overlong forms and surrogates. -/
theorem lead?_three {v : Nat} (low : 0x7FF < v) (high : v ≤ 0xFFFF)
    (valid : v < 0xD800 ∨ 0xDFFF < v) :
    ∃ first last : UInt8,
      lead? (UInt8.ofNat (v / 4096 % 16 + 0xE0)) = some ⟨v / 4096, 2, first, last⟩ ∧
        first.toNat ≤ v / 64 % 64 + 0x80 ∧ v / 64 % 64 + 0x80 ≤ last.toNat := by
  have exact : (UInt8.ofNat (v / 4096 % 16 + 0xE0)).toNat = v / 4096 + 0xE0 := by
    rw [UInt8.toNat_ofNat']
    omega
  simp only [lead?, exact]
  grind

/-- The bounds behind the leading byte of four leave out overlong forms and what is too large. -/
theorem lead?_four {v : Nat} (low : 0xFFFF < v) (high : v < 0x110000) :
    ∃ first last : UInt8,
      lead? (UInt8.ofNat (v / 262144 % 8 + 0xF0)) = some ⟨v / 262144, 3, first, last⟩ ∧
        first.toNat ≤ v / 4096 % 64 + 0x80 ∧ v / 4096 % 64 + 0x80 ≤ last.toNat := by
  have exact : (UInt8.ofNat (v / 262144 % 8 + 0xF0)).toNat = v / 262144 + 0xF0 := by
    rw [UInt8.toNat_ofNat']
    omega
  simp only [lead?, exact]
  grind

/-- The encoding of a character is read back as that character, whatever follows. -/
theorem characters_utf8EncodeChar (c : Char) (rest : Bytes) :
    characters (String.utf8EncodeChar c ++ rest) = some c :: characters rest := by
  have valid : c.val.toNat < 0xD800 ∨ 0xDFFF < c.val.toNat ∧ c.val.toNat < 0x110000 := c.valid
  have back : Char.ofNat c.val.toNat = c := Char.ofNat_toNat c
  rw [String.utf8EncodeChar]
  generalize c.val.toNat = v at valid back ⊢
  split
  next one =>
    rw [List.singleton_append, characters_cons (lead?_one one)]
    simp only [continuation, Option.map_some, back, List.drop_zero]
  split
  next two =>
    rw [List.cons_append, characters_cons (lead?_two (by omega) two), List.singleton_append,
      continuation_tail (by omega)]
    simp only [continuation, Option.map_some, List.drop_succ_cons, List.drop_zero]
    rw [show v / 64 * 64 + v % 64 = v by omega, back]
  split
  next three =>
    obtain ⟨first, last, leads, above, below⟩ := lead?_three (by omega) three (by omega)
    rw [List.cons_append, characters_cons leads, List.cons_append, List.singleton_append,
      continuation_cons (by omega) above below, continuation_tail (by omega)]
    simp only [continuation, Option.map_some, List.drop_succ_cons, List.drop_zero]
    rw [show (v / 4096 * 64 + v / 64 % 64) * 64 + v % 64 = v by omega, back]
  next four =>
    obtain ⟨first, last, leads, above, below⟩ := lead?_four (v := v) (by omega) (by omega)
    rw [List.cons_append, characters_cons leads, List.cons_append, List.cons_append,
      List.singleton_append, continuation_cons (by omega) above below,
      continuation_tail (by omega), continuation_tail (by omega)]
    simp only [continuation, Option.map_some, List.drop_succ_cons, List.drop_zero]
    rw [show ((v / 262144 * 64 + v / 4096 % 64) * 64 + v / 64 % 64) * 64 + v % 64 = v by omega,
      back]

/-- Encoded characters are read on their own, whatever bytes follow them. -/
theorem decodeLenientChars_encodeChars_append (chars : List Char) (rest : Bytes) :
    decodeLenientChars (chars.flatMap String.utf8EncodeChar ++ rest) =
      chars ++ decodeLenientChars rest := by
  induction chars with
  | nil => rfl
  | cons c chars ih =>
      unfold decodeLenientChars at ih ⊢
      rw [List.flatMap_cons, List.append_assoc, characters_utf8EncodeChar, List.map_cons, ih]
      rfl

/-- An encoded text is read on its own, whatever bytes follow it. -/
theorem decodeLenientChars_encode_append (text : String) (rest : Bytes) :
    decodeLenientChars (encode text ++ rest) = text.toList ++ decodeLenientChars rest :=
  decodeLenientChars_encodeChars_append text.toList rest

/-- An encoded text is decoded to itself. -/
@[simp]
theorem decodeLenient_encode (text : String) : decodeLenient (encode text) = text := by
  have whole := decodeLenientChars_encode_append text []
  rw [List.append_nil] at whole
  rw [decodeLenient, whole]
  simp [decodeLenientChars, characters]

/-- Different texts have different bytes. -/
theorem encode_injective : Function.Injective encode :=
  Function.LeftInverse.injective decodeLenient_encode

/-- The bytes of two texts stand one after the other. -/
theorem encode_append (front back : String) :
    encode (front ++ back) = encode front ++ encode back := by
  simp [encode]

/-! ### Endings -/

/-- The last byte of a character is that character, or not one of ASCII. -/
theorem utf8EncodeChar_last (c : Char) :
    ∃ front last, String.utf8EncodeChar c = front ++ [last] ∧
      (last.toNat ≤ 0x7F → front = [] ∧ last.toNat = c.val.toNat) := by
  have valid : c.val.toNat < 0xD800 ∨ 0xDFFF < c.val.toNat ∧ c.val.toNat < 0x110000 := c.valid
  have high (bits : Nat) : ¬(UInt8.ofNat (bits % 64 + 0x80)).toNat ≤ 0x7F := by
    rw [UInt8.toNat_ofNat']
    omega
  rw [String.utf8EncodeChar]
  generalize c.val.toNat = v at valid ⊢
  split
  next one =>
    refine ⟨[], _, rfl, fun _ => ⟨rfl, ?_⟩⟩
    rw [UInt8.toNat_ofNat']
    omega
  split
  next => exact ⟨[_], _, rfl, fun low => (high _ low).elim⟩
  split
  next => exact ⟨[_, _], _, rfl, fun low => (high _ low).elim⟩
  next => exact ⟨[_, _, _], _, rfl, fun low => (high _ low).elim⟩

/-- A text that ends in the byte of an ASCII character ends in that character. -/
theorem exists_concat_of_encodeChars {chars : List Char} {front : Bytes} {c : Char}
    (ascii : c.val.toNat ≤ 0x7F)
    (ends : chars.flatMap String.utf8EncodeChar = front ++ String.utf8EncodeChar c) :
    ∃ before, chars = before ++ [c] ∧ before.flatMap String.utf8EncodeChar = front := by
  have byte : String.utf8EncodeChar c = [UInt8.ofNat c.val.toNat] := by
    rw [String.utf8EncodeChar]
    exact if_pos ascii
  rcases List.eq_nil_or_concat chars with rfl | ⟨before, last, rfl⟩
  · rw [byte] at ends
    simp at ends
  · obtain ⟨lead, final, shape, low⟩ := utf8EncodeChar_last last
    rw [List.concat_eq_append, List.flatMap_append, List.flatMap_singleton, shape, byte,
      ← List.append_assoc] at ends
    obtain ⟨fronts, finals⟩ := List.append_inj' ends rfl
    obtain rfl : final = UInt8.ofNat c.val.toNat := by simpa using finals
    have small : (UInt8.ofNat c.val.toNat).toNat = c.val.toNat := by
      rw [UInt8.toNat_ofNat']
      omega
    obtain ⟨rfl, same⟩ := low (Nat.le_trans (Nat.le_of_eq small) ascii)
    obtain rfl : last = c := Char.toNat_inj.mp (same.symm.trans small)
    exact ⟨before, List.concat_eq_append .., by simpa using fronts⟩

/-- **An ASCII text ends a text if its bytes end the bytes.** -/
theorem suffix_of_encode_suffix {ending name : String}
    (ascii : ∀ c ∈ ending.toList, c.val.toNat ≤ 0x7F) (ends : encode ending <:+ encode name) :
    ending.toList <:+ name.toList := by
  unfold encode at ends
  generalize ending.toList = letters at ascii ends
  generalize name.toList = chars at ends ⊢
  induction letters using List.reverseRecOn generalizing chars with
  | nil => exact List.nil_suffix
  | append_singleton letters c ih =>
      obtain ⟨front, whole⟩ := ends
      rw [List.flatMap_append, List.flatMap_singleton, ← List.append_assoc] at whole
      obtain ⟨before, rfl, same⟩ := exists_concat_of_encodeChars (ascii c (by simp)) whole.symm
      have further :=
        ih (fun other member => ascii other (by simp [member])) before ⟨front, same.symm⟩
      obtain ⟨start, shape⟩ := further
      exact ⟨start, by rw [← shape, List.append_assoc]⟩

end BuildWarden.Text.Utf8
