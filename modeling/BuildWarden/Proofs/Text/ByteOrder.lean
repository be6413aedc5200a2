import BuildWarden.Text.Utf8
import Mathlib.Data.String.Basic
/-!
# The order of texts and of their bytes

Texts are compared character by character, and bytes one by one. The encoding keeps the order: the
first byte tells how many there are, more bytes are for larger characters, and the bits of a larger
character come in front.
-/

namespace BuildWarden.Text.Utf8

/-- Sequences of bytes are compared at their first bytes, and then behind them. -/
theorem ofNat_cons_lt_iff {m n : Nat} (small : m < 256) (small' : n < 256) (rest rest' : Bytes) :
    UInt8.ofNat m :: rest < UInt8.ofNat n :: rest' ↔ m < n ∨ m = n ∧ rest < rest' := by
  rw [List.cons_lt_cons_iff, UInt8.lt_iff_toNat_lt, ← UInt8.toNat_inj, UInt8.toNat_ofNat',
    UInt8.toNat_ofNat', Nat.mod_eq_of_lt small, Nat.mod_eq_of_lt small']

/-- Numbers are compared by their groups of six bits, from the largest group on. -/
theorem groups_lt {v w : Nat} (less : v < w) (high : w < 0x200000) :
    v / 262144 % 8 < w / 262144 % 8 ∨ v / 262144 % 8 = w / 262144 % 8 ∧
      (v / 4096 % 64 < w / 4096 % 64 ∨ v / 4096 % 64 = w / 4096 % 64 ∧
        (v / 64 % 64 < w / 64 % 64 ∨ v / 64 % 64 = w / 64 % 64 ∧ v % 64 < w % 64)) := by
  have groups (n : Nat) : n / 64 / 64 = n / 4096 ∧ n / 4096 / 64 = n / 262144 := by omega
  obtain ⟨second, first⟩ := groups v
  obtain ⟨second', first'⟩ := groups w
  rcases (Nat.div_le_div_right less.le : v / 262144 ≤ w / 262144).lt_or_eq with before | same
  · exact .inl (by omega)
  rcases (Nat.div_le_div_right less.le : v / 4096 ≤ w / 4096).lt_or_eq with before | further
  · omega
  rcases (Nat.div_le_div_right less.le : v / 64 ≤ w / 64).lt_or_eq with before | last
  · omega
  · omega

/-- The bytes of a smaller character come before those of a larger one, whatever follows them. -/
theorem utf8EncodeChar_append_lt {c d : Char} (less : c < d) (rest rest' : Bytes) :
    String.utf8EncodeChar c ++ rest < String.utf8EncodeChar d ++ rest' := by
  have less : c.val.toNat < d.val.toNat := less
  have high : d.val.toNat < 0x110000 := by
    have valid : d.val.toNat < 0xD800 ∨ 0xDFFF < d.val.toNat ∧ d.val.toNat < 0x110000 := d.valid
    omega
  rw [String.utf8EncodeChar, String.utf8EncodeChar]
  generalize c.val.toNat = v at less ⊢
  generalize d.val.toNat = w at less high ⊢
  have groups := groups_lt less (by omega)
  split_ifs <;>
    simp (disch := omega) only [List.cons_append, List.nil_append, ofNat_cons_lt_iff] <;>
    omega

private theorem encode_chars_lt {cs ds : List Char} (less : cs < ds) :
    cs.flatMap String.utf8EncodeChar < ds.flatMap String.utf8EncodeChar := by
  induction less with
  | @nil d ds =>
      obtain ⟨byte, bytes, shape⟩ :=
        List.exists_cons_of_ne_nil (String.utf8EncodeChar_ne_nil (c := d))
      rw [List.flatMap_cons, shape, List.cons_append]
      exact List.nil_lt_cons _ _
  | rel less => exact utf8EncodeChar_append_lt less _ _
  | @cons c cs ds less ih => exact List.append_left_lt ih

/-- **The encoding keeps the order** of texts. -/
theorem encode_lt {text later : String} (less : text < later) : encode text < encode later :=
  encode_chars_lt (String.lt_iff_toList_lt.mp less)

end BuildWarden.Text.Utf8
