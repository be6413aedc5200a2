import BuildWarden.Proofs.Text.Lenient
import BuildWarden.Text.Slice
/-!
# Slices of characters

A byte of ASCII among the bytes of a text is the whole of a character, so looking for it finds the
character. The number of bytes of what stands in front of a character is an offset at which the text
can be sliced, and the slices are the bytes of the parts.
-/

namespace BuildWarden.Text
section Cut
variable {α : Type} [BEq α] [LawfulBEq α] {separator : α}

/-- A text cannot be cut exactly if the separator is not in it. -/
theorem cutAt?_eq_none {whole : List α} : cutAt? separator whole = none ↔ separator ∉ whole := by
  induction whole with
  | nil => simp [cutAt?]
  | cons x rest ih =>
      rw [cutAt?, List.mem_cons, not_or]
      by_cases same : x = separator
      · simp [same]
      · simp [same, Ne.symm same, ih]

/-- The separator that is cut at is the first one. -/
theorem not_mem_of_cutAt? {whole before after : List α}
    (cut : cutAt? separator whole = some (before, after)) : separator ∉ before := by
  induction whole generalizing before with
  | nil => cases cut
  | cons x rest ih =>
      rw [cutAt?] at cut
      split at cut
      next =>
        cases cut
        exact List.not_mem_nil
      next other =>
        obtain ⟨⟨front, back⟩, further, same⟩ := Option.map_eq_some_iff.mp cut
        cases same
        refine List.not_mem_cons_of_ne_of_not_mem (fun same => other ?_) (ih further)
        exact beq_iff_eq.mpr same.symm

end Cut

namespace Utf8
variable {b : UInt8} {c : Char}

/-! ### Bytes of characters -/

/-- A byte of ASCII is the whole of a character. -/
theorem utf8EncodeChar_eq_of_mem (ascii : b.toNat < 0x80)
    (member : b ∈ String.utf8EncodeChar c) : String.utf8EncodeChar c = [b] := by
  have beyond (bits mark : Nat) (small : bits + mark < 256) (marked : 0x80 ≤ mark) :
      b ≠ UInt8.ofNat (bits + mark) := by
    rintro rfl
    rw [UInt8.toNat_ofNat'] at ascii
    omega
  rw [String.utf8EncodeChar] at member ⊢
  generalize c.val.toNat = v at member ⊢
  split at member
  next one => rw [if_pos one, List.mem_singleton.mp member]
  next =>
    -- with more bytes than one, each of them has its highest bit set
    refine absurd member ?_
    split_ifs <;>
      simp only [List.mem_cons, List.not_mem_nil, or_false, not_or] <;>
      and_intros <;> exact beyond _ _ (by omega) (by omega)

/-- The first byte of a character continues none. -/
theorem exists_utf8EncodeChar_eq_cons (c : Char) :
    ∃ b rest, String.utf8EncodeChar c = b :: rest ∧ isContinuation b = false := by
  have leads (n : Nat) (small : n < 256) (outside : n < 0x80 ∨ 0xC0 ≤ n) :
      isContinuation (UInt8.ofNat n) = false := by
    have exact : (UInt8.ofNat n).toNat = n := by rw [UInt8.toNat_ofNat', Nat.mod_eq_of_lt small]
    rw [isContinuation, Bool.and_eq_false_iff, decide_eq_false_iff_not, decide_eq_false_iff_not,
      UInt8.le_iff_toNat_le, UInt8.lt_iff_toNat_lt, exact]
    simp only [UInt8.reduceToNat]
    omega
  rw [String.utf8EncodeChar]
  generalize c.val.toNat = v
  split_ifs <;> exact ⟨_, _, rfl, leads _ (by omega) (by omega)⟩

/-- Different characters have different bytes. -/
theorem utf8EncodeChar_injective : Function.Injective String.utf8EncodeChar := by
  intro c d same
  have read := characters_utf8EncodeChar c []
  rw [same, characters_utf8EncodeChar] at read
  exact (Option.some.inj (List.cons.inj read).1).symm

/-- The bytes of characters stand one after the other. -/
theorem encodeChars_append (front back : List Char) :
    encodeChars (front ++ back) = encodeChars front ++ encodeChars back :=
  List.flatMap_append

/-- A character of one byte makes a text longer by one. -/
theorem length_encodeChars_concat (byte : String.utf8EncodeChar c = [b]) (front : List Char) :
    (encodeChars (front ++ [c])).length = (encodeChars front).length + 1 := by
  rw [encodeChars_append, List.length_append, encodeChars, encodeChars, List.flatMap_singleton,
    byte, List.length_singleton]

section Ascii
variable (ascii : b.toNat < 0x80) (byte : String.utf8EncodeChar c = [b])
include ascii byte

private theorem mem_encodeChars_iff {text : List Char} : b ∈ encodeChars text ↔ c ∈ text := by
  rw [encodeChars, List.mem_flatMap]
  constructor
  · rintro ⟨d, member, within⟩
    have same : String.utf8EncodeChar d = String.utf8EncodeChar c :=
      (utf8EncodeChar_eq_of_mem ascii within).trans byte.symm
    rwa [← utf8EncodeChar_injective same]
  · intro member
    exact ⟨c, member, byte ▸ List.mem_singleton_self b⟩

/-- **Looking for a byte of ASCII finds its character**, at the offset that what stands in front of
it has bytes. -/
theorem idxOf?_encodeChars (text : List Char) :
    (encodeChars text).idxOf? b =
      (cutAt? c text).map fun cut => (encodeChars cut.1).length := by
  cases cut : cutAt? c text with
  | none =>
      have absent := (mem_encodeChars_iff ascii byte).not.mpr (cutAt?_eq_none.mp cut)
      exact List.idxOf?_eq_none_iff.mpr absent
  | some sides =>
      obtain ⟨before, after⟩ := sides
      have absent := (mem_encodeChars_iff ascii byte).not.mpr (not_mem_of_cutAt? cut)
      have further : encodeChars (c :: after) = b :: encodeChars after := by
        rw [encodeChars, List.flatMap_cons, byte]
        rfl
      rw [eq_of_cutAt? cut, encodeChars_append, further, Option.map_some,
        List.idxOf?_eq_some_iff]
      refine ⟨by simp, by simp, fun index earlier same => absent ?_⟩
      rw [List.getElem_append_left earlier] at same
      exact same ▸ List.getElem_mem earlier

end Ascii

/-! ### Offsets -/

private theorem isBoundary_encodeChars (front back : List Char) :
    isBoundary (encodeChars (front ++ back)) (encodeChars front).length = true := by
  rw [encodeChars_append, isBoundary]
  cases back with
  | nil => simp [encodeChars]
  | cons c back =>
      obtain ⟨b, rest, shape, starts⟩ := exists_utf8EncodeChar_eq_cons c
      have first : (encodeChars front ++ encodeChars (c :: back))[(encodeChars front).length]? =
          some b := by
        simp [encodeChars, shape]
      simp only [first, starts, Bool.not_false, Bool.or_true]

section Split
variable {text front part back : List Char} {start stop : Nat}

/-- **A text is sliced between its parts** by the numbers of bytes that stand in front. -/
theorem slice?_encodeChars (split : text = front ++ part ++ back)
    (starts : (encodeChars front).length = start)
    (stops : (encodeChars (front ++ part)).length = stop) :
    slice? (encodeChars text) start stop = some (encodeChars part) := by
  subst split starts stops
  have first := isBoundary_encodeChars front (part ++ back)
  have last := isBoundary_encodeChars (front ++ part) back
  have ordered : (encodeChars front).length ≤ (encodeChars (front ++ part)).length := by
    rw [encodeChars_append, List.length_append]
    exact Nat.le_add_right _ _
  rw [← List.append_assoc] at first
  rw [slice?, first, last, decide_eq_true ordered, Bool.and_self, Bool.and_self, if_pos rfl,
    encodeChars_append (front ++ part), List.take_left, encodeChars_append, List.drop_left]

/-- A slice that starts between two characters is what follows there. -/
theorem sliceFrom?_encodeChars (split : text = front ++ back)
    (starts : (encodeChars front).length = start) :
    sliceFrom? (encodeChars text) start = some (encodeChars back) :=
  slice?_encodeChars (by rw [split, List.append_nil]) starts (by rw [split])

end Split
end Utf8
end BuildWarden.Text
