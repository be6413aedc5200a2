import BuildWarden.Proofs.Text.Search
import BuildWarden.Proofs.Text.Utf8
import Mathlib.Algebra.Ring.Nat
import Mathlib.Data.List.Infix
/-!
# What bytes of ASCII are decoded to

A byte of ASCII is decoded to its own character whatever stands around it: a sequence that is broken
off in front of it does not take it along, and no longer sequence gives a character of ASCII. So a
text of ASCII stands in the decoded text exactly if its bytes stand in the content.
-/

namespace BuildWarden.Text.Utf8

variable {value count point used : Nat} {low high b : UInt8} {lead : Lead} {bytes rest : Bytes}

/-! ### Leading bytes -/

/-- What a leading byte announces that is not ASCII: the code points that its bounds allow lie
beyond ASCII, and all of them are characters. -/
structure Lead.Wide (lead : Lead) : Prop where
  more : 0 < lead.count
  low : 0x80 ≤ lead.low.toNat
  above : 0x80 ≤ (lead.bits * 64 + (lead.low.toNat - 0x80)) * 64 ^ (lead.count - 1)
  valid : (lead.bits * 64 + (lead.high.toNat - 0x80) + 1) * 64 ^ (lead.count - 1) ≤ 0xD800 ∨
    0xE000 ≤ (lead.bits * 64 + (lead.low.toNat - 0x80)) * 64 ^ (lead.count - 1) ∧
      (lead.bits * 64 + (lead.high.toNat - 0x80) + 1) * 64 ^ (lead.count - 1) ≤ 0x110000

private theorem lead?_ascii (ascii : b.toNat < 0x80) : lead? b = some ⟨b.toNat, 0, 0x80, 0xBF⟩ := by
  rw [lead?]
  exact if_pos ascii

/-- A leading byte is one of ASCII or announces a character beyond it. -/
theorem wide_of_lead? (leads : lead? b = some lead) (beyond : 0x80 ≤ b.toNat) : lead.Wide := by
  have small := b.toNat_lt
  simp only [lead?, beq_iff_eq] at leads
  rw [if_neg (by omega)] at leads
  generalize b.toNat = n at *
  split at leads
  · cases leads
  iterate 7
    split at leads
    · obtain rfl := Option.some.inj leads
      constructor <;> simp <;> omega
  cases leads

/-! ### Continuation bytes -/

/-- A byte of ASCII ends what continuation bytes are read from. -/
theorem continuation_append_ascii (ascii : b.toNat < 0x80) (value count : Nat)
    (bound : 0x80 ≤ low.toNat) (high : UInt8) (front back : Bytes) :
    continuation value count low high (front ++ b :: back) =
      continuation value count low high front := by
  induction front generalizing value count low high with
  | nil =>
      cases count with
      | zero => rfl
      | succ count =>
          have outside : (low ≤ b && b ≤ high) = false := by
            rw [Bool.and_eq_false_iff, decide_eq_false_iff_not, UInt8.le_iff_toNat_le]
            omega
          simp only [List.nil_append, continuation, outside, Bool.false_eq_true, ↓reduceIte]
  | cons x front ih =>
      cases count with
      | zero => rfl
      | succ count =>
          simp only [List.cons_append, continuation]
          split
          · rw [ih _ _ (by decide)]
          · rfl

private theorem continuation_le_length (value count : Nat) (low high : UInt8) (bytes : Bytes) :
    (continuation value count low high bytes).2 ≤ bytes.length := by
  induction bytes generalizing value count low high with
  | nil => cases count <;> exact Nat.zero_le _
  | cons x rest ih =>
      cases count with
      | zero => exact Nat.zero_le _
      | succ count =>
          simp only [continuation]
          split
          · exact Nat.succ_le_succ (ih ..)
          · exact Nat.zero_le _

/-- Each continuation byte adds six bits to the value. -/
theorem continuation_bounds (low high : UInt8)
    (read : (continuation value (count + 1) low high bytes).1 = some point) :
    (value * 64 + (low.toNat - 0x80)) * 64 ^ count ≤ point ∧
      point < (value * 64 + (high.toNat - 0x80) + 1) * 64 ^ count := by
  induction count generalizing value low high bytes with
  | zero =>
      cases bytes with
      | nil => cases read
      | cons x rest =>
          simp only [continuation] at read
          split at read
          next inside =>
            obtain rfl := Option.some.inj read
            rw [Bool.and_eq_true, decide_eq_true_eq, decide_eq_true_eq, UInt8.le_iff_toNat_le,
              UInt8.le_iff_toNat_le] at inside
            omega
          next => cases read
  | succ count ih =>
      cases bytes with
      | nil => cases read
      | cons x rest =>
          rw [continuation] at read
          split at read
          next inside =>
            obtain ⟨above, below⟩ := ih 0x80 0xBF read
            rw [Bool.and_eq_true, decide_eq_true_eq, decide_eq_true_eq, UInt8.le_iff_toNat_le,
              UInt8.le_iff_toNat_le] at inside
            have least : (value * 64 + (low.toNat - 0x80)) * 64 ≤
                (value * 64 + (x.toNat - 0x80)) * 64 + 0 := by omega
            have most : (value * 64 + (x.toNat - 0x80)) * 64 + 0x3F + 1 ≤
                (value * 64 + (high.toNat - 0x80) + 1) * 64 := by omega
            rw [Nat.pow_succ', ← Nat.mul_assoc, ← Nat.mul_assoc]
            exact ⟨(Nat.mul_le_mul_right _ least).trans above,
              below.trans_le (Nat.mul_le_mul_right _ most)⟩
          next => cases read

/-- What a leading byte beyond ASCII starts is decoded to a character beyond ASCII. -/
theorem Lead.Wide.beyond_ascii (wide : lead.Wide) (rest : Bytes) :
    0x80 ≤ (((continuation lead.bits lead.count lead.low lead.high rest).1.map
      Char.ofNat).getD (Char.ofNat 0xFFFD)).toNat := by
  cases read : (continuation lead.bits lead.count lead.low lead.high rest).1 with
  | none => decide
  | some point =>
      obtain ⟨count, same⟩ := Nat.exists_eq_succ_of_ne_zero wide.more.ne'
      have above := wide.above
      have valid := wide.valid
      rw [same] at read above valid
      rw [Nat.succ_sub_one] at above valid
      obtain ⟨least, most⟩ := continuation_bounds lead.low lead.high read
      have character : point.isValidChar := by
        unfold Nat.isValidChar
        omega
      rw [Option.map_some, Option.getD_some, Char.ofNat, dif_pos character]
      exact above.trans least

/-! ### Decoded text -/

/-- A byte of ASCII is a character. -/
theorem characters_ascii_cons (ascii : b.toNat < 0x80) (rest : Bytes) :
    characters (b :: rest) = some (Char.ofNat b.toNat) :: characters rest := by
  rw [characters_cons (lead?_ascii ascii)]
  rfl

/-- **What stands in front of a byte of ASCII is decoded on its own**. -/
theorem characters_append_ascii (ascii : b.toNat < 0x80) (front back : Bytes) :
    characters (front ++ b :: back) = characters front ++ characters (b :: back) := by
  induction front using characters.induct with
  | case1 => rw [characters, List.nil_append, List.nil_append]
  | case2 x rest broken ih =>
      rw [List.cons_append, characters, characters]
      simp only [broken, ih, List.cons_append]
  | case3 x rest lead leads value used read ih =>
      by_cases short : x.toNat < 0x80
      · obtain rfl := Option.some.inj ((lead?_ascii short).symm.trans leads)
        obtain ⟨rfl, rfl⟩ := Prod.mk.inj read
        rw [List.drop_zero] at ih
        rw [List.cons_append, characters_ascii_cons short, characters_ascii_cons short, ih,
          List.cons_append]
      · have wide := wide_of_lead? leads (Nat.le_of_not_lt short)
        have same := continuation_append_ascii ascii lead.bits lead.count wide.low lead.high rest
          back
        have inside := continuation_le_length lead.bits lead.count lead.low lead.high rest
        rw [read] at inside
        rw [List.cons_append, characters_cons leads, characters_cons leads, same, read,
          List.drop_append_of_le_length inside, ih, List.cons_append]

private theorem utf8EncodeChar_ascii {c : Char} (ascii : c.toNat < 0x80) :
    String.utf8EncodeChar c = [UInt8.ofNat c.toNat] := by
  rw [String.utf8EncodeChar]
  exact if_pos (Nat.le_of_lt_succ ascii)

private theorem utf8EncodeChar_ofNat (ascii : b.toNat < 0x80) :
    String.utf8EncodeChar (Char.ofNat b.toNat) = [b] := by
  have valid : b.toNat.isValidChar := .inl (by omega)
  have same : (Char.ofNat b.toNat).toNat = b.toNat := by
    rw [Char.ofNat, dif_pos valid]
    rfl
  rw [utf8EncodeChar_ascii (by rwa [same]), same, UInt8.ofNat_toNat]

/-- Decoding goes character by character; a character of ASCII comes from its own byte. -/
theorem decodeLenientChars_cons (b : UInt8) (rest : Bytes) :
    ∃ c used, decodeLenientChars (b :: rest) = c :: decodeLenientChars (rest.drop used) ∧
      (c.toNat < 0x80 → String.utf8EncodeChar c = [b] ∧ used = 0) := by
  unfold decodeLenientChars
  by_cases ascii : b.toNat < 0x80
  · refine ⟨Char.ofNat b.toNat, 0, ?_, fun _ => ⟨utf8EncodeChar_ofNat ascii, rfl⟩⟩
    rw [characters_ascii_cons ascii]
    rfl
  cases leads : lead? b with
  | none =>
      refine ⟨Char.ofNat 0xFFFD, 0, ?_, fun small => absurd small (by decide)⟩
      rw [characters]
      simp only [leads]
      rfl
  | some lead =>
      have wide := wide_of_lead? leads (Nat.le_of_not_lt ascii)
      refine ⟨_, (continuation lead.bits lead.count lead.low lead.high rest).2, ?_,
        fun small => absurd small (Nat.not_lt.mpr (wide.beyond_ascii rest))⟩
      rw [characters_cons leads]
      rfl

section Part
variable {part : List Char}

/-- A text of ASCII in front was decoded from its bytes. -/
theorem prefix_encodeChars (ascii : ∀ c ∈ part, c.toNat < 0x80)
    (starts : part <+: decodeLenientChars bytes) :
    part.flatMap String.utf8EncodeChar <+: bytes := by
  induction part generalizing bytes with
  | nil => exact List.nil_prefix
  | cons c part ih =>
      obtain ⟨small, ascii⟩ := List.forall_mem_cons.mp ascii
      cases bytes with
      | nil => simp [decodeLenientChars, characters] at starts
      | cons b rest =>
          obtain ⟨first, used, decoded, single⟩ := decodeLenientChars_cons b rest
          rw [decoded] at starts
          obtain ⟨rfl, further⟩ := List.cons_prefix_cons.mp starts
          obtain ⟨byte, rfl⟩ := single small
          rw [List.drop_zero] at further
          rw [List.flatMap_cons, byte, List.singleton_append]
          exact List.cons_prefix_cons.mpr ⟨rfl, ih ascii further⟩

/-- A text of ASCII inside was decoded from its bytes. -/
theorem infix_encodeChars (ascii : ∀ c ∈ part, c.toNat < 0x80) (bytes : Bytes)
    (inside : part <:+: decodeLenientChars bytes) :
    part.flatMap String.utf8EncodeChar <:+: bytes := by
  match bytes with
  | [] =>
      simp only [decodeLenientChars, characters, List.map_nil, List.infix_nil] at inside
      rw [inside]
      exact List.nil_infix
  | b :: rest =>
      obtain ⟨first, used, decoded, -⟩ := decodeLenientChars_cons b rest
      rw [decoded, List.infix_cons_iff, ← decoded] at inside
      rcases inside with starts | further
      · exact (prefix_encodeChars ascii starts).isInfix
      · have later := infix_encodeChars ascii (rest.drop used) further
        exact List.infix_cons (later.trans (List.drop_suffix used rest).isInfix)
termination_by bytes.length
decreasing_by
  rw [List.length_drop, List.length_cons]
  omega

/-- **Decoding neither hides a text of ASCII nor makes one up**. -/
theorem infix_decodeLenientChars_iff (ascii : ∀ c ∈ part, c.toNat < 0x80) :
    part <:+: decodeLenientChars bytes ↔ part.flatMap String.utf8EncodeChar <:+: bytes := by
  refine ⟨infix_encodeChars ascii bytes, ?_⟩
  rintro ⟨front, back, rfl⟩
  cases part with
  | nil => exact List.nil_infix
  | cons c part =>
      have small := ascii c List.mem_cons_self
      have byte : (UInt8.ofNat c.toNat).toNat < 0x80 := by
        rw [UInt8.toNat_ofNat']
        omega
      -- the front is decoded on its own, since the text starts with a byte of ASCII
      have apart := characters_append_ascii byte front
        (part.flatMap String.utf8EncodeChar ++ back)
      have whole := decodeLenientChars_encodeChars_append (c :: part) back
      rw [List.flatMap_cons, utf8EncodeChar_ascii small, List.singleton_append] at whole ⊢
      rw [List.cons_append] at whole
      rw [List.append_assoc, List.cons_append]
      unfold decodeLenientChars at whole ⊢
      rw [apart, List.map_append, whole]
      exact ⟨_, _, List.append_assoc ..⟩

/-- A text of ASCII is found in decoded bytes exactly if its bytes are found in them, whatever else
is malformed. -/
theorem contains_decodeLenient_iff {text : String} (ascii : ∀ c ∈ text.toList, c.toNat < 0x80) :
    contains text (decodeLenient bytes) = true ↔ encode text <:+: bytes := by
  rw [contains, decodeLenient, String.toList_ofList, hasPart_iff, encode,
    infix_decodeLenientChars_iff ascii]

end Part

end BuildWarden.Text.Utf8
