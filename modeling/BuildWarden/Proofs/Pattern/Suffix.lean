import BuildWarden.Pattern.Reader
import BuildWarden.Proofs.Pattern
import BuildWarden.Proofs.Text.Slice
/-!
# Patterns of a star and a suffix

A star in front of characters that have no special meaning is read as the pattern of an ending. It
accepts a name by the bytes of the ending, and since no character is encoded within another one,
these are the names that end in its characters.
-/

namespace BuildWarden

namespace Text.Utf8

/-- Only the first byte of a character does not go on with an earlier one. -/
theorem exists_utf8EncodeChar_shape (c : Char) :
    ∃ b rest, String.utf8EncodeChar c = b :: rest ∧ isContinuation b = false ∧
      ∀ x ∈ rest, isContinuation x = true := by
  obtain ⟨b, rest, shape, leads⟩ := exists_utf8EncodeChar_eq_cons c
  refine ⟨b, rest, shape, leads, ?_⟩
  have follows (n : Nat) : isContinuation (UInt8.ofNat (n % 64 + 128)) = true := by
    have exact : (UInt8.ofNat (n % 64 + 128)).toNat = n % 64 + 128 := by
      rw [UInt8.toNat_ofNat']
      omega
    rw [isContinuation, Bool.and_eq_true, decide_eq_true_eq, decide_eq_true_eq,
      UInt8.le_iff_toNat_le, UInt8.lt_iff_toNat_lt, exact]
    simp only [UInt8.reduceToNat]
    omega
  rw [String.utf8EncodeChar] at shape
  generalize c.val.toNat = v at shape
  split_ifs at shape <;> obtain ⟨-, rfl⟩ := List.cons.inj shape <;>
    simp only [List.mem_cons, List.not_mem_nil, or_false, forall_eq_or_imp, forall_eq, follows,
      and_self, false_imp_iff, implies_true]

/-- No character is encoded at the end of another one. -/
theorem eq_of_utf8EncodeChar_suffix {c d : Char}
    (ends : String.utf8EncodeChar c <:+ String.utf8EncodeChar d) : c = d := by
  obtain ⟨front, whole⟩ := ends
  obtain ⟨b, rest, shape, leads, -⟩ := exists_utf8EncodeChar_shape c
  obtain ⟨b', rest', shape', -, follow⟩ := exists_utf8EncodeChar_shape d
  cases front with
  | nil => exact utf8EncodeChar_injective whole
  | cons x front =>
      rw [shape, shape', List.cons_append, List.cons.injEq] at whole
      have inside : b ∈ rest' := by simp [← whole.2]
      rw [follow b inside] at leads
      cases leads

/-- **A text ends another one exactly if its bytes do.** -/
theorem encodeChars_suffix_iff {ending chars : List Char} :
    encodeChars ending <:+ encodeChars chars ↔ ending <:+ chars := by
  constructor
  · intro ends
    induction ending using List.reverseRecOn generalizing chars with
    | nil => exact List.nil_suffix
    | append_singleton ending c ih =>
        obtain ⟨front, whole⟩ := ends
        rcases List.eq_nil_or_concat chars with rfl | ⟨before, last, rfl⟩
        · obtain ⟨b, rest, shape, -⟩ := exists_utf8EncodeChar_eq_cons c
          simp [encodeChars, shape] at whole
        · have single (c : Char) : encodeChars [c] = String.utf8EncodeChar c :=
            List.flatMap_singleton ..
          rw [List.concat_eq_append, encodeChars_append, encodeChars_append, ← List.append_assoc,
            single, single] at whole
          have first : String.utf8EncodeChar c <:+
              encodeChars before ++ String.utf8EncodeChar last := ⟨_, whole⟩
          have same : c = last := by
            rcases List.suffix_or_suffix_of_suffix first (List.suffix_append _ _) with inner | outer
            · exact eq_of_utf8EncodeChar_suffix inner
            · exact (eq_of_utf8EncodeChar_suffix outer).symm
          subst same
          obtain ⟨start, further⟩ : ending <:+ before :=
            ih ⟨front, List.append_cancel_right whole⟩
          exact ⟨start, by rw [← further, List.concat_eq_append, List.append_assoc]⟩
  · rintro ⟨front, rfl⟩
    rw [encodeChars_append]
    exact List.suffix_append _ _

end Text.Utf8

namespace Pattern

/-- Whether a character means something else than itself. -/
def isSpecial (c : Char) : Bool :=
  ['?', '*', '[', '\x7b', '\x7d', '\\'].contains c

/-- Outside of a group, what is not special is read as it is written. -/
theorem readParts_literal {chars : List Char} (literal : ∀ c ∈ chars, isSpecial c = false)
    (before : Option Char) {progress : Progress} (outside : progress.around = []) :
    readParts before progress chars = .ok { progress with
      current.parts := (chars.map Part.literal).reverse ++ progress.current.parts } := by
  induction chars generalizing before progress with
  | nil =>
      rw [readParts]
      rfl
  | cons c rest ih =>
      obtain ⟨plain, literal⟩ := List.forall_mem_cons.mp literal
      have free : progress.inGroup = false := by rw [Progress.inGroup, outside]; rfl
      have further : readParts (some c) (progress.push (.literal c)) rest = _ :=
        ih literal (some c) outside
      rw [readParts]
      · rw [free, Bool.and_false, if_neg Bool.false_ne_true, further]
        simp [Progress.push]
      -- every other way to read a character is for a special one
      all_goals
        intros
        subst c
        cases plain

/-- The parts of a literal stand for its bytes. -/
theorem foldr_literal (chars : List Char) :
    (chars.map Part.literal).foldr ofPart done = bytes (Text.Utf8.encodeChars chars) done := by
  induction chars with
  | nil => rfl
  | cons c rest ih =>
      rw [List.map_cons, List.foldr_cons, ih, ofPart, bytes, bytes, bytes, ← List.foldr_append]
      rfl

/-- **A star and a suffix are read as the pattern of an ending.** -/
theorem parse_star {suffix : String} (literal : ∀ c ∈ suffix.toList, isSpecial c = false) :
    parse ("*" ++ suffix) = .ok (endingIn suffix) := by
  have shape : ("*" ++ suffix).toList = '*' :: suffix.toList := by simp
  have read : readParts none {} ('*' :: suffix.toList) = .ok
      ⟨⟨(suffix.toList.map Part.literal).reverse ++ [.star], []⟩, []⟩ := by
    rw [readParts]
    · exact readParts_literal literal _ rfl
    · rintro rest same
      have special := literal '*' (by simp [same])
      cases special
  rw [parse, shape, read]
  simp only [bind, Except.bind, Progress.inGroup, List.isEmpty_nil, Bool.not_true,
    Bool.false_eq_true, ↓reduceIte, List.reverse_append, List.reverse_reverse,
    List.reverse_singleton, List.singleton_append]
  have several : (Part.star :: suffix.toList.map Part.literal) ≠ [.leading] := by simp
  rw [ofAllParts, if_neg several, ofParts, List.foldr_cons, foldr_literal]
  rfl

/-- **The pattern of an ending accepts the names that end in its characters.** -/
theorem accepts_endingIn_iff (ending name : String) :
    (endingIn ending).accepts name = true ↔ ending.toList <:+ name.toList :=
  (accepts_endingIn ending name).trans Text.Utf8.encodeChars_suffix_iff

end Pattern
end BuildWarden
