import BuildWarden.Pattern.Basic
import Mathlib.Data.List.Basic
/-!
# What patterns accept

The pattern of an ending accepts exactly the names that end in it.
-/

namespace BuildWarden.Pattern
variable {next : Bytes → Bool}

private theorem mem_tails {whole rest : Bytes} : rest ∈ tails whole ↔ rest <:+ whole := by
  induction whole with
  | nil => simp [tails]
  | cons b others ih => rw [tails, List.mem_cons, List.suffix_cons_iff, ih]

private theorem holds_only (b other : UInt8) : (only b).holds other = true ↔ other = b := by
  simp only [only, ByteSet.holds, List.any_cons, List.any_nil, Bool.or_false, bne_iff_ne, ne_eq,
    Bool.not_eq_false, Bool.and_eq_true, decide_eq_true_eq]
  exact ⟨fun ⟨least, most⟩ => UInt8.le_antisymm most least, fun same => by simp [same]⟩

/-- Literal bytes are taken from the front. -/
theorem takes_bytes (literal : Bytes) (rest : Pattern) (whole : Bytes) :
    (bytes literal rest).takes next whole = true ↔
      ∃ back, whole = literal ++ back ∧ rest.takes next back = true := by
  induction literal generalizing whole with
  | nil => simp [bytes]
  | cons b literal ih =>
      have unfolded : bytes (b :: literal) rest = one (only b) (bytes literal rest) := rfl
      rw [unfolded]
      cases whole with
      | nil => simp [takes]
      | cons other whole =>
          rw [takes, Bool.and_eq_true, holds_only, ih]
          constructor
          · rintro ⟨rfl, back, rfl, taken⟩
            exact ⟨back, rfl, taken⟩
          · rintro ⟨back, same, taken⟩
            obtain ⟨rfl, rfl⟩ := List.cons.inj same
            exact ⟨rfl, back, rfl, taken⟩

/-- **The pattern of an ending accepts the names that end in it.** -/
theorem accepts_endingIn (ending name : String) :
    (endingIn ending).accepts name = true ↔
      Text.Utf8.encode ending <:+ Text.Utf8.encode name := by
  unfold accepts matchesBytes endingIn
  rw [takes, List.any_eq_true]
  constructor
  · rintro ⟨back, member, taken⟩
    obtain ⟨none, rfl, ended⟩ := (takes_bytes _ _ _).mp taken
    obtain rfl : none = [] := by simpa [takes] using ended
    simpa using mem_tails.mp member
  · intro ends
    exact ⟨_, mem_tails.mpr ends, (takes_bytes _ _ _).mpr ⟨[], by simp, rfl⟩⟩

end BuildWarden.Pattern
