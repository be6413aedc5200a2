import BuildWarden.Text.Blank
import Mathlib.Data.List.Forall2
/-!
# Texts up to case

Two texts are the same up to the case of the ASCII letters if they have the same characters at the
same places, apart from letters of which one has the upper and the other the lower case.
-/

namespace BuildWarden.Text
variable {c d : Char} {left right : String}

/-- The same character, or the same ASCII letter in either case. -/
def SameLetter (c d : Char) : Prop :=
  c = d ∨ (c.isUpper = true ∧ d.toNat = c.toNat + 0x20) ∨
    (d.isUpper = true ∧ c.toNat = d.toNat + 0x20)

private theorem isUpper_iff : c.isUpper = true ↔ 0x41 ≤ c.toNat ∧ c.toNat ≤ 0x5A := by
  have between : c.isUpper = decide (c.val ≥ 'A'.val ∧ c.val ≤ 'Z'.val) := rfl
  rw [between, decide_eq_true_eq, ge_iff_le, UInt32.le_iff_toNat_le, UInt32.le_iff_toNat_le]
  rfl

private theorem toNat_toLower (c : Char) :
    c.toLower.toNat = if c.isUpper = true then c.toNat + 0x20 else c.toNat := by
  by_cases upper : c.isUpper = true
  · have bounds := isUpper_iff.mp upper
    have step : ('a'.val - 'A'.val).toNat = 0x20 := by decide
    have lower : c.toLower = _ := dif_pos (of_decide_eq_true upper)
    rw [if_pos upper, lower, Char.toNat, UInt32.toNat_add, step]
    exact Nat.mod_eq_of_lt (by change c.toNat + 0x20 < _; omega)
  · have same : c.toLower = c := dif_neg fun both => upper (decide_eq_true both)
    rw [if_neg upper, same]

private theorem toLower_eq_toLower_iff : c.toLower = d.toLower ↔ SameLetter c d := by
  rw [← Char.toNat_inj, toNat_toLower, toNat_toLower, SameLetter, ← Char.toNat_inj]
  simp only [isUpper_iff]
  split <;> split <;> omega

/-- Characters are alike in lower case exactly if they are the same letters. -/
theorem map_toLower_eq_iff {left right : List Char} :
    left.map Char.toLower = right.map Char.toLower ↔ List.Forall₂ SameLetter left right := by
  have letters : (fun c d : Char => c.toLower = d.toLower) = SameLetter := by
    funext c d
    exact propext toLower_eq_toLower_iff
  rw [← List.forall₂_eq_eq_eq, List.forall₂_map_left_iff, List.forall₂_map_right_iff, letters]

/-- **Ignoring case** means comparing letter by letter. -/
theorem sameIgnoringCase_iff :
    sameIgnoringCase left right = true ↔ List.Forall₂ SameLetter left.toList right.toList := by
  rw [sameIgnoringCase, beq_iff_eq, map_toLower_eq_iff]

/-- It does not matter which text is compared with which. -/
theorem sameIgnoringCase_comm (left right : String) :
    sameIgnoringCase left right = sameIgnoringCase right left := by
  unfold sameIgnoringCase
  exact BEq.comm

end BuildWarden.Text
