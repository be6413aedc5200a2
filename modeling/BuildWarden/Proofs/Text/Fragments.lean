import BuildWarden.Proofs.Text.Search
/-!
# Fragments

A sequence can be split at a part that stands in it more than once. The occurrences are looked for
from the left and do not overlap, and there is one fragment more than occurrences. What follows the
first occurrence is what the other fragments give when they are put together again.
-/

namespace BuildWarden.Text
variable {α : Type} {part front rest whole fragment : List α}

/-- A part is not in what stands in front of its first occurrence. -/
theorem FirstPart.not_infix (some : part ≠ []) (occurs : FirstPart part front rest whole) :
    ¬part <:+: front := by
  rintro ⟨before, after, same⟩
  have earlier := occurs.first before (after ++ (part ++ rest)) (by
    rw [occurs.split, ← same, List.append_assoc, List.append_assoc])
  have length := List.length_pos_iff.mpr some
  rw [← same, List.length_append, List.length_append] at earlier
  omega

private theorem FirstPart.length_rest_lt (some : part ≠ [])
    (occurs : FirstPart part front rest whole) :
    rest.length < whole.length := by
  have length := List.length_pos_iff.mpr some
  rw [occurs.split, List.length_append, List.length_append]
  omega

variable [BEq α]

/-- The fragments of what follows the elements that are skipped. -/
def fragmentsAfter (part : List α) : (skipped : Nat) → List α → List (List α)
  | _, [] => [[]]
  | skipped + 1, _ :: rest => fragmentsAfter part skipped rest
  | 0, x :: rest =>
    if part.isPrefixOf (x :: rest) then [] :: fragmentsAfter part (part.length - 1) rest
    else
      match fragmentsAfter part 0 rest with
      | [] => [[x]]
      | first :: others => (x :: first) :: others

/-- Splits at every occurrence of `part`, from the left and without overlaps. -/
def fragments (part whole : List α) : List (List α) :=
  fragmentsAfter part 0 whole

private theorem fragmentsAfter_eq (part : List α) (skipped : Nat) (whole : List α) :
    fragmentsAfter part skipped whole = fragments part (whole.drop skipped) := by
  induction whole generalizing skipped with
  | nil => cases skipped <;> rfl
  | cons x rest ih =>
      cases skipped with
      | zero => rfl
      | succ skipped => exact ih skipped

private theorem fragmentsAfter_ne_nil (part : List α) (skipped : Nat) (whole : List α) :
    fragmentsAfter part skipped whole ≠ [] := by
  induction whole generalizing skipped with
  | nil => simp [fragmentsAfter]
  | cons x rest ih =>
      cases skipped with
      | zero =>
          unfold fragmentsAfter
          split
          · simp
          · split <;> simp
      | succ skipped => exact ih skipped

/-- There is always a first fragment. -/
theorem exists_fragments_eq_cons (part whole : List α) :
    ∃ first others, fragments part whole = first :: others :=
  List.exists_cons_of_ne_nil (fragmentsAfter_ne_nil part 0 whole)

/-- An occurrence in front is left out. -/
theorem fragments_of_isPrefixOf (some : part ≠ []) (starts : part.isPrefixOf whole = true) :
    fragments part whole = [] :: fragments part (whole.drop part.length) := by
  obtain ⟨p, more, rfl⟩ := List.exists_cons_of_ne_nil some
  cases whole with
  | nil => cases starts
  | cons x rest => rw [fragments, fragmentsAfter, if_pos starts, fragmentsAfter_eq]; rfl

/-- Where no occurrence starts, the first fragment goes on. -/
theorem fragments_cons_of_not_isPrefixOf {x : α} (other : ¬part.isPrefixOf (x :: rest) = true)
    {first : List α} {others : List (List α)} (further : fragments part rest = first :: others) :
    fragments part (x :: rest) = (x :: first) :: others := by
  rw [fragments, fragmentsAfter, if_neg other, fragmentsAfter_eq, List.drop_zero, further]

variable [LawfulBEq α]

/-- Without the part the whole is one fragment. -/
theorem fragments_of_absent (absent : ¬part <:+: whole) : fragments part whole = [whole] := by
  induction whole with
  | nil => rfl
  | cons x rest ih =>
      rw [List.infix_cons_iff, ← List.isPrefixOf_iff_prefix, not_or] at absent
      exact fragments_cons_of_not_isPrefixOf absent.1 (ih absent.2)

/-- What stands in front of the first occurrence is the first fragment. -/
theorem FirstPart.fragments_eq (some : part ≠ []) (occurs : FirstPart part front rest whole) :
    fragments part whole = front :: fragments part rest := by
  obtain ⟨split, first⟩ := occurs
  subst split
  induction front with
  | nil =>
      have starts : part.isPrefixOf (part ++ rest) = true :=
        List.isPrefixOf_iff_prefix.mpr (List.prefix_append part rest)
      rw [List.nil_append, fragments_of_isPrefixOf some starts, List.drop_left]
  | cons x front ih =>
      have other : ¬part.isPrefixOf (x :: (front ++ (part ++ rest))) = true := by
        intro starts
        obtain ⟨back, whole⟩ := List.isPrefixOf_iff_prefix.mp starts
        exact absurd (first [] back whole.symm) (by simp)
      refine fragments_cons_of_not_isPrefixOf other (ih fun earlier back same => ?_)
      have later := first (x :: earlier) back (by rw [List.cons_append, same]; rfl)
      exact Nat.le_of_succ_le_succ later

example : fragments "**".toList "a***b**".toList = ["a".toList, "*b".toList, []] := by decide

/-- A part occurs in a sequence for a first time, or not at all. -/
theorem absent_or_firstPart (part whole : List α) :
    ¬part <:+: whole ∨ ∃ front rest, FirstPart part front rest whole := by
  cases found : afterPart? part whole with
  | none => exact .inl (afterPart?_eq_none.mp found)
  | some rest =>
      obtain ⟨front, occurs⟩ := exists_firstPart found
      exact .inr ⟨front, rest, occurs⟩

/-- Induction from what follows the first occurrence of a part to the whole. -/
theorem firstPart_induction {motive : List α → Prop} (some : part ≠ [])
    (absent : ∀ whole, ¬part <:+: whole → motive whole)
    (occurs : ∀ front rest whole, FirstPart part front rest whole → motive rest → motive whole)
    (whole : List α) : motive whole := by
  rcases absent_or_firstPart part whole with none | ⟨front, rest, first⟩
  · exact absent whole none
  · have shorter := first.length_rest_lt some
    exact occurs front rest whole first (firstPart_induction some absent occurs rest)
termination_by whole.length

/-- **The fragments put together** are the whole again. -/
theorem intercalate_fragments (some : part ≠ []) (whole : List α) :
    part.intercalate (fragments part whole) = whole := by
  induction whole using firstPart_induction some with
  | absent whole none => rw [fragments_of_absent none, List.intercalate_singleton]
  | occurs front rest whole first ih =>
      obtain ⟨next, others, shape⟩ := exists_fragments_eq_cons part rest
      rw [shape] at ih
      rw [first.fragments_eq some, shape, List.intercalate_cons_cons, ih, first.split,
        List.append_assoc]

/-- **No occurrence is left** in a fragment. -/
theorem not_infix_of_mem_fragments (some : part ≠ []) (member : fragment ∈ fragments part whole) :
    ¬part <:+: fragment := by
  induction whole using firstPart_induction some with
  | absent whole none =>
      rw [fragments_of_absent none] at member
      rwa [List.mem_singleton.mp member]
  | occurs front rest whole first ih =>
      rw [first.fragments_eq some, List.mem_cons] at member
      rcases member with rfl | member
      · exact first.not_infix some
      · exact ih member

end BuildWarden.Text
