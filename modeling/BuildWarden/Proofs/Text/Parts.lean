import Mathlib.Data.List.Infix
/-!
# Parts beside a separator

A part without the separator does not reach across one. So it stands in a sequence that was put
together with separators exactly if it stands in one of the pieces. A part with one separator may
reach across one, and one that starts with a mark only starts where the mark is.
-/

namespace BuildWarden.Text
variable {α : Type} {separator : α} {part : List α}

/-- In front of a separator a part without it ends where the front ends. -/
theorem prefix_append_cons_iff (whole : separator ∉ part) (front back : List α) :
    part <+: front ++ separator :: back ↔ part <+: front := by
  constructor
  · intro starts
    rcases List.prefix_or_prefix_of_prefix starts (List.prefix_append front _) with within | beyond
    · exact within
    · obtain ⟨rest, rfl⟩ := beyond
      rw [List.prefix_append_right_inj] at starts
      cases rest with
      | nil => rw [List.append_nil]
      | cons x rest =>
          obtain ⟨rfl, -⟩ := List.cons_prefix_cons.mp starts
          exact (whole (by simp)).elim
  · intro starts
    exact starts.trans (List.prefix_append front _)

/-! ### Parts that start with a mark -/

section Mark
variable {mark : α} {rest front back : List α}

/-- A part that starts with a mark does not start within what has no mark. -/
theorem infix_append_of_not_mem (bare : mark ∉ front) :
    mark :: rest <:+: front ++ back ↔ mark :: rest <:+: back := by
  induction front with
  | nil => rfl
  | cons x front ih =>
      obtain ⟨other, bare⟩ := List.ne_and_not_mem_of_not_mem_cons bare
      rw [List.cons_append, List.infix_cons_iff, List.cons_prefix_cons, ih bare]
      simp only [other, false_and, false_or]

/-- A suffix that starts with a mark starts behind all that lacks the mark. -/
theorem suffix_append_of_not_mem (bare : mark ∉ front) :
    mark :: rest <:+ front ++ back ↔ mark :: rest <:+ back := by
  induction front with
  | nil => rfl
  | cons x front ih =>
      obtain ⟨other, bare⟩ := List.ne_and_not_mem_of_not_mem_cons bare
      rw [List.cons_append, List.suffix_cons_iff, List.cons.injEq, ih bare]
      simp only [other, false_and, false_or]

end Mark

/-! ### Parts with one separator -/

section Across
variable {left right : List α} (wholeLeft : separator ∉ left) (wholeRight : separator ∉ right)
include wholeLeft wholeRight

private theorem prefix_across_iff (front back : List α) :
    left ++ separator :: right <+: front ++ separator :: back ↔
      left ++ separator :: right <+: front ∨ (left = front ∧ right <+: back) := by
  induction left generalizing front with
  | nil =>
      cases front with
      | nil => simp [List.cons_prefix_cons]
      | cons x front =>
          simp only [List.nil_append, List.cons_append, List.cons_prefix_cons,
            prefix_append_cons_iff wholeRight, reduceCtorEq, false_and, or_false]
  | cons y left ih =>
      obtain ⟨other, wholeLeft⟩ := List.ne_and_not_mem_of_not_mem_cons wholeLeft
      cases front with
      | nil => simp [List.cons_prefix_cons, Ne.symm other]
      | cons x front =>
          simp only [List.cons_append, List.cons_prefix_cons, ih wholeLeft, List.cons.injEq,
            and_or_left, and_assoc]

/-- **A part with one separator** stands beside a separator, or across it. -/
theorem infix_across_iff (front back : List α) :
    left ++ separator :: right <:+: front ++ separator :: back ↔
      left ++ separator :: right <:+: front ∨ (left <:+ front ∧ right <+: back) ∨
        left ++ separator :: right <:+: back := by
  induction front with
  | nil =>
      have starts := prefix_across_iff wholeLeft wholeRight [] back
      rw [List.nil_append] at starts ⊢
      simp only [List.infix_cons_iff, starts, List.prefix_nil, List.infix_nil, List.suffix_nil,
        List.append_eq_nil_iff, reduceCtorEq, and_false, false_or]
  | cons x front ih =>
      have starts := prefix_across_iff wholeLeft wholeRight (x :: front) back
      rw [List.cons_append] at starts ⊢
      rw [List.infix_cons_iff, List.infix_cons_iff, List.suffix_cons_iff, ih, starts]
      simp only [or_and_right, or_assoc, or_left_comm]

end Across

/-! ### Parts between separators -/

/-- **A part between separators** is one of the pieces that are each begun with one, and not the
last one. -/
theorem infix_flatMap_begun_iff (whole : separator ∉ part) {pieces : List (List α)}
    (wholes : ∀ piece ∈ pieces, separator ∉ piece) :
    separator :: (part ++ [separator]) <:+: pieces.flatMap (separator :: ·) ↔
      part ∈ pieces.dropLast := by
  induction pieces with
  | nil => simp
  | cons piece rest ih =>
      obtain ⟨bare, others⟩ := List.forall_mem_cons.mp wholes
      have inside : ¬part ++ [separator] <+: piece := fun starts => bare (starts.subset (by simp))
      rw [List.flatMap_cons, List.cons_append, List.infix_cons_iff, List.cons_prefix_cons,
        infix_append_of_not_mem bare, ih others]
      cases rest with
      | nil => simpa using inside
      | cons next rest =>
          rw [List.flatMap_cons, List.cons_append,
            prefix_across_iff whole List.not_mem_nil piece, List.dropLast_cons_cons, List.mem_cons]
          simp only [inside, true_and, false_or, List.nil_prefix, and_true]

/-! ### Parts without the separator -/

variable (some : part ≠ []) (whole : separator ∉ part)
include some whole

/-- **A part stands on one side of a separator**. -/
theorem infix_append_cons_iff {front back : List α} :
    part <:+: front ++ separator :: back ↔ part <:+: front ∨ part <:+: back := by
  induction front with
  | nil =>
      have never : ¬part <+: separator :: back := by
        intro starts
        have empty := (prefix_append_cons_iff whole [] back).mp starts
        exact some (List.prefix_nil.mp empty)
      rw [List.nil_append, List.infix_cons_iff, List.infix_nil]
      simp only [never, some, false_or]
  | cons x front ih =>
      have starts := prefix_append_cons_iff whole (x :: front) back
      rw [List.cons_append] at starts ⊢
      rw [List.infix_cons_iff, List.infix_cons_iff, ih, starts, or_assoc]

/-- A part of pieces each of which is ended stands in one of them. -/
theorem infix_flatMap_ended_iff {pieces : List (List α)} :
    part <:+: pieces.flatMap (· ++ [separator]) ↔ ∃ piece ∈ pieces, part <:+: piece := by
  induction pieces with
  | nil => simp [some]
  | cons piece rest ih =>
      rw [List.flatMap_cons, List.append_assoc, List.singleton_append,
        infix_append_cons_iff some whole, ih]
      simp only [List.mem_cons, exists_eq_or_imp]

/-- A part of pieces that are put together stands in one of them. -/
theorem infix_intercalate_iff {pieces : List (List α)} :
    part <:+: [separator].intercalate pieces ↔ ∃ piece ∈ pieces, part <:+: piece := by
  induction pieces with
  | nil => simp [some]
  | cons piece rest ih =>
      cases rest with
      | nil => simp
      | cons next rest =>
          rw [List.intercalate_cons_cons, List.append_assoc, List.singleton_append,
            infix_append_cons_iff some whole, ih]
          simp only [List.mem_cons, exists_eq_or_imp]

end BuildWarden.Text
