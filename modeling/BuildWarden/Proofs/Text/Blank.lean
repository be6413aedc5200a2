import BuildWarden.Text.Blank
import Mathlib.Data.List.DropRight
/-!
# Trimming

A text is what is left after trimming with blanks around it, and trimming again changes nothing:
what is trimmed is what has no blank at either end.
-/

namespace BuildWarden.Text

private theorem trimRight_eq (cs : List Char) : trimRight cs = cs.rdropWhile isBlank :=
  rfl

/-- A text is its trimmed part with blanks on both sides. -/
theorem exists_blanks (cs : List Char) :
    ∃ front back, cs = front ++ trimChars cs ++ back ∧
      (∀ c ∈ front, isBlank c = true) ∧ ∀ c ∈ back, isBlank c = true := by
  refine ⟨cs.takeWhile isBlank, (trimLeft cs).rtakeWhile isBlank, ?_, ?_, ?_⟩
  · rw [trimChars, trimRight_eq, List.append_assoc, List.rdropWhile_append_rtakeWhile, trimLeft,
      List.takeWhile_append_dropWhile]
  · intro c member
    exact List.mem_takeWhile_imp member
  · intro c member
    exact List.mem_rtakeWhile_imp member

/-- Trimming adds no characters. -/
theorem mem_of_mem_trimChars {cs : List Char} {c : Char} (member : c ∈ trimChars cs) : c ∈ cs := by
  obtain ⟨front, back, whole, -⟩ := exists_blanks cs
  rw [whole]
  exact List.mem_append_left back (List.mem_append_right front member)

/-- What is left after trimming does not start with a blank. -/
theorem isBlank_head_trimChars {cs rest : List Char} {c : Char}
    (starts : trimChars cs = c :: rest) :
    isBlank c = false := by
  have front : trimChars cs <+: trimLeft cs := List.rdropWhile_prefix isBlank (trimLeft cs)
  rw [starts] at front
  obtain ⟨back, whole⟩ := front
  have first := List.head?_dropWhile_not isBlank cs
  rwa [← trimLeft, ← whole] at first

/-- Nor does it end in one. -/
theorem isBlank_getLast_trimChars {cs : List Char} {c : Char}
    (ends : (trimChars cs).getLast? = some c) : isBlank c = false := by
  have some : trimChars cs ≠ [] := by
    rintro none
    rw [none] at ends
    cases ends
  have last : ¬isBlank ((trimChars cs).getLast some) = true :=
    List.rdropWhile_last_not isBlank (trimLeft cs) some
  rw [List.getLast?_eq_some_getLast some, Option.some.injEq] at ends
  rwa [ends, Bool.not_eq_true] at last

/-- A text is trimmed if and only if neither of its ends is blank. -/
theorem trimChars_eq_self {cs : List Char} :
    trimChars cs = cs ↔
      (∀ c ∈ cs.head?, isBlank c = false) ∧ ∀ c ∈ cs.getLast?, isBlank c = false := by
  constructor
  · intro trimmed
    refine ⟨fun c first => ?_, fun c last => ?_⟩
    · obtain ⟨rest, rfl⟩ := List.head?_eq_some_iff.mp first
      exact isBlank_head_trimChars trimmed
    · rw [← trimmed] at last
      exact isBlank_getLast_trimChars last
  · rintro ⟨first, last⟩
    have left : trimLeft cs = cs := by
      cases cs with
      | nil => rfl
      | cons c rest => exact List.dropWhile_cons_of_neg (by simp [first c rfl])
    rw [trimChars, left, trimRight_eq, List.rdropWhile_eq_self_iff]
    intro some
    simp [last _ (List.getLast?_eq_some_getLast some)]

private theorem trimChars_trimChars (cs : List Char) : trimChars (trimChars cs) = trimChars cs := by
  refine trimChars_eq_self.mpr ⟨fun c first => ?_, fun c last => isBlank_getLast_trimChars last⟩
  obtain ⟨rest, starts⟩ := List.head?_eq_some_iff.mp first
  exact isBlank_head_trimChars starts

/-- What was trimmed stays as it is. -/
@[simp]
theorem trim_trim (text : String) : trim (trim text) = trim text := by
  simp [trim, trimChars_trimChars]

/-- A text that is not blank is what trimming leaves of it. -/
theorem nonBlank?_eq_some {text found : String} :
    nonBlank? text = some found ↔ trim text = found ∧ found ≠ "" := by
  unfold nonBlank?
  dsimp only
  split
  next none =>
    rw [String.isEmpty_iff] at none
    simp only [none, reduceCtorEq, false_iff, not_and, not_not]
    exact Eq.symm
  next some =>
    rw [String.isEmpty_iff] at some
    rw [Option.some.injEq]
    exact ⟨fun same => ⟨same, same ▸ some⟩, And.left⟩

/-- A text is blank exactly if trimming leaves nothing. -/
theorem nonBlank?_eq_none {text : String} : nonBlank? text = none ↔ trim text = "" := by
  unfold nonBlank?
  dsimp only
  split
  next none => simp [String.isEmpty_iff.mp none]
  next some => simpa [String.isEmpty_iff] using some

/-- What is left after trimming is kept when it is trimmed again. -/
theorem nonBlank?_nonBlank? {text found : String} (left : nonBlank? text = some found) :
    nonBlank? found = some found := by
  obtain ⟨rfl, some⟩ := nonBlank?_eq_some.mp left
  exact nonBlank?_eq_some.mpr ⟨trim_trim text, some⟩

/-- Dropping blank texts twice drops no more. -/
theorem bind_nonBlank?_bind (text : Option String) :
    (text.bind nonBlank?).bind nonBlank? = text.bind nonBlank? := by
  rcases (text.bind nonBlank?).eq_none_or_eq_some with nothing | ⟨found, left⟩
  · rw [nothing, Option.bind_none]
  · obtain ⟨whole, -, kept⟩ := Option.bind_eq_some_iff.mp left
    rw [left, Option.bind_some, nonBlank?_nonBlank? kept]

/-- Some of the blanks in front may be dropped before trimming. -/
theorem trimChars_dropWhile {gap : Char → Bool} (blank : ∀ c, gap c = true → isBlank c = true)
    (cs : List Char) : trimChars (cs.dropWhile gap) = trimChars cs := by
  induction cs with
  | nil => rfl
  | cons c rest ih =>
      by_cases dropped : gap c = true
      · rw [List.dropWhile_cons_of_pos dropped, ih]
        unfold trimChars trimLeft
        rw [List.dropWhile_cons_of_pos (blank c dropped)]
      · rw [List.dropWhile_cons_of_neg dropped]

end BuildWarden.Text
