/-!
# Searching in sequences

The few operations on sequences that rules for paths, licences and lines share: cutting at the first
separator, looking for a contiguous part, and what follows the first one.
-/

namespace BuildWarden.Text

/-- Splits at the first occurrence of `separator`, which belongs to neither part. -/
def cutAt? {α : Type} [BEq α] (separator : α) : List α → Option (List α × List α)
  | [] => none
  | x :: rest =>
    if x == separator then some ([], rest)
    else (cutAt? separator rest).map fun (before, after) => (x :: before, after)

/-- A cut shortens both sides: the separator is in neither. -/
theorem length_of_cutAt? {α : Type} [BEq α] {separator : α} {whole before after : List α}
    (h : cutAt? separator whole = some (before, after)) :
    whole.length = before.length + after.length + 1 := by
  induction whole generalizing before with
  | nil => simp [cutAt?] at h
  | cons x rest ih =>
    unfold cutAt? at h
    split at h
    · simp only [Option.some.injEq, Prod.mk.injEq] at h
      simp [← h.1, ← h.2]
    · simp only [Option.map_eq_some_iff, Prod.mk.injEq, Prod.exists] at h
      obtain ⟨first, second, cut, rfl, rfl⟩ := h
      simp [ih cut]; omega

/-- Whether `part` stands somewhere inside, contiguously. -/
def hasPart {α : Type} [BEq α] (part : List α) : List α → Bool
  | [] => part.isEmpty
  | x :: rest => part.isPrefixOf (x :: rest) || hasPart part rest

/-- What follows the first occurrence of `part`. -/
def afterPart? {α : Type} [BEq α] (part : List α) : List α → Option (List α)
  | [] => if part.isEmpty then some [] else none
  | x :: rest =>
    if part.isPrefixOf (x :: rest) then some ((x :: rest).drop part.length)
    else afterPart? part rest

/-- Whether a text contains another one. -/
def contains (part whole : String) : Bool :=
  hasPart part.toList whole.toList

/-- Puts `joint` between the texts. -/
def joined (joint : String) (texts : List String) : String :=
  String.intercalate joint texts

end BuildWarden.Text
