import BuildWarden.Text.Search
import Mathlib.Data.List.Basic
/-!
# Pieces and parts

Splitting at a separator goes piece by piece, and no piece has anything inside that the sequence has
not. A part is found where it stands first.
-/

namespace BuildWarden.Text
variable {α : Type} [BEq α] {separator : α}

variable [LawfulBEq α]

/-- A separator in front splits off an empty piece. -/
theorem splitOn_cons_self (rest : List α) :
    List.splitOn separator (separator :: rest) = [] :: List.splitOn separator rest :=
  List.splitOn_append_cons_self [] rest

/-- What is in front of the first separator goes on with what is put in front of it. -/
theorem splitOn_append_of_not_mem {front back first : List α} {others : List (List α)}
    (absent : separator ∉ front) (cut : List.splitOn separator back = first :: others) :
    List.splitOn separator (front ++ back) = (front ++ first) :: others := by
  induction front with
  | nil => exact cut
  | cons x front ih =>
      obtain ⟨different, absent⟩ := not_or.mp (List.mem_cons.not.mp absent)
      rw [List.cons_append, List.splitOn_cons_eq_if_modifyHead,
        if_neg (by simpa using Ne.symm different), ih absent]
      rfl

/-- A piece has no separator inside. -/
theorem not_mem_of_mem_splitOn {whole piece : List α}
    (member : piece ∈ List.splitOn separator whole) : separator ∉ piece := by
  induction whole generalizing piece with
  | nil => simp_all
  | cons x rest ih =>
      by_cases same : (x == separator) = true
      · obtain rfl : x = separator := by simpa using same
        rw [splitOn_cons_self, List.mem_cons] at member
        rcases member with rfl | member
        · exact List.not_mem_nil
        · exact ih member
      · obtain ⟨first, others, shape⟩ :=
          List.exists_cons_of_ne_nil (List.splitOn_ne_nil separator rest)
        have alone : separator ∉ [x] := fun member => same (by simp [List.mem_singleton.mp member])
        have cut : List.splitOn separator (x :: rest) = (x :: first) :: others :=
          splitOn_append_of_not_mem alone shape
        rw [cut, List.mem_cons] at member
        rw [shape] at ih
        rcases member with rfl | member
        · exact List.not_mem_cons_of_ne_of_not_mem (fun equal => same (by simp [equal]))
            (ih List.mem_cons_self)
        · exact ih (List.mem_cons_of_mem first member)

/-- What was put together with separators is split part by part. -/
theorem splitOn_intercalate_eq {parts : List (List α)} (some : parts ≠ []) :
    List.splitOn separator ([separator].intercalate parts) =
      parts.flatMap (List.splitOn separator) := by
  induction parts with
  | nil => exact (some rfl).elim
  | cons part rest ih =>
      cases rest with
      | nil => simp
      | cons next rest =>
          rw [List.intercalate_cons_cons, List.append_assoc, List.singleton_append,
            List.splitOn_append_cons_self, ih (by simp)]
          rfl

/-- What was cut at a separator. -/
theorem eq_of_cutAt? {whole before after : List α}
    (cut : cutAt? separator whole = some (before, after)) :
    whole = before ++ separator :: after := by
  induction whole generalizing before with
  | nil => cases cut
  | cons x rest ih =>
      unfold cutAt? at cut
      split at cut
      next same =>
        cases cut
        rw [eq_of_beq same]
        rfl
      next =>
        obtain ⟨⟨front, back⟩, further, same⟩ := Option.map_eq_some_iff.mp cut
        cases same
        rw [ih further]
        rfl

/-- A text is cut at the first separator. -/
theorem cutAt?_append {front : List α} (absent : separator ∉ front) (back : List α) :
    cutAt? separator (front ++ separator :: back) = some (front, back) := by
  induction front with
  | nil => simp [cutAt?]
  | cons x front ih =>
      obtain ⟨different, absent⟩ := not_or.mp (List.mem_cons.not.mp absent)
      rw [List.cons_append, cutAt?, if_neg (by simpa using Ne.symm different), ih absent]
      rfl

/-- Putting the separator behind each piece gives the sequence back, with one more at its end. -/
theorem flatMap_splitOn (separator : α) (whole : List α) :
    (List.splitOn separator whole).flatMap (· ++ [separator]) = whole ++ [separator] := by
  have ended {pieces : List (List α)} (some : pieces ≠ []) :
      pieces.flatMap (· ++ [separator]) = [separator].intercalate pieces ++ [separator] := by
    induction pieces with
    | nil => exact (some rfl).elim
    | cons piece rest ih =>
        cases rest with
        | nil => simp
        | cons next rest =>
            rw [List.flatMap_cons, ih (by simp), List.intercalate_cons_cons]
            simp only [List.append_assoc]
  rw [ended (List.splitOn_ne_nil separator whole), List.intercalate_splitOn]

/-- There is nothing in a piece that is not in the sequence. -/
theorem mem_of_mem_splitOn {whole piece : List α} {x : α}
    (cut : piece ∈ List.splitOn separator whole) (inside : x ∈ piece) : x ∈ whole := by
  have ended : x ∈ (List.splitOn separator whole).flatMap (· ++ [separator]) :=
    List.mem_flatMap.mpr ⟨piece, cut, List.mem_append_left _ inside⟩
  rw [flatMap_splitOn, List.mem_append, List.mem_singleton] at ended
  refine ended.resolve_right fun same => ?_
  exact not_mem_of_mem_splitOn cut (same ▸ inside)

/-- A sequence is known by its pieces. -/
theorem splitOn_injective : Function.Injective (List.splitOn separator) :=
  Function.LeftInverse.injective fun _ => List.intercalate_splitOn separator

/-- A front of marked entries is told apart from what is behind it, where that starts without the
mark. -/
theorem append_inj_of_marked {β : Type} {marked : β → Prop} {front front' rest rest' : List β}
    (all : ∀ x ∈ front, marked x) (all' : ∀ x ∈ front', marked x)
    (ends : ∀ x ∈ rest.head?, ¬marked x) (ends' : ∀ x ∈ rest'.head?, ¬marked x)
    (same : front ++ rest = front' ++ rest') : front = front' ∧ rest = rest' := by
  induction front generalizing front' with
  | nil =>
      cases front' with
      | nil => exact ⟨rfl, same⟩
      | cons y front' =>
          rw [List.nil_append] at same
          exact (ends y (by simp [same]) (all' y List.mem_cons_self)).elim
  | cons x front ih =>
      cases front' with
      | nil =>
          rw [List.nil_append] at same
          exact (ends' x (by simp [← same]) (all x List.mem_cons_self)).elim
      | cons y front' =>
          rw [List.cons_append, List.cons_append, List.cons.injEq] at same
          obtain ⟨rfl, further⟩ := same
          obtain ⟨rfl, behind⟩ := ih (fun x member => all x (List.mem_cons_of_mem _ member))
            (fun x member => all' x (List.mem_cons_of_mem _ member)) further
          exact ⟨rfl, behind⟩

/-- A part is found exactly if it is an infix. -/
theorem hasPart_iff {part whole : List α} : hasPart part whole = true ↔ part <:+: whole := by
  induction whole with
  | nil => simp [hasPart]
  | cons x rest ih =>
      rw [hasPart, Bool.or_eq_true, List.isPrefixOf_iff_prefix, ih, List.infix_cons_iff]

/-- A part of what stands in front is a part of the whole. -/
theorem hasPart_append_left {part front : List α} (inside : hasPart part front = true)
    (back : List α) : hasPart part (front ++ back) = true :=
  hasPart_iff.mpr ((hasPart_iff.mp inside).trans (List.prefix_append front back).isInfix)

/-- A part stands inside a sequence that it is followed in. -/
theorem hasPart_append_right (part front back : List α) :
    hasPart part (front ++ (part ++ back)) = true :=
  hasPart_iff.mpr ⟨front, back, List.append_assoc front part back⟩

/-! ### The first occurrence of a part -/

/-- The part stands between a front and the rest of a sequence, and nowhere earlier. -/
structure FirstPart (part front rest whole : List α) : Prop where
  split : whole = front ++ (part ++ rest)
  first : ∀ other back, whole = other ++ (part ++ back) → front.length ≤ other.length

/-- Nothing follows a part exactly if the part does not occur. -/
theorem afterPart?_eq_none {part whole : List α} :
    afterPart? part whole = none ↔ ¬part <:+: whole := by
  induction whole with
  | nil => simp [afterPart?]
  | cons x rest ih =>
      rw [afterPart?, List.infix_cons_iff, ← List.isPrefixOf_iff_prefix, not_or, ← ih]
      split
      next starts => simp [starts]
      next other => simp [other]

/-- What is found after a part is what follows its first occurrence. -/
theorem exists_firstPart {part whole rest : List α} (found : afterPart? part whole = some rest) :
    ∃ front, FirstPart part front rest whole := by
  induction whole with
  | nil =>
      unfold afterPart? at found
      split at found
      next empty =>
        cases found
        exact ⟨[], by simpa using empty, fun _ _ _ => Nat.zero_le _⟩
      next => cases found
  | cons x tail ih =>
      unfold afterPart? at found
      split at found
      next starts =>
        cases found
        obtain ⟨back, whole⟩ := List.isPrefixOf_iff_prefix.mp starts
        refine ⟨[], ?_, fun _ _ _ => Nat.zero_le _⟩
        rw [← whole, List.drop_left, List.nil_append]
      next other =>
        obtain ⟨front, split, first⟩ := ih found
        refine ⟨x :: front, by rw [split, List.cons_append], fun earlier back same => ?_⟩
        cases earlier with
        | nil =>
            refine absurd (List.isPrefixOf_iff_prefix.mpr ⟨back, ?_⟩) other
            rw [same, List.nil_append]
        | cons y earlier =>
            rw [List.cons_append, List.cons.injEq] at same
            exact Nat.succ_le_succ (first earlier back same.2)

/-- What follows a part is what stands behind its first occurrence. -/
theorem FirstPart.afterPart?_eq {part front rest whole : List α}
    (occurs : FirstPart part front rest whole) : afterPart? part whole = some rest := by
  have inside : part <:+: whole := ⟨front, rest, by rw [occurs.split, List.append_assoc]⟩
  cases found : afterPart? part whole with
  | none => exact (afterPart?_eq_none.mp found inside).elim
  | some rest' =>
      obtain ⟨front', occurs'⟩ := exists_firstPart found
      have same : front.length = front'.length :=
        Nat.le_antisymm (occurs.first _ _ occurs'.split) (occurs'.first _ _ occurs.split)
      have split := occurs.split.symm.trans occurs'.split
      obtain ⟨-, parts⟩ := List.append_inj split same
      rw [List.append_cancel_left parts]

end BuildWarden.Text
