import BuildWarden.Proofs.Text.Blank
import BuildWarden.Text.UpperCase
import Mathlib.Data.Nat.Bitwise
/-!
# Upper case that stays

A text in upper case is its own upper case. It has blanks and separators only where the text had
them, and no letter beyond ASCII becomes one of a few chosen ASCII letters. The tables of letters
are long, so that no letter moves to one that moves itself is seen by comparing two sets of code
points at once, as the bits of two numbers.
-/

namespace BuildWarden.Text

/-! ### Sets of code points -/

/-- The number whose bits are the given points. -/
def bits (points : List Nat) : Nat :=
  points.foldr (fun point set => 2 ^ point ||| set) 0

private theorem testBit_bits (points : List Nat) (point : Nat) :
    (bits points).testBit point = decide (point ∈ points) := by
  induction points with
  | nil => simp [bits]
  | cons first rest ih =>
      unfold bits at ih ⊢
      rw [List.foldr_cons, Nat.testBit_or, Nat.testBit_two_pow, ih]
      simp [eq_comm]

/-- Sets without a common bit have no common point. -/
theorem not_mem_of_bits {points others : List Nat} (apart : bits points &&& bits others = 0)
    {point : Nat} (member : point ∈ points) : point ∉ others := by
  intro shared
  have both : (bits points &&& bits others).testBit point = true := by
    simp [Nat.testBit_and, testBit_bits, member, shared]
  simp [apart] at both

/-! ### Letters that move -/

/-- The points of a run. -/
def CaseRun.points (run : CaseRun) : List Nat :=
  (List.range ((run.last - run.first) / run.step + 1)).map fun place => run.first + place * run.step

private theorem CaseRun.mem_points {run : CaseRun} {point : Nat} (holds : run.holds point = true) :
    point ∈ run.points := by
  simp only [CaseRun.holds, Bool.and_eq_true, decide_eq_true_eq, beq_iff_eq] at holds
  obtain ⟨⟨above, below⟩, even⟩ := holds
  refine List.mem_map.mpr ⟨(point - run.first) / run.step, ?_, ?_⟩
  · rw [List.mem_range, Nat.lt_succ_iff]
    exact Nat.div_le_div_right (by omega)
  · have whole := Nat.div_add_mod (point - run.first) run.step
    rw [even, Nat.add_zero, Nat.mul_comm] at whole
    omega

/-- The letters that differ from their upper case. -/
def movingPoints : List Nat :=
  caseRuns.flatMap CaseRun.points ++ expandingLetters.map Prod.fst

/-- The upper cases of letters beyond ASCII. -/
def images : List (List Nat) :=
  (caseRuns.filter (0x80 ≤ ·.last)).flatMap (fun run =>
    run.points.map fun (point : Nat) => [((point : Int) + run.shift).toNat]) ++
      expandingLetters.map Prod.snd

private theorem upperChar_of_not_mem {c : Char} (still : c.toNat ∉ movingPoints) : upperChar c =
    [c] := by
  obtain ⟨noRun, noLetter⟩ : (∀ run ∈ caseRuns, run.holds c.toNat = false) ∧
      c.toNat ∉ expandingLetters.map Prod.fst := by
    rw [movingPoints, List.mem_append, not_or, List.mem_flatMap] at still
    refine ⟨fun run member => Bool.eq_false_iff.mpr fun holds => ?_, still.2⟩
    exact still.1 ⟨run, member, CaseRun.mem_points holds⟩
  unfold upperChar
  split
  next small =>
    have outside := noRun ⟨0x61, 0x7A, 1, -32⟩ (by unfold caseRuns; exact List.mem_cons_self)
    simp only [CaseRun.holds, Nat.mod_one, beq_self_eq_true, Bool.and_true, Bool.and_eq_false_iff,
      decide_eq_false_iff_not] at outside
    refine congrArg ([·]) (dif_neg ?_)
    rintro ⟨low, high⟩
    rw [UInt32.le_iff_toNat_le] at low high
    rcases outside with below | above
    · exact below low
    · exact above high
  next =>
    have absent : expandingLetters.lookup c.toNat = none := by
      rw [List.lookup_eq_none_iff]
      intro entry member
      rw [bne_iff_ne]
      exact fun same => noLetter (List.mem_map.mpr ⟨entry, member, same.symm⟩)
    have nowhere : caseRuns.find? (·.holds c.toNat) = none := by
      rw [List.find?_eq_none]
      intro run member
      rw [noRun run member]
      exact Bool.false_ne_true
    rw [absent, nowhere]

/-- Beyond ASCII a letter stays as it is or becomes one of the known images. -/
theorem upperChar_wide {c : Char} (wide : 0x80 ≤ c.toNat) :
    upperChar c = [c] ∨ ∃ image ∈ images, upperChar c = image.map Char.ofNat := by
  unfold upperChar
  rw [if_neg (by omega)]
  cases expands : expandingLetters.lookup c.toNat with
  | some points =>
      obtain ⟨front, back, split, -⟩ := List.lookup_eq_some_iff.mp expands
      refine .inr ⟨points, List.mem_append_right _ ?_, rfl⟩
      exact List.mem_map.mpr ⟨(c.toNat, points), by simp [split], rfl⟩
  | none =>
      cases moves : caseRuns.find? (·.holds c.toNat) with
      | some run =>
          have holds := List.find?_some moves
          refine .inr ⟨[((c.toNat : Int) + run.shift).toNat], List.mem_append_left _ ?_, rfl⟩
          have listed := List.mem_of_find?_eq_some moves
          refine List.mem_flatMap.mpr ⟨run, List.mem_filter.mpr ⟨listed, ?_⟩,
            List.mem_map.mpr ⟨c.toNat, CaseRun.mem_points holds, rfl⟩⟩
          simp only [CaseRun.holds, Bool.and_eq_true, decide_eq_true_eq] at holds ⊢
          omega
      | none => exact .inl rfl

/-! ### What letters move to -/

/-- The blanks, and the sign that separates names. -/
def gapPoints : List Nat :=
  List.range' 9 5 ++ [0x20, '+'.toNat, 0x85, 0xA0, 0x1680] ++ List.range' 0x2000 11 ++
    [0x2028, 0x2029, 0x202F, 0x205F, 0x3000]

private theorem mem_gapPoints {c : Char}
    (gap : isBlank c = true ∨ c = '+') : c.toNat ∈ gapPoints := by
  rcases gap with blank | rfl
  · simp only [isBlank, Bool.or_eq_true, Bool.and_eq_true, decide_eq_true_eq, beq_iff_eq] at blank
    simp only [gapPoints, List.mem_append, List.mem_range'_1, List.mem_cons, List.not_mem_nil]
    omega
  · decide

/-- No letter moves to one that moves, nor to a gap. -/
theorem images_apart : bits images.flatten &&& bits (movingPoints ++ gapPoints) = 0 := by
  decide +kernel

private theorem images_valid : ∀ point ∈ images.flatten, point.isValidChar := by
  decide +kernel

private theorem images_ne_nil : ∀ image ∈ images, image ≠ [] := by
  decide +kernel

/-- Where a letter beyond ASCII moves to, nothing moves on and there is no gap. -/
theorem exists_image {c u : Char} (wide : 0x80 ≤ c.toNat) (member : u ∈ upperChar c) :
    (upperChar c = [c] ∧ u = c) ∨ u.toNat ∉ movingPoints ∧ u.toNat ∉ gapPoints := by
  rcases upperChar_wide wide with same | ⟨image, known, moved⟩
  · rw [same, List.mem_singleton] at member
    exact .inl ⟨same, member⟩
  · rw [moved] at member
    obtain ⟨point, within, rfl⟩ := List.mem_map.mp member
    have inside : point ∈ images.flatten := List.mem_flatten_of_mem known within
    have back : (Char.ofNat point).toNat = point := by
      rw [Char.ofNat, dif_pos (images_valid point inside)]
      rfl
    have apart := not_mem_of_bits images_apart inside
    rw [List.mem_append, not_or] at apart
    rw [back]
    exact .inr apart

/-- What holds of every ASCII character can be checked one by one. -/
theorem forall_ascii (holds : Char → Prop) (each : ∀ point < 0x80, holds (Char.ofNat point))
    {c : Char} (small : c.toNat < 0x80) : holds c := by
  have here := each c.toNat small
  rwa [Char.ofNat_toNat] at here

/-- On ASCII the table agrees with the library. -/
theorem upperChar_ascii {c : Char} (small : c.toNat < 0x80) : upperChar c = [c.toUpper] := by
  rw [upperChar, if_pos small]

private theorem upperChar_ne_nil (c : Char) : upperChar c ≠ [] := by
  by_cases small : c.toNat < 0x80
  · simp [upperChar_ascii small]
  · rcases upperChar_wide (Nat.le_of_not_lt small) with same | ⟨image, known, moved⟩
    · simp [same]
    · simpa [moved] using images_ne_nil image known

/-- **What is in upper case stays**, character by character. -/
theorem upperChar_of_mem {c u : Char} (member : u ∈ upperChar c) : upperChar u = [u] := by
  by_cases small : c.toNat < 0x80
  · rw [upperChar_ascii small, List.mem_singleton] at member
    rw [member]
    exact forall_ascii (fun c => upperChar c.toUpper = [c.toUpper]) (by decide) small
  · rcases exists_image (Nat.le_of_not_lt small) member with ⟨same, rfl⟩ | ⟨still, -⟩
    · exact same
    · exact upperChar_of_not_mem still

/-- Upper case makes no gaps. -/
theorem gap_of_mem_upperChar {c u : Char} (member : u ∈ upperChar c)
    (gap : isBlank u = true ∨ u = '+') : u = c := by
  by_cases small : c.toNat < 0x80
  · rw [upperChar_ascii small, List.mem_singleton] at member
    rw [member] at gap ⊢
    exact forall_ascii (fun c => isBlank c.toUpper = true ∨ c.toUpper = '+' → c.toUpper = c)
      (by decide) small gap
  · rcases exists_image (Nat.le_of_not_lt small) member with ⟨-, same⟩ | ⟨-, whole⟩
    · exact same
    · exact (whole (mem_gapPoints gap)).elim

/-! ### Texts -/

/-- What is in upper case stays as it is. -/
theorem upperCase_upperCase (text : String) : upperCase (upperCase text) = upperCase text := by
  unfold upperCase
  rw [String.toList_ofList, List.flatMap_assoc]
  refine congrArg String.ofList (List.flatMap_congr fun c _ => ?_)
  calc (upperChar c).flatMap upperChar
      = (upperChar c).flatMap fun u => [u] := List.flatMap_congr fun u => upperChar_of_mem
    _ = upperChar c := List.flatMap_singleton' _

/-- A text does not vanish in upper case. -/
theorem upperCase_ne_empty {text : String} (some : text ≠ "") : upperCase text ≠ "" := by
  unfold upperCase
  rw [Ne, ← String.toList_inj] at some ⊢
  cases starts : text.toList with
  | nil => exact (some starts).elim
  | cons c rest => simp [upperChar_ne_nil c]

/-- Upper case puts no blanks around a text. -/
theorem trim_upperCase {text : String} (trimmed : trim text = text) :
    trim (upperCase text) = upperCase text := by
  have whole : ∀ {c u : Char}, isBlank c = false → u ∈ upperChar c → isBlank u = false := by
    intro c u whole member
    refine Bool.eq_false_iff.mpr fun blank => ?_
    rw [gap_of_mem_upperChar member (.inl blank), whole] at blank
    cases blank
  have ends : trimChars text.toList = text.toList := by
    simpa [trim] using congrArg String.toList trimmed
  obtain ⟨first, last⟩ := trimChars_eq_self.mp ends
  unfold trim upperCase
  rw [String.toList_ofList, trimChars_eq_self.mpr]
  constructor
  · intro u starts
    cases shape : text.toList with
    | nil => simp [shape] at starts
    | cons c rest =>
        rw [shape, List.flatMap_cons, List.head?_append_of_ne_nil _ (upperChar_ne_nil c)] at starts
        exact whole (first c (by simp [shape])) (List.mem_of_head? starts)
  · intro u stops
    rcases List.eq_nil_or_concat text.toList with none | ⟨front, c, shape⟩
    · simp [none] at stops
    · rw [List.concat_eq_append] at shape
      rw [shape, List.flatMap_append, List.flatMap_singleton,
        List.getLast?_append_of_ne_nil _ (upperChar_ne_nil c)] at stops
      exact whole (last c (by simp [shape])) (List.mem_of_getLast? stops)

/-- No plus sign comes up in upper case. -/
theorem plus_not_mem_upperCase {text : String} (absent : '+' ∉ text.toList) :
    '+' ∉ (upperCase text).toList := by
  unfold upperCase
  rw [String.toList_ofList, List.mem_flatMap]
  rintro ⟨c, member, plus⟩
  obtain rfl := gap_of_mem_upperChar plus (.inr rfl)
  exact absent member

end BuildWarden.Text
