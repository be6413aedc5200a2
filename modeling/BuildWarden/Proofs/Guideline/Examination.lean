import BuildWarden.Guideline.Check
import BuildWarden.Proofs.Tree.Enumerate
/-!
# Examinations that settle

A correcting check leaves some violations behind: those that it could not correct. Two facts about
one examination carry over to a whole check. If every violation that an examination leaves is found
by all later examinations, and nothing else is, then what a check leaves is what is found later. And
a check whose examinations change nothing counts what is found.
-/

namespace BuildWarden.Guideline

/-- The violations that were not corrected. -/
def unresolved (outcomes : List Outcome) : Nat :=
  outcomes.countP (· == .violation false)

/-- A violation is either corrected or left. -/
theorem unresolved_add_corrected (outcomes : List Outcome) :
    unresolved outcomes + outcomes.countP (· == .violation true) =
      outcomes.countP (· != .fine) := by
  unfold unresolved
  induction outcomes with
  | nil => rfl
  | cons outcome rest ih =>
      rw [List.countP_cons, List.countP_cons, List.countP_cons]
      rcases outcome with _ | (_ | _) <;> simp at ih ⊢ <;> omega

/-- What a check counts is what it corrected and what it left. -/
theorem CheckResult.violations_count {result : CheckResult}
    (even : result.violations = result.corrected) (outcomes : List Outcome) :
    (result.count outcomes).violations =
      unresolved outcomes + (result.count outcomes).corrected := by
  have parts := unresolved_add_corrected outcomes
  simp only [count, even]
  omega

/-- A result that counted nothing yet counts just the outcomes. -/
theorem CheckResult.count_fresh {result : CheckResult} (zero : result.violations = 0)
    (none : result.corrected = 0) (outcomes : List Outcome) :
    (result.count outcomes).violations = outcomes.countP (· != .fine) ∧
      (result.count outcomes).corrected = outcomes.countP (· == .violation true) := by
  simp only [count, zero, none, Nat.zero_add, and_self]

/-- Where the same becomes of all sources that are found, and the others are fine, the found ones
are counted. -/
theorem CheckResult.count_found (result : CheckResult) (files : List SourceFile)
    (found : SourceFile → Bool) (correct : Bool) :
    result.count (files.map fun file => if found file then .violation correct else .fine) =
      { result with
        violations := result.violations + (files.filter found).length
        corrected := result.corrected + if correct then (files.filter found).length else 0 } := by
  have flags (file : SourceFile) :
      ((if found file then Outcome.violation correct else .fine) != .fine) = found file := by
    cases found file <;> rfl
  have mends (file : SourceFile) :
      ((if found file then Outcome.violation correct else .fine) == .violation true) =
        (correct && found file) := by
    cases found file <;> cases correct <;> rfl
  rw [count, List.countP_map, List.countP_map]
  simp only [Function.comp_def, flags, mends, List.countP_eq_length_filter]
  cases correct <;> simp

section ExamineAll
variable {examine : Examination} {finds : SourceFile → Disk → Bool} {files : List SourceFile}
  {world : World}

/-- **What a check leaves is what is found later**, if this holds of each examination. -/
theorem unresolved_examineAll (Later : Disk → Disk → Prop) {start : Disk}
    (trans : ∀ {one two three}, Later one two → Later two three → Later one three)
    (refl : ∀ disk, Later disk disk)
    (settles : ∀ file ∈ files, ∀ world : World, Later start world.disk →
      Later world.disk (examine file world).2.disk ∧
        ∀ disk, Later (examine file world).2.disk disk →
          (finds file disk = true ↔ (examine file world).1 = .violation false))
    (reached : Later start world.disk) :
    Later world.disk (examineAll examine files world).2.disk ∧
      ∀ disk, Later (examineAll examine files world).2.disk disk →
        unresolved (examineAll examine files world).1 = files.countP (finds · disk) := by
  induction files generalizing world with
  | nil => exact ⟨refl _, fun _ _ => rfl⟩
  | cons file rest ih =>
      obtain ⟨step, found⟩ := settles file (by simp) world reached
      obtain ⟨further, counted⟩ := ih (fun other member => settles other (by simp [member]))
        (trans reached step)
      refine ⟨trans step further, fun disk later => ?_⟩
      have here := found disk (trans further later)
      rw [examineAll, List.countP_cons]
      have others := counted disk later
      unfold unresolved at others ⊢
      rw [List.countP_cons, others]
      congr 1
      by_cases left : (examine file world).1 = .violation false
      · simp [left, here.mpr left]
      · have unseen : finds file disk = false := Bool.eq_false_iff.mpr (left ∘ here.mp)
        simp [left, unseen]

/-- **A check that changes nothing counts what is found.** -/
theorem countP_examineAll {disk : Disk}
    (still : ∀ file ∈ files, ∀ world : World, world.disk = disk →
      (examine file world).2.disk = disk ∧
        (finds file disk = true ↔ (examine file world).1 ≠ .fine))
    (starts : world.disk = disk) :
    (examineAll examine files world).2.disk = disk ∧
      (examineAll examine files world).1.countP (· != .fine) = files.countP (finds · disk) := by
  induction files generalizing world with
  | nil => exact ⟨starts, rfl⟩
  | cons file rest ih =>
      obtain ⟨same, found⟩ := still file (by simp) world starts
      obtain ⟨ended, counted⟩ := ih (fun other member => still other (by simp [member])) same
      refine ⟨ended, ?_⟩
      rw [examineAll, List.countP_cons, List.countP_cons, counted]
      congr 1
      by_cases fine : (examine file world).1 = .fine
      · have unseen : finds file disk = false := Bool.eq_false_iff.mpr (found.mp · fine)
        simp [fine, unseen]
      · simp [fine, found.mpr fine]

/-- The same for kinds of sources, which are all listed on the same disk then. -/
theorem countP_examineKinds {layout : Layout} {listing : SourceKind → Listing}
    {kinds : List SourceKind} {disk : Disk}
    (still : ∀ kind ∈ kinds, ∀ file ∈ kind.sources layout (listing kind) disk,
      ∀ world : World, world.disk = disk → (examine file world).2.disk = disk ∧
        (finds file disk = true ↔ (examine file world).1 ≠ .fine))
    (starts : world.disk = disk) :
    (examineKinds examine layout listing kinds world).2.disk = disk ∧
      (examineKinds examine layout listing kinds world).1.countP (· != .fine) =
        (kinds.flatMap fun kind => kind.sources layout (listing kind) disk).countP
          (finds · disk) := by
  induction kinds generalizing world with
  | nil => exact ⟨starts, rfl⟩
  | cons kind rest ih =>
      have here := still kind (by simp)
      rw [← starts] at here
      obtain ⟨same, counted⟩ := countP_examineAll here rfl
      obtain ⟨ended, others⟩ := ih (fun other member => still other (by simp [member]))
        (same.trans starts)
      refine ⟨ended, ?_⟩
      rw [examineKinds, List.countP_append, counted, others, List.flatMap_cons,
        List.countP_append, starts]

end ExamineAll
end BuildWarden.Guideline
