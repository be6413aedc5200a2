import BuildWarden.Proofs.Build.Digits
import Mathlib.Algebra.Group.Nat.Defs
import Mathlib.Algebra.Ring.Int.Defs
import Mathlib.Order.Lattice
/-!
# How many jobs a request gets

A number is compared with the cores in words of 64 bits, or not at all when it is too large for one.
The result is the one of unbounded integers all the same, as long as the number of cores is a
positive word itself. It lies between one and the number of cores, and more cores never give fewer
jobs.
-/

namespace BuildWarden.JobRequest

/-! ### Words -/

section Words
variable {count : Int} {cores : Nat}

private theorem toInt_max (left right : Int64) :
    (max left right).toInt = max left.toInt right.toInt := by
  change (if left ≤ right then right else left).toInt = _
  simp only [apply_ite Int64.toInt, Int64.le_iff_toInt_le, Int.max_def]

private theorem toInt_min (left right : Int64) :
    (min left right).toInt = min left.toInt right.toInt := by
  change (if left ≤ right then left else right).toInt = _
  simp only [apply_ite Int64.toInt, Int64.le_iff_toInt_le, Int.min_def]

private theorem word?_eq :
    word? count = if -(2 : Int) ^ 63 ≤ count ∧ count < 2 ^ 63 then some (Int64.ofInt count)
      else none := by
  have least := Int64.toInt_minValue
  have most := Int64.toInt_maxValue
  unfold word?
  congr 1
  rw [eq_iff_iff]
  omega

/-- **Clamping in words is clamping of integers**, also of those without a word. -/
theorem clamped_eq (count : Int) (several : 1 < cores) (bounded : cores < 2 ^ 63) :
    (clamped count cores : Int) = max 1 (min count cores) := by
  unfold clamped
  cases word : word? count with
  | some requested =>
      rw [word?_eq] at word
      obtain ⟨fits, same⟩ := Option.ite_none_right_eq_some.mp word
      cases same
      have value : (max 1 (min (Int64.ofInt count) (Int64.ofNat cores))).toInt =
          max 1 (min count cores) := by
        rw [toInt_max, toInt_min, Int64.toInt_ofInt_of_le fits.1 fits.2,
          Int64.toInt_ofNat_of_lt bounded]
        rfl
      have positive : 0 ≤ max 1 (min (Int64.ofInt count) (Int64.ofNat cores)) := by
        rw [Int64.le_iff_toInt_le, value]
        exact Int.le_trans (by decide) (Int.le_max_left 1 _)
      dsimp only
      rw [Int64.toNat_toUInt64_of_le positive, ← Int64.toNat_toInt, value]
      omega
  | none =>
      have large : ¬(-(2 : Int) ^ 63 ≤ count ∧ count < 2 ^ 63) := by
        intro fits
        rw [word?_eq, if_pos fits] at word
        cases word
      dsimp only
      split <;> omega

end Words

/-! ### Jobs -/

section Jobs
variable {request : JobRequest} {cores more : Nat}

private theorem jobs_bounds (request : JobRequest) (bounded : cores < 2 ^ 63) :
    1 ≤ request.jobs cores ∧ request.jobs cores ≤ max 1 cores := by
  unfold jobs
  split
  next few => exact ⟨le_rfl, le_max_left _ _⟩
  next several =>
    rw [not_le] at several
    cases request with
    | all | half | allButOne =>
        dsimp only
        omega
    | halfButOne =>
        dsimp only
        split <;> omega
    | exactly count =>
        have value := clamped_eq count several bounded
        dsimp only
        omega

/-- More cores never give fewer jobs. -/
theorem jobs_mono (request : JobRequest) (grows : cores ≤ more) (bounded : more < 2 ^ 63) :
    request.jobs cores ≤ request.jobs more := by
  by_cases several : cores ≤ 1
  · have one : request.jobs cores = 1 := if_pos several
    rw [one]
    exact (jobs_bounds request bounded).1
  · have further : ¬more ≤ 1 := fun few => several (grows.trans few)
    unfold jobs
    rw [if_neg several, if_neg further]
    rw [not_le] at several further
    cases request with
    | all | half | allButOne =>
        dsimp only
        omega
    | halfButOne =>
        dsimp only
        split_ifs <;> omega
    | exactly count =>
        have value := clamped_eq count several (grows.trans_lt bounded)
        have value' := clamped_eq count further bounded
        dsimp only
        omega

end Jobs

/-! ### Requests -/

/-- A number as it is written: one or more digits, perhaps behind a sign, and the integer that they
stand for. -/
inductive Numeral : List Char → Int → Prop
  | unsigned {digits : List Char} (something : digits ≠ [])
      (proper : ∀ c ∈ digits, c.isDigit = true) : Numeral digits (Nat.ofDigitChars 10 digits 0)
  | plus {digits : List Char} (something : digits ≠ [])
      (proper : ∀ c ∈ digits, c.isDigit = true) :
      Numeral ('+' :: digits) (Nat.ofDigitChars 10 digits 0)
  | minus {digits : List Char} (something : digits ≠ [])
      (proper : ∀ c ∈ digits, c.isDigit = true) :
      Numeral ('-' :: digits) (-Nat.ofDigitChars 10 digits 0)

/-- The requests in words. -/
def keywords : List String :=
  ["all", "half", "except1", "halfexcept1"]

/-- The jobs that a request without blanks around it gets on a host with the given cores, counted
in integers of any size. -/
inductive Granted (cores : Nat) (request : String) : Nat → Prop
  | single (few : cores ≤ 1) : Granted cores request 1
  | all (several : 1 < cores) (asked : request = "all") : Granted cores request cores
  | half (several : 1 < cores) (asked : request = "half") : Granted cores request (cores / 2)
  | allButOne (several : 1 < cores) (asked : request = "except1") :
      Granted cores request (cores - 1)
  | halfButOne (several : 1 < cores) (asked : request = "halfexcept1") :
      Granted cores request (max 1 (cores / 2 - 1))
  | number {count : Int} {jobs : Nat} (several : 1 < cores) (asked : Numeral request.toList count)
      (clamped : (jobs : Int) = max 1 (min count cores)) : Granted cores request jobs
  | unclear (several : 1 < cores) (keyword : request ∉ keywords)
      (number : ∀ count, ¬Numeral request.toList count) :
      Granted cores request (max 1 (cores / 2 - 1))

section Requests
variable {text : String} {cs digits : List Char} {count : Int} {cores jobs : Nat}

private theorem digitsValue?_of_digits (something : digits ≠ [])
    (proper : ∀ c ∈ digits, c.isDigit = true) :
    digitsValue? digits = some (Nat.ofDigitChars 10 digits 0) :=
  digitsValue?_eq_some_iff.mpr ⟨something, proper, rfl⟩

private theorem integer?_eq_some_iff : integer? cs = some count ↔ Numeral cs count := by
  constructor
  · intro read
    obtain ⟨digits, value, parsed, shape⟩ := integer?_eq_some read
    obtain ⟨something, proper, rfl⟩ := digitsValue?_eq_some_iff.mp parsed
    rcases shape with ⟨rfl, rfl⟩ | ⟨rfl, rfl⟩ | ⟨rfl, rfl⟩
    · exact .minus something proper
    · exact .plus something proper
    · exact .unsigned something proper
  · intro numeral
    cases numeral with
    | unsigned something proper =>
        unfold integer?
        -- a sign is no digit
        split
        next => exact absurd (proper '-' List.mem_cons_self) (by decide)
        next => exact absurd (proper '+' List.mem_cons_self) (by decide)
        next => rw [digitsValue?_of_digits something proper]; rfl
    | plus something proper => rw [integer?, digitsValue?_of_digits something proper]; rfl
    | minus something proper => rw [integer?, digitsValue?_of_digits something proper]; rfl

/-- A text that is no keyword is read as an integer. -/
theorem parse?_of_not_mem (keyword : Text.trim text ∉ keywords) :
    parse? text = (integer? (Text.trim text).toList).map exactly := by
  simp only [keywords, List.mem_cons, List.not_mem_nil, or_false, not_or] at keyword
  obtain ⟨notAll, notHalf, notAllButOne, notHalfButOne⟩ := keyword
  unfold parse?
  split
  next same => exact (notAll same).elim
  next same => exact (notHalf same).elim
  next same => exact (notAllButOne same).elim
  next same => exact (notHalfButOne same).elim
  next => rfl

/-- A keyword is no number. -/
theorem Numeral.not_mem_keywords (numeral : Numeral (Text.trim text).toList count) :
    Text.trim text ∉ keywords := by
  have letters : ∀ keyword ∈ keywords, integer? keyword.toList = none := by decide
  intro keyword
  have read := integer?_eq_some_iff.mpr numeral
  rw [letters _ keyword] at read
  cases read

private theorem halfButOne_eq (several : 1 < cores) :
    halfButOne.jobs cores = max 1 (cores / 2 - 1) := by
  rw [jobs, if_neg (not_le.mpr several)]
  split <;> omega

/-- What is granted to a request is what it is resolved to. -/
theorem Granted.resolve (granted : Granted cores (Text.trim text) jobs)
    (bounded : cores < 2 ^ 63) : resolve text cores = jobs := by
  cases granted with
  | single few => exact if_pos few
  | all several asked =>
      rw [JobRequest.resolve, parse?, asked]
      exact if_neg (not_le.mpr several)
  | half several asked =>
      rw [JobRequest.resolve, parse?, asked]
      exact if_neg (not_le.mpr several)
  | allButOne several asked =>
      rw [JobRequest.resolve, parse?, asked]
      exact if_neg (not_le.mpr several)
  | halfButOne several asked =>
      rw [JobRequest.resolve, parse?, asked]
      exact halfButOne_eq several
  | @number count _ several asked clamped =>
      rw [JobRequest.resolve, parse?_of_not_mem asked.not_mem_keywords,
        integer?_eq_some_iff.mpr asked]
      have value := clamped_eq count several bounded
      rw [← clamped] at value
      exact (if_neg (not_le.mpr several)).trans (Int.ofNat_inj.mp value)
  | unclear several keyword number =>
      have none : integer? (Text.trim text).toList = none :=
        Option.eq_none_iff_forall_ne_some.mpr fun count read =>
          number count (integer?_eq_some_iff.mp read)
      rw [JobRequest.resolve, parse?_of_not_mem keyword, none]
      exact halfButOne_eq several

/-- Every request is granted some jobs. -/
theorem exists_granted (cores : Nat) (request : String) : ∃ jobs, Granted cores request jobs := by
  by_cases few : cores ≤ 1
  · exact ⟨1, .single few⟩
  have several := not_le.mp few
  by_cases keyword : request ∈ keywords
  · simp only [keywords, List.mem_cons, List.not_mem_nil, or_false] at keyword
    rcases keyword with asked | asked | asked | asked
    · exact ⟨_, .all several asked⟩
    · exact ⟨_, .half several asked⟩
    · exact ⟨_, .allButOne several asked⟩
    · exact ⟨_, .halfButOne several asked⟩
  by_cases number : ∃ count, Numeral request.toList count
  · obtain ⟨count, asked⟩ := number
    exact ⟨_, .number several asked (Int.toNat_of_nonneg (by omega))⟩
  · exact ⟨_, .unclear several keyword (not_exists.mp number)⟩

/-- **A request is resolved in exact arithmetic**, however large its number is. The result is never
less than one and never more than the cores, and it never decreases when there are more cores. -/
theorem resolve_exact (text : String) (bounded : cores < 2 ^ 63) :
    (∀ jobs, resolve text cores = jobs ↔ Granted cores (Text.trim text) jobs) ∧
      1 ≤ resolve text cores ∧ resolve text cores ≤ max 1 cores ∧
      ∀ more, cores ≤ more → more < 2 ^ 63 → resolve text cores ≤ resolve text more := by
  obtain ⟨most, least⟩ := jobs_bounds ((parse? text).getD fallback) bounded
  refine ⟨fun jobs => ⟨fun same => ?_, fun granted => granted.resolve bounded⟩, most, least,
    fun more grows further => jobs_mono _ grows further⟩
  obtain ⟨other, granted⟩ := exists_granted cores (Text.trim text)
  rwa [← same, granted.resolve bounded]

/-- A number that no word holds asks for all the cores, as any number beyond them. -/
theorem resolve_exact_large :
    resolve " +0099999999999999999999" 8 = 8 ∧
      resolve " +0099999999999999999999" 8 ≤ resolve " +0099999999999999999999" 12 := by
  have letters : (Text.trim " +0099999999999999999999").toList =
      '+' :: "0099999999999999999999".toList := by decide
  have numeral : Numeral (Text.trim " +0099999999999999999999").toList
      (Nat.ofDigitChars 10 "0099999999999999999999".toList 0) := by
    rw [letters]
    exact .plus (by decide) (List.all_eq_true.mp (by decide))
  obtain ⟨exact, -, -, grows⟩ := resolve_exact " +0099999999999999999999" (by omega : 8 < 2 ^ 63)
  exact ⟨(exact 8).mpr (.number (by decide) numeral (by decide)), grows 12 (by omega) (by omega)⟩

end Requests
end BuildWarden.JobRequest
