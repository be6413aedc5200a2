import BuildWarden.Command.BuildArguments
import BuildWarden.Proofs.Build.Digits
import BuildWarden.Proofs.Text.Blank
import BuildWarden.Settings.Configuration
import Mathlib.Algebra.Ring.Int.Defs
/-!
# Job requests in the environment

A job request may be given as an argument, which is taken as it is, or in the environment, where a
value is read with the syntax of the environment first. The two agree on keywords and on integers
that do not fit 64 bits, which stay texts. An integer that fits becomes a number there, and a number
is refused where a text is expected: such a request stops the program instead of being used.
-/

namespace BuildWarden

namespace JobRequest
variable {text : String} {request : JobRequest} {digits cs : List Char} {value : Nat} {count : Int}

/-- A request that the environment reads as a number of 64 bits. -/
def IsNumber (request : JobRequest) : Prop :=
  ∃ count, request = .exactly count ∧ -(2 : Int) ^ 63 ≤ count ∧ count < 2 ^ 64

private theorem digitsValue?_eq_some (read : digitsValue? digits = some value) :
    digits ≠ [] ∧ (∀ c ∈ digits, c.isDigit = true) ∧ Toml.decimalValue digits = value := by
  rw [Toml.decimalValue_eq]
  exact digitsValue?_eq_some_iff.mp read

/-- A request that is understood is a keyword or an integer. -/
theorem parse?_eq_some (understood : parse? text = some request) :
    (∃ keyword ∈ ["all", "half", "except1", "halfexcept1"],
        Text.trimChars text.toList = keyword.toList ∧ ∀ count, request ≠ .exactly count) ∨
      ∃ count, integer? (Text.trimChars text.toList) = some count ∧ request = .exactly count := by
  have letters : (Text.trim text).toList = Text.trimChars text.toList := by simp [Text.trim]
  rw [← letters]
  unfold parse? at understood
  split at understood
  next same => exact .inl ⟨"all", by simp, by rw [same], by cases understood; simp⟩
  next same => exact .inl ⟨"half", by simp, by rw [same], by cases understood; simp⟩
  next same => exact .inl ⟨"except1", by simp, by rw [same], by cases understood; simp⟩
  next same => exact .inl ⟨"halfexcept1", by simp, by rw [same], by cases understood; simp⟩
  next =>
    obtain ⟨count, read, rfl⟩ := Option.map_eq_some_iff.mp understood
    exact .inr ⟨count, read, rfl⟩

end JobRequest

namespace Settings.Environment
variable {text : String} {request : JobRequest} {digits cs : List Char} {count : Int}

/-- Characters with which a bare value can start. -/
def opensBare (c : Char) : Bool :=
  !(['t', 'f', '"', '\''].contains c) && !endsBare c

private theorem isBlank_of_isGap {c : Char} (gap : isGap c = true) : Text.isBlank c = true := by
  simp only [isGap, List.contains_eq_mem, decide_eq_true_eq, List.mem_cons, List.not_mem_nil,
    or_false] at gap
  rcases gap with rfl | rfl | rfl | rfl | rfl <;> decide

/-- A value without brackets, braces and commas that starts like a bare one is bare. -/
theorem value?_bare (fuel : Nat) (start : ∀ c rest, skipGaps cs = c :: rest → opensBare c = true)
    (within : ∀ c ∈ cs, endsBare c = false) :
    value? (fuel + 1) cs = some (given (bare (Text.trimChars cs)), []) := by
  have inside : ∀ c ∈ skipGaps cs, (!endsBare c) = true := fun c member => by
    rw [within c ((List.dropWhile_sublist _).subset member)]
    rfl
  have trimmed : Text.trimChars (skipGaps cs) = Text.trimChars cs :=
    Text.trimChars_dropWhile (fun _ => isBlank_of_isGap) cs
  unfold value?
  generalize skipGaps cs = rest at *
  split
  iterate 6 exact absurd (start _ _ rfl) (by decide)
  simp only [List.takeWhile_eq_self_iff.mpr inside, List.dropWhile_eq_nil_iff.mpr inside, trimmed]

private theorem read_bare (start : ∀ c rest, skipGaps text.toList = c :: rest → opensBare c = true)
    (within : ∀ c ∈ text.toList, endsBare c = false) :
    read text = given (bare (Text.trimChars text.toList)) := by
  rw [read, value?_bare _ start within]

/-- How a bare value is read that is nothing but digits behind a sign. -/
theorem bare_digits {negative : Bool} {value : Nat} (sign : signed cs = (negative, digits))
    (parsed : JobRequest.digitsValue? digits = some value) (point : '.' ∉ cs) :
    bare cs = ((if cs.head? = some '-' then
        if value ≤ UInt64.size / 2 then some (.integer (-value)) else none
      else if !negative && value < UInt64.size then some (.natural value)
      else none).getD (.text (String.ofList cs)) : Scalar) := by
  obtain ⟨something, proper, same⟩ := JobRequest.digitsValue?_eq_some parsed
  have all : digits.any (!·.isDigit) = false := by simpa using proper
  simp only [bare, sign, all, same, List.contains_eq_mem, point, decide_false,
    Bool.false_eq_true, ↓reduceIte, Option.none_or, List.isEmpty_iff, something, Bool.or_false]

private theorem bare_natural {value : Nat} (sign : signed cs = (false, digits))
    (parsed : JobRequest.digitsValue? digits = some value) (point : '.' ∉ cs)
    (unsigned : cs.head? ≠ some '-') :
    bare cs = if value < UInt64.size then .natural value else .text (String.ofList cs) := by
  rw [bare_digits sign parsed point, if_neg unsigned]
  by_cases fits : value < UInt64.size <;> simp [fits]

/-- Integers that fit 64 bits are numbers, and the others are texts. -/
theorem bare_integer (integer : JobRequest.integer? cs = some count) :
    (-(2 : Int) ^ 63 ≤ count ∧ count < 2 ^ 64 →
      bare cs = .integer count ∨ bare cs = .natural count.toNat) ∧
    (¬(-(2 : Int) ^ 63 ≤ count ∧ count < 2 ^ 64) → bare cs = .text (String.ofList cs)) := by
  obtain ⟨digits, value, parsed, shape⟩ := JobRequest.integer?_eq_some integer
  obtain ⟨something, proper, -⟩ := JobRequest.digitsValue?_eq_some parsed
  have point : '.' ∉ digits := fun member => absurd (proper _ member) (by decide)
  have size : UInt64.size = 2 ^ 64 := rfl
  have natural (read : bare cs = if value < UInt64.size then .natural value
      else .text (String.ofList cs)) (same : count = value) :
      (-(2 : Int) ^ 63 ≤ count ∧ count < 2 ^ 64 →
        bare cs = .integer count ∨ bare cs = .natural count.toNat) ∧
      (¬(-(2 : Int) ^ 63 ≤ count ∧ count < 2 ^ 64) → bare cs = .text (String.ofList cs)) := by
    by_cases fits : value < UInt64.size
    · rw [if_pos fits] at read
      refine ⟨fun _ => .inr ?_, fun outside => by omega⟩
      rw [read, same, Int.toNat_natCast]
    · rw [if_neg fits] at read
      exact ⟨fun inside => by omega, fun _ => read⟩
  rcases shape with ⟨rfl, rfl⟩ | ⟨rfl, rfl⟩ | ⟨rfl, rfl⟩
  · have read : bare ('-' :: digits) = _ := bare_digits rfl parsed (by simpa using point)
    rw [List.head?_cons, if_pos rfl] at read
    by_cases fits : value ≤ UInt64.size / 2
    · rw [if_pos fits] at read
      exact ⟨fun _ => .inl read, fun outside => by omega⟩
    · rw [if_neg fits] at read
      exact ⟨fun inside => by omega, fun _ => read⟩
  · exact natural (bare_natural rfl parsed (by simpa using point) (by simp)) rfl
  · obtain ⟨first, rest, rfl⟩ := List.exists_cons_of_ne_nil something
    have digit : first.isDigit = true := proper first (by simp)
    have minus : first ≠ '-' := fun same => absurd (same ▸ digit) (by decide)
    have plus : first ≠ '+' := fun same => absurd (same ▸ digit) (by decide)
    have plain := bare_natural (by simp [signed, minus, plus]) parsed point (by simpa using minus)
    exact natural plain rfl

/-- A class of characters that has none of the special ones opens bare values. -/
theorem opensBare_of {p : Char → Bool}
    (none : ['t', 'f', '"', '\'', ',', '[', ']', '\x7b', '\x7d'].any p = false) {c : Char}
    (holds : p c = true) : opensBare c = true := by
  by_contra closed
  have special : c ∈ ['t', 'f', '"', '\'', ',', '[', ']', '\x7b', '\x7d'] := by
    simp only [opensBare, endsBare, List.contains_eq_mem, Bool.and_eq_true, Bool.not_eq_true',
      decide_eq_false_iff_not, not_and_or, not_not] at closed
    exact List.mem_append.mpr closed
  exact List.any_eq_false.mp none c special holds

private theorem opensBare_of_isBlank {c : Char}
    (blank : Text.isBlank c = true) : opensBare c = true :=
  opensBare_of (by decide) blank

private theorem opensBare_of_isDigit {c : Char} (digit : c.isDigit = true) : opensBare c = true :=
  opensBare_of (by decide) digit

private theorem endsBare_of_opensBare {c : Char}
    (opens : opensBare c = true) : endsBare c = false := by
  unfold opensBare at opens
  simpa using (Bool.and_eq_true_iff.mp opens).2

/-- A request consists of characters of bare values, the first of which opens one. -/
theorem request_letters (understood : JobRequest.parse? text = some request) :
    ∃ first rest, Text.trimChars text.toList = first :: rest ∧ opensBare first = true ∧
      ∀ c ∈ first :: rest, endsBare c = false := by
  rcases JobRequest.parse?_eq_some understood with ⟨keyword, known, letters, -⟩ | ⟨count, read, -⟩
  · rw [letters]
    simp only [List.mem_cons, List.not_mem_nil, or_false] at known
    rcases known with rfl | rfl | rfl | rfl <;>
      exact ⟨_, _, rfl, by decide, fun c member =>
        Bool.eq_false_iff.mpr (List.any_eq_false.mp (by decide) c member)⟩
  · obtain ⟨digits, value, parsed, shape⟩ := JobRequest.integer?_eq_some read
    obtain ⟨something, proper, -⟩ := JobRequest.digitsValue?_eq_some parsed
    have bare : ∀ c ∈ digits, endsBare c = false := fun c member =>
      endsBare_of_opensBare (opensBare_of_isDigit (proper c member))
    rcases shape with ⟨same, -⟩ | ⟨same, -⟩ | ⟨same, -⟩
    · exact ⟨'-', digits, same, by decide, List.forall_mem_cons.mpr ⟨by decide, bare⟩⟩
    · exact ⟨'+', digits, same, by decide, List.forall_mem_cons.mpr ⟨by decide, bare⟩⟩
    · obtain ⟨first, rest, rfl⟩ := List.exists_cons_of_ne_nil something
      exact ⟨first, rest, same, opensBare_of_isDigit (proper first (by simp)), bare⟩

/-- The first character behind the gaps is a blank, or the first one of the trimmed text. -/
theorem opensBare_skipGaps {front rest back : List Char} {first : Char}
    (blank : ∀ c ∈ front, Text.isBlank c = true) (solid : Text.isBlank first = false)
    (opens : opensBare first = true) {c : Char} {others : List Char}
    (starts : skipGaps (front ++ first :: rest ++ back) = c :: others) : opensBare c = true := by
  induction front with
  | nil =>
      have kept : ¬isGap first = true := fun gap => by simp [isBlank_of_isGap gap] at solid
      rw [skipGaps, List.nil_append, List.cons_append, List.dropWhile_cons_of_neg kept] at starts
      cases starts
      exact opens
  | cons gap front ih =>
      unfold skipGaps at starts ih
      rw [List.cons_append, List.cons_append] at starts
      by_cases dropped : isGap gap = true
      · rw [List.dropWhile_cons_of_pos dropped] at starts
        exact ih (fun c member => blank c (by simp [member])) starts
      · rw [List.dropWhile_cons_of_neg dropped] at starts
        obtain ⟨rfl, -⟩ := List.cons.inj starts
        exact opensBare_of_isBlank (blank gap (by simp))

/-- **What a job request becomes in the environment.** -/
theorem read_request (understood : JobRequest.parse? text = some request) :
    (request.IsNumber → ∃ count, read text = given (.integer count) ∨
      read text = given (.natural count.toNat)) ∧
    (¬request.IsNumber → read text = given (.text (Text.trim text))) := by
  obtain ⟨front, back, whole, blankFront, blankBack⟩ := Text.exists_blanks text.toList
  obtain ⟨first, rest, core, opens, within⟩ := request_letters understood
  have all : read text = given (bare (Text.trimChars text.toList)) := by
    refine read_bare (fun c others starts => ?_) fun c member => ?_
    · rw [whole, core] at starts
      exact opensBare_skipGaps blankFront (Text.isBlank_head_trimChars core) opens starts
    · rw [whole, core] at member
      rcases List.mem_append.mp member with early | late
      · rcases List.mem_append.mp early with earlier | inside
        · exact endsBare_of_opensBare (opensBare_of_isBlank (blankFront c earlier))
        · exact within c inside
      · exact endsBare_of_opensBare (opensBare_of_isBlank (blankBack c late))
  rw [all]
  rcases JobRequest.parse?_eq_some understood with
    ⟨keyword, known, letters, word⟩ | ⟨count, integer, rfl⟩
  · have text : bare (Text.trimChars text.toList) = .text (Text.trim text) := by
      rw [Text.trim, letters]
      simp only [List.mem_cons, List.not_mem_nil, or_false] at known
      rcases known with rfl | rfl | rfl | rfl <;> rfl
    refine ⟨?_, fun _ => by rw [text]⟩
    rintro ⟨count, same, -⟩
    exact (word count same).elim
  · obtain ⟨number, other⟩ := bare_integer integer
    refine ⟨?_, fun outside => ?_⟩
    · rintro ⟨_, same, inside⟩
      cases same
      exact ⟨count, (number inside).imp (congrArg given) (congrArg given)⟩
    · rw [other fun inside => outside ⟨count, rfl, inside⟩, Text.trim]

end Settings.Environment

/-- Validation trims the request for jobs; it may have been trimmed before. -/
theorem BuildRecord.ofOptions_trim_jobs (options : BuildOptions) (platform : Platform) :
    ofOptions { options with jobs := Text.trim options.jobs } platform =
      ofOptions options platform := by
  simp only [ofOptions, Text.trim_trim]
  rfl

namespace Configuration
open Settings Environment
variable {disk : Disk} {base text : String} {request : JobRequest}

/-- The settings of a request for jobs that is given in the environment. -/
theorem settings_jobs {value : Scalar} (given : read text = given value) :
    settings [("ACT_BUILD__JOBS", text)] =
      Table.empty.merge (.nest ["build", "jobs"] .environment (.scalar .environment value)) := by
  have named : path? "ACT_BUILD__JOBS" = some ["build", "jobs"] := by decide
  simp only [settings, List.foldl_cons, List.foldl_nil, named, given]
  rfl

/-- Without files, the layers are those that come with the program and the environment. -/
theorem layers_of_absent (absent : searchFrom? disk (Path.join base projectFile) = none)
    (environment : List (String × String)) :
    layers disk environment base none = .ok (builtin.merge (settings environment)) := by
  have nothing : fileSettings disk (Path.join base projectFile) = .ok .empty := by
    unfold fileSettings
    rw [absent]
  simp only [layers, nothing]
  rfl

/-- **When the environment and the command line agree on a job request**: a keyword, and an integer
that does not fit 64 bits, gives the same record either way. An integer that fits is refused in the
environment, as a number where a text is expected. -/
theorem jobs_variable_agrees (absent : searchFrom? disk (Path.join base projectFile) = none)
    (understood : JobRequest.parse? text = some request) :
    ∃ unset, load disk [] base none = .ok unset ∧
      (request.IsNumber → ∃ value, read text = given value ∧
        load disk [("ACT_BUILD__JOBS", text)] base none =
          .error (.mismatch ["build", "jobs"] .environment value.found "a string")) ∧
      (¬request.IsNumber → ∃ set, load disk [("ACT_BUILD__JOBS", text)] base none = .ok set ∧
        set = { unset with build := set.build } ∧
        ∀ action arguments verbose dryRun platform, arguments.jobs = none →
          Command.resolve action arguments verbose dryRun set.build platform =
            Command.resolve action { arguments with jobs := some text } verbose dryRun
              unset.build platform) := by
  obtain ⟨number, other⟩ := read_request understood
  refine ⟨_, by rw [load, layers_of_absent absent]; rfl, fun fits => ?_, fun exceeds => ?_⟩
  · obtain ⟨count, integer | natural⟩ := number fits
    · refine ⟨_, integer, ?_⟩
      rw [load, layers_of_absent absent, settings_jobs integer]
      rfl
    · refine ⟨_, natural, ?_⟩
      rw [load, layers_of_absent absent, settings_jobs natural]
      rfl
  · refine ⟨_, by rw [load, layers_of_absent absent, settings_jobs (other exceeds)]; rfl, rfl, ?_⟩
    intro action arguments verbose dryRun platform none
    unfold Command.resolve
    rw [← BuildRecord.ofOptions_trim_jobs
      (Command.resolvedOptions action { arguments with jobs := some text } verbose dryRun _)]
    congr 1
    simp [Command.resolvedOptions, Command.BuildArguments.apply, none]

/-- Without any file, `half` is the same request either way, and `4` is refused in the
environment. -/
theorem jobs_variable_agrees_half_not_four :
    let disk : Disk := { tree := .empty }
    ∃ unset set value, load disk [] "." none = .ok unset ∧
      load disk [("ACT_BUILD__JOBS", "half")] "." none = .ok set ∧
      Command.resolve .lib {} false false set.build .unix =
        Command.resolve .lib { jobs := some "half" } false false unset.build .unix ∧
      load disk [("ACT_BUILD__JOBS", "4")] "." none =
        .error (.mismatch ["build", "jobs"] .environment value "a string") := by
  intro disk
  have named : Path.join "." projectFile = "./act.toml" := by decide
  have steps : Disk.steps "./act.toml" = [".", "act.toml"] := by decide
  have relative : Path.isAbsolute "./act.toml" = false := by decide
  have absent : searchFrom? disk (Path.join "." projectFile) = none := by
    simp [disk, named, searchFrom?, relative, ancestors, Disk.isFileIn, Disk.locateFrom, steps,
      Disk.follow, Tree.at?, Tree.find?, Tree.hasDirAt]
  have half : JobRequest.parse? "half" = some .half := by decide
  have four : JobRequest.parse? "4" = some (.exactly 4) := by decide
  obtain ⟨unset, loaded, -, agrees⟩ := jobs_variable_agrees absent half
  obtain ⟨unset', loaded', refused, -⟩ := jobs_variable_agrees absent four
  obtain ⟨set, given, -, same⟩ := agrees (by rintro ⟨count, same, -⟩; cases same)
  obtain ⟨value, -, mismatch⟩ := refused ⟨4, rfl, by decide, by decide⟩
  exact ⟨unset, set, value.found, loaded, given, same .lib {} false false .unix rfl, mismatch⟩

end Configuration
end BuildWarden
