import BuildWarden.Command.Invocation
import BuildWarden.Proofs.Text.Slice
import Mathlib.Data.List.Forall2
/-!
# Reading written arguments

Each argument of a build that is given can be written in one or two ways. Reading goes argument by
argument: what was read so far is settled, or an option holds its value back until the next one, and
in both cases one more argument adds exactly itself, however it is written. A switch without a value
takes no word.
-/

namespace BuildWarden.Command

/-- A word that does not look like an option. -/
def IsBare (word : String) : Prop :=
  word.toList.head? ≠ some '-'

instance : DecidablePred IsBare := fun word =>
  inferInstanceAs (Decidable (word.toList.head? ≠ some '-'))

/-- An argument of a build that is given. -/
inductive Given where
  | target (word : String)
  | text (name value : String)
  | switch (name : String) (on : Bool)
  deriving DecidableEq, Repr

namespace Given

/-- The word for a truth value. -/
def truth (on : Bool) : String :=
  if on then "true" else "false"

/-- The words that an argument is written as. A switch that is on needs no value, and the value of
an option may stand on its own unless it looks like an option. -/
inductive WrittenAs : Given → List String → Prop
  | target {word : String} : IsBare word → WrittenAs (.target word) [word]
  | attached (name value : String) : WrittenAs (.text name value) ["--" ++ name ++ "=" ++ value]
  | apart (name : String) {value : String} :
      IsBare value → WrittenAs (.text name value) ["--" ++ name, value]
  | stated (name : String) (on : Bool) :
      WrittenAs (.switch name on) ["--" ++ name ++ "=" ++ truth on]
  | on (name : String) : WrittenAs (.switch name true) ["--" ++ name]

/-- The option that an argument sets, with its value as a text. -/
def option? : Given → Option (String × String)
  | target _ => none
  | text name value => some (name, value)
  | switch name on => some (name, truth on)

/-- The plain word of an argument. -/
def word? : Given → Option String
  | target word => some word
  | text _ _ | switch _ _ => none

end Given

namespace BuildArguments

/-- The arguments with a text for a value. -/
def texts (arguments : BuildArguments) : List (String × Option String) :=
  [("mode", arguments.mode), ("modules", arguments.modules), ("jobs", arguments.jobs),
    ("tests", arguments.tests), ("compiler", arguments.compiler),
    ("compiler-dir", arguments.compilerDir), ("destination", arguments.destination),
    ("threads", arguments.threads), ("python3lib", arguments.pythonLibrary),
    ("python3include", arguments.pythonInclude)]

/-- The arguments that are switches. -/
def switches (arguments : BuildArguments) : List (String × Option Bool) :=
  [("with-sql", arguments.withSql), ("static-lib", arguments.staticLib),
    ("coverage", arguments.coverage), ("profiling", arguments.profiling),
    ("fixed-seed", arguments.fixedSeed)]

/-- The arguments that are given. -/
def given (arguments : BuildArguments) : List Given :=
  arguments.target.toList.map .target ++
    arguments.texts.filterMap (fun entry => entry.2.map (.text entry.1)) ++
    arguments.switches.filterMap fun entry => entry.2.map (.switch entry.1)

end BuildArguments

/-- The grammar of the words behind the name of a build command. -/
def buildGrammar : Grammar :=
  Invocation.inner BuildArguments.rules 1

/-! ### Words -/

section Words
variable {reading : Reading} {name word : String}

section Named
variable (ready : reading.plain = false) (named : name ≠ "") (plain : '=' ∉ name.toList)
include ready named plain

private theorem next_attached (value : String) :
    reading.next buildGrammar ("--" ++ name ++ "=" ++ value) =
      reading.long buildGrammar name (some value) := by
  obtain ⟨c, rest, letters⟩ := List.exists_cons_of_ne_nil (String.toList_eq_nil_iff.not.mpr named)
  have shape : ("--" ++ name ++ "=" ++ value).toList =
      '-' :: '-' :: c :: (rest ++ '=' :: value.toList) := by simp [letters]
  have cut := Text.cutAt?_append plain value.toList
  rw [letters, List.cons_append] at cut
  rw [Reading.next, ready, shape]
  simp only [Bool.false_eq_true, ↓reduceIte, cut, ← letters, String.ofList_toList]

private theorem next_bare :
    reading.next buildGrammar ("--" ++ name) = reading.long buildGrammar name none := by
  obtain ⟨c, rest, letters⟩ := List.exists_cons_of_ne_nil (String.toList_eq_nil_iff.not.mpr named)
  have shape : ("--" ++ name).toList = '-' :: '-' :: c :: rest := by simp [letters]
  have cut : Text.cutAt? '=' (c :: rest) = none := by
    rw [← letters]
    exact Text.cutAt?_eq_none.mpr plain
  rw [Reading.next, ready, shape]
  simp only [Bool.false_eq_true, ↓reduceIte, cut]
  rw [← letters, String.ofList_toList]

end Named

/-- A word that does not look like an option is a value or a plain word. -/
theorem next_word (ready : reading.plain = false) (bare : IsBare word) :
    reading.next buildGrammar word =
      match reading.pending with
      | some (rule, none) => .ok { reading with pending := some (rule, some word) }
      | _ => reading.word buildGrammar word := by
  rw [Reading.next, ready]
  simp only [Bool.false_eq_true, ↓reduceIte]
  split
  next same => simp [IsBare, same] at bare
  next same => simp [IsBare, same] at bare
  next same => simp [IsBare, same] at bare
  next => rfl

end Words

/-! ### The options of a build -/

/-- What an option of a build takes, by its name. -/
def takes? (name : String) : Option Takes :=
  (buildGrammar.options.find? (·.name == name)).map OptionRule.takes

private theorem exists_rule {name : String} {takes : Takes} (known : takes? name = some takes) :
    ∃ rule : OptionRule, rule.name = name ∧ rule.takes = takes ∧
      buildGrammar.options.find? (·.name == name) = some rule := by
  obtain ⟨rule, found, same⟩ := Option.map_eq_some_iff.mp known
  refine ⟨rule, ?_, same, found⟩
  simpa using List.find?_some found

/-- An argument that a build has: its option takes what the argument gives. -/
def Given.Known : Given → Prop
  | target _ => True
  | text name _ => takes? name = some (.value none) ∧ name ≠ "" ∧ '=' ∉ name.toList
  | switch name _ => takes? name = some .switch ∧ name ≠ "" ∧ '=' ∉ name.toList

private theorem takes_text {arguments : BuildArguments} {name : String}
    (known : name ∈ arguments.texts.map Prod.fst) :
    takes? name = some (.value none) ∧ name ≠ "" ∧ '=' ∉ name.toList := by
  have texts : ∀ name ∈ (BuildArguments.texts {}).map Prod.fst,
      takes? name = some (.value none) ∧ name ≠ "" ∧ '=' ∉ name.toList := by decide
  exact texts name known

/-- A switch that arguments can name takes no value. -/
theorem takes_switch {arguments : BuildArguments} {name : String}
    (known : name ∈ arguments.switches.map Prod.fst) :
    takes? name = some .switch ∧ name ≠ "" ∧ '=' ∉ name.toList := by
  have switches : ∀ name ∈ (BuildArguments.switches {}).map Prod.fst,
      takes? name = some .switch ∧ name ≠ "" ∧ '=' ∉ name.toList := by decide
  exact switches name known

/-- All that arguments are written as is known to the reader. -/
theorem known_of_mem_given {arguments : BuildArguments} {argument : Given}
    (member : argument ∈ arguments.given) : argument.Known := by
  unfold BuildArguments.given at member
  rw [List.mem_append, List.mem_append, List.mem_map, List.mem_filterMap, List.mem_filterMap]
    at member
  rcases member with (⟨word, -, rfl⟩ | ⟨⟨name, value⟩, member, same⟩) | ⟨⟨name, on⟩, member, same⟩
  · trivial
  · obtain ⟨value, -, rfl⟩ := Option.map_eq_some_iff.mp same
    exact takes_text (List.mem_map_of_mem member)
  · obtain ⟨on, -, rfl⟩ := Option.map_eq_some_iff.mp same
    exact takes_switch (List.mem_map_of_mem member)

/-! ### Settled readings -/

/-- What has been read comes to a settled reading, though the last option may hold its value
back. -/
structure SettlesAs (reading settled : Reading) : Prop where
  settles : reading.settle = .ok settled
  free : reading.waits = false
  ready : reading.plain = false
  words : reading.words = settled.words
  done : settled.pending = none
  readyThen : settled.plain = false

/-- A reading that an argument can be added to: it has no other one for the same option, and no
other plain word. -/
def Given.Fits (argument : Given) (settled : Reading) : Prop :=
  (∀ option ∈ argument.option?, option.1 ∉ settled.options.map Prod.fst) ∧
    (argument.word?.isSome → settled.words = [])

/-- A reading with further arguments. -/
def Reading.including (settled : Reading) (arguments : List Given) : Reading :=
  { settled with
    options := settled.options ++ arguments.filterMap Given.option?
    words := settled.words ++ arguments.filterMap Given.word? }

section Take
variable {reading settled : Reading} {rule : OptionRule} {value : String}
  (fresh : rule.name ∉ settled.options.map Prod.fst)
include fresh

private theorem any_eq_false : settled.options.any (·.1 == rule.name) = false := by
  rw [List.any_eq_false]
  intro option member same
  exact fresh (List.mem_map.mpr ⟨option, member, by simpa using same⟩)

private theorem take_text (takes : rule.takes = .value none) (value : String) :
    settled.take rule value =
      .ok (settled.including [.text rule.name value]) := by
  rw [Reading.take, takes]
  simp only [any_eq_false fresh, Bool.false_eq_true, ↓reduceIte]
  simp [Reading.including, Given.option?, Given.word?]

private theorem take_switch (takes : rule.takes = .switch) (on : Bool) :
    settled.take rule (Given.truth on) =
      .ok (settled.including [.switch rule.name on]) := by
  have known : ["true", "false"].contains (Given.truth on) = true := by cases on <;> decide
  rw [Reading.take, takes]
  simp only [any_eq_false fresh, Bool.false_eq_true, ↓reduceIte]
  simp only [bind, Except.bind, known, ↓reduceIte]
  simp [Reading.including, Given.option?, Given.word?]

end Take

/-- A reading at which nothing is left open is settled. -/
theorem settlesAs_self {settled : Reading} (done : settled.pending = none)
    (ready : settled.plain = false) : SettlesAs settled settled := by
  refine ⟨?_, ?_, ready, rfl, done, ready⟩
  · rw [Reading.settle, done]
  · rw [Reading.waits, done]

private theorem scan_cons (reading : Reading) (word : String) (rest : List String) :
    buildGrammar.scan reading (word :: rest) =
      (reading.next buildGrammar word).bind fun next => buildGrammar.scan next rest := by
  rw [Grammar.scan]
  simp only [buildGrammar, Invocation.inner, List.contains_nil, Bool.and_false, Bool.false_eq_true,
    ↓reduceIte]
  rfl

section Step
variable {reading settled : Reading} (stands : SettlesAs reading settled)
include stands

private theorem SettlesAs.including (argument : Given) :
    SettlesAs (settled.including [argument]) (settled.including [argument]) :=
  settlesAs_self stands.done stands.readyThen

/-- A plain word settles what is held back. -/
theorem next_target {word : String} (bare : IsBare word) (first : settled.words = []) :
    reading.next buildGrammar word = .ok (settled.including [.target word]) := by
  have room : reading.words.length < buildGrammar.words := by
    rw [stands.words, first]
    exact Nat.one_pos
  have plain : reading.word buildGrammar word = .ok (settled.including [.target word]) := by
    rw [Reading.word, if_pos room, stands.settles]
    simp [bind, Except.bind, pure, Except.pure, Reading.including, Given.option?, Given.word?]
  rw [next_word stands.ready bare]
  split
  next waiting =>
    have free := stands.free
    simp [Reading.waits, waiting] at free
  next => exact plain

section Text
variable {name : String} (takes : takes? name = some (.value none))
  (fresh : name ∉ settled.options.map Prod.fst)
include takes fresh

private theorem long_attached (value : String) :
    reading.long buildGrammar name (some value) =
      .ok (settled.including [.text name value]) := by
  obtain ⟨rule, rfl, takes, found⟩ := exists_rule takes
  rw [Reading.long, found]
  simp only [takes]
  rw [Reading.takeNext, stands.settles]
  exact take_text fresh takes value

/-- An option waits for its value, and then holds it back. -/
theorem exists_awaiting (plain : name ≠ "" ∧ '=' ∉ name.toList) {value : String}
    (bare : IsBare value) :
    ∃ waiting next, reading.next buildGrammar ("--" ++ name) = .ok waiting ∧
      waiting.next buildGrammar value = .ok next ∧
        SettlesAs next (settled.including [.text name value]) := by
  obtain ⟨rule, rfl, takes, found⟩ := exists_rule takes
  have awaits : reading.next buildGrammar ("--" ++ rule.name) =
      .ok { settled with pending := some (rule, none) } := by
    rw [next_bare stands.ready plain.1 plain.2, Reading.long, found]
    simp only [takes]
    rw [Reading.await, stands.settles]
    rfl
  refine ⟨_, { settled with pending := some (rule, some value) }, awaits, ?_, ?_⟩
  · have ready : Reading.plain { settled with pending := some (rule, none) } = false :=
      stands.readyThen
    exact next_word ready bare
  · have same : { settled with pending := none } = settled := by
      rw [← stands.done]
    refine ⟨?_, rfl, stands.readyThen, ?_, stands.done, stands.readyThen⟩
    · rw [Reading.settle]
      dsimp only
      rw [same]
      exact take_text fresh takes value
    · simp [Reading.including, Given.word?]

end Text

section Switch
variable {name : String} (takes : takes? name = some .switch)
  (fresh : name ∉ settled.options.map Prod.fst)
include takes fresh

private theorem long_stated (on : Bool) :
    reading.long buildGrammar name (some (Given.truth on)) =
      .ok (settled.including [.switch name on]) := by
  obtain ⟨rule, rfl, takes, found⟩ := exists_rule takes
  rw [Reading.long, found]
  simp only [takes]
  rw [Reading.takeNext, stands.settles]
  exact take_switch fresh takes on

private theorem long_on :
    reading.long buildGrammar name none = .ok (settled.including [.switch name true]) := by
  obtain ⟨rule, rfl, takes, found⟩ := exists_rule takes
  rw [Reading.long, found]
  simp only [takes]
  rw [Reading.takeNext, stands.settles]
  exact take_switch fresh takes true

end Switch

/-- **One more argument adds exactly itself**, however it is written. -/
theorem exists_scan_group {argument : Given} {words : List String}
    (written : argument.WrittenAs words) (known : argument.Known) (fits : argument.Fits settled) :
    ∃ next, (∀ rest, buildGrammar.scan reading (words ++ rest) = buildGrammar.scan next rest) ∧
      SettlesAs next (settled.including [argument]) := by
  have single {word : String} {next : Reading} (reads : reading.next buildGrammar word = .ok next)
      (rest : List String) :
      buildGrammar.scan reading ([word] ++ rest) = buildGrammar.scan next rest := by
    rw [List.singleton_append, scan_cons, reads]
    rfl
  cases written with
  | @target word bare =>
      have first : settled.words = [] := fits.2 rfl
      exact ⟨_, single (next_target stands bare first), stands.including _⟩
  | attached name value =>
      obtain ⟨takes, named, plain⟩ := known
      have fresh := fits.1 (name, value) rfl
      refine ⟨_, single ?_, stands.including _⟩
      rw [next_attached stands.ready named plain, long_attached stands takes fresh]
  | @apart name value bare =>
      obtain ⟨takes, plain⟩ := known
      have fresh := fits.1 (name, value) rfl
      obtain ⟨waiting, next, awaits, reads, settles⟩ :=
        exists_awaiting stands takes fresh plain bare
      refine ⟨next, fun rest => ?_, settles⟩
      rw [List.cons_append, scan_cons, awaits]
      exact (scan_cons ..).trans (by rw [reads]; rfl)
  | stated name on =>
      obtain ⟨takes, named, plain⟩ := known
      have fresh := fits.1 (name, Given.truth on) rfl
      refine ⟨_, single ?_, stands.including _⟩
      rw [next_attached stands.ready named plain, long_stated stands takes fresh]
  | on name =>
      obtain ⟨takes, named, plain⟩ := known
      have fresh := fits.1 (name, Given.truth true) rfl
      refine ⟨_, single ?_, stands.including _⟩
      rw [next_bare stands.ready named plain, long_on stands takes fresh]

end Step

/-! ### Switches without a value -/

section Waiting
variable {reading next : Reading} {rule : OptionRule} {name value word : String}

/-- Taking an option changes nothing but the options. -/
theorem take_keeps (took : reading.take rule value = .ok next) :
    next.pending = reading.pending ∧ next.plain = reading.plain := by
  unfold Reading.take at took
  dsimp only at took
  generalize reading.options.any (·.1 == rule.name) = again at took
  split at took
  · cases took
    exact ⟨rfl, rfl⟩
  · cases again <;> cases took
    exact ⟨rfl, rfl⟩
  · cases again <;> cases took
    exact ⟨rfl, rfl⟩
  · cases again <;> simp only [Bool.false_eq_true, ↓reduceIte, bind, Except.bind] at took
    · split at took <;> cases took
      exact ⟨rfl, rfl⟩
    · cases took
  · cases again <;> simp only [Bool.false_eq_true, ↓reduceIte, bind, Except.bind] at took
    · split at took <;> cases took
      exact ⟨rfl, rfl⟩
    · cases took
  · cases took

private theorem settle_keeps {settled : Reading} (settles : reading.settle = .ok settled) :
    settled.pending = none ∧ settled.plain = reading.plain := by
  unfold Reading.settle at settles
  split at settles
  next done =>
    cases settles
    exact ⟨done, rfl⟩
  next => cases settles
  next => exact take_keeps settles

/-- **A switch without a value takes no word**: what does not look like an option is read behind it
as a plain word. -/
theorem next_behind_switch (switch : takes? name = some .switch)
    (plain : name ≠ "" ∧ '=' ∉ name.toList) (ready : reading.plain = false)
    (reads : reading.next buildGrammar ("--" ++ name) = .ok next) (bare : IsBare word) :
    next.next buildGrammar word = next.word buildGrammar word := by
  obtain ⟨rule, rfl, takes, found⟩ := exists_rule switch
  rw [next_bare ready plain.1 plain.2, Reading.long, found] at reads
  simp only [takes] at reads
  cases settles : reading.settle with
  | error fault =>
      rw [Reading.takeNext, settles] at reads
      cases reads
  | ok settled =>
      rw [Reading.takeNext, settles] at reads
      obtain ⟨pending, plainNext⟩ := take_keeps reads
      obtain ⟨done, plainThen⟩ := settle_keeps settles
      rw [next_word (plainNext.trans (plainThen.trans ready)) bare, pending, done]

end Waiting

/-! ### All arguments -/

/-- No option twice, and one plain word at most. -/
def Reading.Distinct (reading : Reading) : Prop :=
  (reading.options.map Prod.fst).Nodup ∧ reading.words.length ≤ 1

private theorem including_cons (settled : Reading) (argument : Given) (rest : List Given) :
    settled.including (argument :: rest) = (settled.including [argument]).including rest := by
  have split : argument :: rest = [argument] ++ rest := rfl
  unfold Reading.including
  rw [split, List.filterMap_append, List.filterMap_append]
  simp only [List.append_assoc]

private theorem fits_of_distinct {settled : Reading} {argument : Given} {rest : List Given}
    (distinct : (settled.including (argument :: rest)).Distinct) : argument.Fits settled := by
  obtain ⟨once, few⟩ := distinct
  rw [Reading.including] at once few
  refine ⟨fun option given member => ?_, fun given => ?_⟩
  · rw [List.map_append, List.nodup_append] at once
    refine once.2.2 option.1 member option.1 ?_ rfl
    rw [List.filterMap_cons_some given]
    exact List.mem_map_of_mem List.mem_cons_self
  · obtain ⟨word, given⟩ := Option.isSome_iff_exists.mp given
    rw [List.filterMap_cons_some given, List.length_append, List.length_cons] at few
    exact List.length_eq_zero_iff.mp (by omega)

/-- **Arguments add exactly themselves**, one after the other. -/
theorem exists_scan_groups {order : List Given} {groups : List (List String)}
    (written : List.Forall₂ Given.WrittenAs order groups)
    (known : ∀ argument ∈ order, argument.Known) {reading settled : Reading}
    (stands : SettlesAs reading settled)
    (distinct : (settled.including order).Distinct) :
    ∃ last, buildGrammar.scan reading groups.flatten = .ok (last, none) ∧
      SettlesAs last (settled.including order) := by
  induction written generalizing reading settled with
  | nil =>
      refine ⟨reading, by rw [List.flatten_nil, Grammar.scan], ?_⟩
      simpa [Reading.including] using stands
  | @cons argument words rest groups here _ ih =>
      obtain ⟨next, scans, standsNext⟩ :=
        exists_scan_group stands here (known argument (by simp)) (fits_of_distinct distinct)
      rw [including_cons] at distinct ⊢
      obtain ⟨last, scanned, standsLast⟩ :=
        ih (fun other member => known other (by simp [member])) standsNext distinct
      exact ⟨last, by rw [List.flatten_cons, scans, scanned], standsLast⟩

end BuildWarden.Command
