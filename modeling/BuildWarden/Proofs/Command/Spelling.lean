import BuildWarden.Proofs.Command.Written
import Mathlib.Data.List.Perm.Basic
/-!
# Build arguments on a command line

The arguments of a build that are given may stand in any order. Reading them adds each of them once,
and no lookup depends on the order of options with different names. So every command line that
writes the arguments is read as these arguments.
-/

namespace BuildWarden.Command

/-! ### What is read -/

section Lookup
variable {α : Type} {key : String}

/-- Where keys are unique, a lookup finds what is there. -/
theorem lookup_eq_some_of_mem {entries : List (String × α)} (once : (entries.map Prod.fst).Nodup)
    {value : α} (member : (key, value) ∈ entries) : entries.lookup key = some value := by
  induction entries with
  | nil => cases member
  | cons entry rest ih =>
      rw [List.map_cons, List.nodup_cons] at once
      rcases List.mem_cons.mp member with rfl | member
      · rw [List.lookup_cons, beq_self_eq_true]
      · have other : key ≠ entry.1 := by
          rintro rfl
          exact once.1 (List.mem_map.mpr ⟨_, member, rfl⟩)
        rw [List.lookup_cons, beq_eq_false_iff_ne.mpr other]
        exact ih once.2 member

/-- Where keys are unique, the order of the entries does not matter to a lookup. -/
theorem lookup_eq_of_perm {entries others : List (String × α)} (permuted : entries.Perm others)
    (once : (others.map Prod.fst).Nodup) : entries.lookup key = others.lookup key := by
  cases found : others.lookup key with
  | none =>
      rw [List.lookup_eq_none_iff] at found ⊢
      exact fun entry member => found entry (permuted.mem_iff.mp member)
  | some value =>
      obtain ⟨front, back, split, -⟩ := List.lookup_eq_some_iff.mp found
      refine lookup_eq_some_of_mem ((permuted.map Prod.fst).nodup_iff.mpr once) ?_
      exact permuted.mem_iff.mpr (by simp [split])

/-- The entries that have a value. -/
def settledEntries (entries : List (String × Option α)) : List (String × α) :=
  entries.filterMap fun entry => entry.2.map (entry.1, ·)

private theorem keys_settledEntries (entries : List (String × Option α)) :
    ((settledEntries entries).map Prod.fst).Sublist (entries.map Prod.fst) := by
  induction entries with
  | nil => exact .slnil
  | cons entry rest ih =>
      obtain ⟨name, value⟩ := entry
      cases value with
      | none => exact ih.cons name
      | some value => exact ih.cons_cons name

private theorem mem_settledEntries {entries : List (String × Option α)} {value : α} :
    (key, value) ∈ settledEntries entries ↔ (key, some value) ∈ entries := by
  unfold settledEntries
  rw [List.mem_filterMap]
  constructor
  · rintro ⟨⟨name, given⟩, member, same⟩
    obtain ⟨value, rfl, same⟩ := Option.map_eq_some_iff.mp same
    cases same
    exact member
  · exact fun member => ⟨_, member, rfl⟩

private theorem lookup_settledEntries {entries : List (String × Option α)}
    (once : (entries.map Prod.fst).Nodup) :
    (settledEntries entries).lookup key = (entries.lookup key).join := by
  have onceSettled := once.sublist (keys_settledEntries entries)
  cases given : (entries.lookup key).join with
  | some value =>
      obtain ⟨front, back, split, -⟩ :=
        List.lookup_eq_some_iff.mp (Option.join_eq_some_iff.mp given)
      refine lookup_eq_some_of_mem onceSettled (mem_settledEntries.mpr ?_)
      simp [split]
  | none =>
      rw [List.lookup_eq_none_iff]
      rintro ⟨name, value⟩ member
      rw [bne_iff_ne]
      rintro rfl
      rw [lookup_eq_some_of_mem once (mem_settledEntries.mp member)] at given
      cases given

end Lookup

namespace BuildArguments
variable {arguments : BuildArguments}

/-- All options with the texts that are given for them. -/
def values (arguments : BuildArguments) : List (String × Option String) :=
  arguments.texts ++ arguments.switches.map fun entry => (entry.1, entry.2.map Given.truth)

private theorem nodup_values (arguments : BuildArguments) :
    (arguments.values.map Prod.fst).Nodup := by
  have once : ((values {}).map Prod.fst).Nodup := by decide
  exact once

private theorem options_given (arguments : BuildArguments) :
    arguments.given.filterMap Given.option? = settledEntries arguments.values := by
  have words : (arguments.target.toList.map Given.target).filterMap Given.option? = [] := by
    cases arguments.target <;> rfl
  have texts : (arguments.texts.filterMap fun entry =>
      entry.2.map (Given.text entry.1)).filterMap Given.option? =
        settledEntries arguments.texts := by
    rw [List.filterMap_filterMap]
    refine List.filterMap_congr fun entry _ => ?_
    obtain ⟨name, value⟩ := entry
    cases value <;> rfl
  have switches : (arguments.switches.filterMap fun entry =>
      entry.2.map (Given.switch entry.1)).filterMap Given.option? =
        settledEntries (arguments.switches.map fun entry =>
          (entry.1, entry.2.map Given.truth)) := by
    rw [settledEntries, List.filterMap_filterMap, List.filterMap_map]
    refine List.filterMap_congr fun entry _ => ?_
    obtain ⟨name, on⟩ := entry
    cases on <;> rfl
  rw [given, List.filterMap_append, List.filterMap_append, words, texts, switches,
    List.nil_append, values]
  exact List.filterMap_append.symm

private theorem words_given (arguments : BuildArguments) :
    arguments.given.filterMap Given.word? = arguments.target.toList := by
  have words : (arguments.target.toList.map Given.target).filterMap Given.word? =
      arguments.target.toList := by
    cases arguments.target <;> rfl
  have texts : (arguments.texts.filterMap fun entry =>
      entry.2.map (Given.text entry.1)).filterMap Given.word? = [] := by
    rw [List.filterMap_filterMap, List.filterMap_eq_nil_iff]
    rintro ⟨name, value⟩ _
    cases value <;> rfl
  have switches : (arguments.switches.filterMap fun entry =>
      entry.2.map (Given.switch entry.1)).filterMap Given.word? = [] := by
    rw [List.filterMap_filterMap, List.filterMap_eq_nil_iff]
    rintro ⟨name, on⟩ _
    cases on <;> rfl
  rw [given, List.filterMap_append, List.filterMap_append, words, texts, switches,
    List.append_nil, List.append_nil]

private theorem ofReading_eq {reading : Reading}
    (reads : ∀ name, reading.options.lookup name = (arguments.values.lookup name).join) :
    ofReading reading arguments.target = arguments := by
  have truth (on : Option Bool) : (on.map Given.truth).map (· == "true") = on := by
    cases on with
    | none => rfl
    | some on => cases on <;> rfl
  simp only [ofReading, reads, values, texts, switches, List.map_cons, List.cons_append,
    List.lookup_cons, List.nil_append, String.reduceBEq, Option.join_some, truth]

end BuildArguments

/-! ### Command lines -/

section Order
variable {arguments : BuildArguments} {order : List Given} (permuted : order.Perm arguments.given)
include permuted

/-- The arguments of a build are of different options. -/
theorem distinct_including : (Reading.including {} order).Distinct := by
  have options := permuted.filterMap Given.option?
  have words := permuted.filterMap Given.word?
  rw [arguments.options_given] at options
  rw [arguments.words_given] at words
  unfold Reading.Distinct Reading.including
  rw [List.nil_append, (options.map Prod.fst).nodup_iff, List.nil_append, words.length_eq]
  refine ⟨arguments.nodup_values.sublist (keys_settledEntries _), ?_⟩
  cases arguments.target <;> simp

private theorem lookup_including (name : String) :
    (Reading.including {} order).options.lookup name = (arguments.values.lookup name).join := by
  have options := permuted.filterMap Given.option?
  rw [arguments.options_given] at options
  rw [Reading.including, List.nil_append,
    lookup_eq_of_perm options (arguments.nodup_values.sublist (keys_settledEntries _)),
    lookup_settledEntries arguments.nodup_values]

private theorem head?_including : (Reading.including {} order).words.head? = arguments.target := by
  have words := permuted.filterMap Given.word?
  rw [arguments.words_given] at words
  rw [Reading.including, List.nil_append]
  cases target : arguments.target with
  | none =>
      rw [target] at words
      rw [words.eq_nil]
      rfl
  | some word =>
      rw [target] at words
      rw [List.perm_singleton.mp words]
      rfl

/-- Nothing is said about the options of the program. -/
theorem ofReadings_including (command : Request) :
    Invocation.ofReadings {} (Reading.including {} order) (some command) =
      { command := some command } := by
  have others : ∀ name ∈ ["directory", "verbose", "quiet", "dry-run", "config"],
      name ∉ (BuildArguments.values {}).map Prod.fst := by decide
  have absent (name : String)
      (other : name ∈ ["directory", "verbose", "quiet", "dry-run", "config"]) :
      (Reading.including {} order).options.lookup name = none := by
    have nothing : arguments.values.lookup name = none := by
      rw [List.lookup_eq_none_iff]
      rintro entry member
      rw [bne_iff_ne]
      rintro rfl
      have known : entry.1 ∈ arguments.values.map Prod.fst := List.mem_map_of_mem member
      exact others entry.1 other known
    rw [lookup_including permuted, nothing]
    rfl
  have silent : Invocation.count (Reading.including {} order) "verbose" = 0 := by
    rw [Invocation.count, List.countP_eq_zero]
    intro option member same
    have other := List.lookup_eq_none_iff.mp (absent "verbose" (by simp)) option member
    rw [bne_iff_ne] at other
    exact other (eq_of_beq same).symm
  unfold Invocation.ofReadings
  dsimp only
  rw [absent "directory" (by simp), absent "quiet" (by simp), absent "dry-run" (by simp),
    absent "config" (by simp), silent]
  rfl

end Order

/-- A command line that writes the arguments of a build is read as these arguments. -/
theorem parse_groups {action : Action} (builds : action ∈ Invocation.actions)
    {arguments : BuildArguments} {order : List Given} {groups : List (List String)}
    (permuted : order.Perm arguments.given)
    (written : List.Forall₂ Given.WrittenAs order groups) :
    Invocation.parse (action.name :: groups.flatten) =
      .ok { command := some (.build action arguments) } := by
  have named : ∀ action ∈ Invocation.actions,
      Invocation.outer.commands.contains action.name = true ∧
        Invocation.actions.find? (·.name == action.name) = some action := by decide
  obtain ⟨command, found⟩ := named action builds
  have known : ∀ argument ∈ order, argument.Known :=
    fun argument member => known_of_mem_given (permuted.mem_iff.mp member)
  obtain ⟨last, scanned, stands⟩ := exists_scan_groups written known
    (settlesAs_self rfl rfl) (distinct_including permuted)
  have read : buildGrammar.read groups.flatten = .ok (Reading.including {} order) := by
    rw [Grammar.read, scanned]
    exact stands.settles
  have readings : BuildArguments.ofReading (Reading.including {} order)
      (Reading.including {} order).words.head? = arguments := by
    rw [head?_including permuted]
    exact BuildArguments.ofReading_eq (lookup_including permuted)
  have request : Invocation.readCommand action.name groups.flatten =
      .ok (.build action arguments, Reading.including {} order) := by
    unfold Invocation.readCommand
    simp only [found]
    rw [← buildGrammar, read]
    simp only [bind, Except.bind, pure, Except.pure, readings]
  rw [Invocation.parse, Grammar.scan, command]
  simp only [Reading.waits, Bool.not_false, Bool.and_self, ↓reduceIte, bind, Except.bind, request]
  exact congrArg Except.ok (ofReadings_including permuted _)

/-- **Build arguments survive the command line in any order.** However each argument that is given
is written, and in whatever order the arguments stand, what is read are these arguments and nothing
else. In particular a switch without a value takes no word: what stands behind it and does not look
like an option is read as a plain word. -/
theorem parse_written {action : Action} (builds : action ∈ Invocation.actions)
    {arguments : BuildArguments} {order : List Given} {groups : List (List String)}
    (permuted : order.Perm arguments.given)
    (written : List.Forall₂ Given.WrittenAs order groups) :
    Invocation.parse (action.name :: groups.flatten) =
        .ok { command := some (.build action arguments) } ∧
      ∀ (reading next : Reading) (switch word : String),
        switch ∈ (BuildArguments.switches arguments).map Prod.fst → reading.plain = false →
          reading.next buildGrammar ("--" ++ switch) = .ok next → IsBare word →
            next.next buildGrammar word = next.word buildGrammar word := by
  refine ⟨parse_groups builds permuted written, ?_⟩
  intro reading next switch word known ready reads bare
  obtain ⟨takes, plain⟩ := takes_switch known
  exact next_behind_switch takes plain ready reads bare

/-- A target behind a switch, a value with an equals sign and one that looks like an option. -/
theorem parse_written_interleaved :
    let arguments : BuildArguments :=
      { target := some "pyAgrum", modules := some "A=B", destination := some "-x",
        withSql := some true, staticLib := some false }
    Action.lib ∈ Invocation.actions ∧
      Invocation.parse ["lib", "--with-sql", "pyAgrum", "--modules", "A=B", "--static-lib=false",
        "--destination=-x"] = .ok { command := some (.build .lib arguments) } := by
  intro arguments
  have permuted : [.switch "with-sql" true, .target "pyAgrum", .text "modules" "A=B",
      .switch "static-lib" false, .text "destination" "-x"].Perm arguments.given := by decide
  have target : IsBare "pyAgrum" := by decide
  have value : IsBare "A=B" := by decide
  have written := List.Forall₂.cons (Given.WrittenAs.on "with-sql") (.cons (.target target)
    (.cons (.apart "modules" value)
      (.cons (.stated "static-lib" false) (.cons (.attached "destination" "-x") .nil))))
  have builds : Action.lib ∈ Invocation.actions := by decide
  exact ⟨builds, (parse_written builds permuted written).1⟩

end BuildWarden.Command
