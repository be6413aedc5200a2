import BuildWarden.Proofs.Guideline.Format
import BuildWarden.Proofs.Guideline.Sources
import BuildWarden.Proofs.Guideline.Visit
/-!
# What the format check rewrites

A formatter that decides from the path and the content of one file tells in advance which sources
read differently: `due?` is the text that such a source should have. A check that does not correct
counts these sources. One that does counts the same ones and stores in each of them its text; every
other file keeps its bytes, also one that the formatter refuses and one whose bytes are no text but
read like what the formatter makes of them. Links may lead to the sources, as long as the library
and the test suites lie apart.
-/

namespace BuildWarden.Guideline

open Text.Utf8 (encode decodeLenient)

/-- A formatter that decides from the path and the content of one source, on all disks that differ
from a first one in contents only. Asking it changes no file. It stores in a source exactly the text
that it gives for it, and touches no other file. -/
structure Formatter.Decides (formatter : Formatter) (text? : String → Bytes → Option String)
    (layout : Layout) (start : Disk) : Prop where
  reformats : ∀ file world content executable, start.Alike world.disk →
    IsListed layout start file →
    world.disk.open? file.path = .ok (file.location, .leaf (.file content executable)) →
      (formatter.reformat file world).1.toOption = text? file.path content ∧
        (formatter.reformat file world).2.disk = world.disk
  stores : ∀ file world content executable text, start.Alike world.disk →
    IsListed layout start file →
    world.disk.open? file.path = .ok (file.location, .leaf (.file content executable)) →
    text? file.path content = some text →
      (formatter.apply file world).1 = .ok () ∧ ∃ executable',
        (formatter.apply file world).2.disk = { world.disk with
          tree := world.disk.tree.put file.location (.leaf (.file (encode text) executable')) }

/-- The text that a source should have, if it has another one. -/
def due? (text? : String → Bytes → Option String) (layout : Layout) (disk : Disk)
    (file : SourceFile) : Option String :=
  if unformatted layout file then none
  else
    match disk.tree.aspect? file.location with
    | some (.file content) => (text? file.path content).filter (decodeLenient content != ·)
    | _ => none

/-- What becomes of a source for which a text is due or not. -/
def formatOutcome (correct : Bool) (due : Option String) : Outcome :=
  if due.isSome then .violation correct else .fine

variable {text? : String → Bytes → Option String} {layout : Layout} {start : Disk}
  {formatter : Formatter} {listing : SourceKind → Listing} {correct : Bool} {file : SourceFile}
  {files : List SourceFile} {world : World} {disk before between after : Disk} {content : Bytes}
  {text : String}

section Due
variable (present : disk.tree.aspect? file.location = some (.file content))
include present

private theorem due?_of_aspect? :
    due? text? layout disk file =
      if unformatted layout file then none
      else (text? file.path content).filter (decodeLenient content != ·) := by
  rw [due?, present]

private theorem isSome_due? :
    (due? text? layout disk file).isSome =
      readsOtherwise layout file content (text? file.path content) := by
  rw [due?_of_aspect? present, readsOtherwise]
  cases unformatted layout file with
  | true => rfl
  | false => simp [Option.isSome_filter]

/-- Nothing is due for a file that is refused or that reads as it should. -/
theorem due?_eq_none (calm : text? file.path content = none ∨
    text? file.path content = some (decodeLenient content)) :
    due? text? layout disk file = none := by
  rw [due?_of_aspect? present]
  rcases calm with refused | same
  · rw [refused, Option.filter_none, ite_self]
  · simp [same]

/-- What a file should read is due where it reads differently. -/
theorem due?_eq_some (checked : unformatted layout file = false)
    (reformatted : text? file.path content = some text) (reads : decodeLenient content ≠ text) :
    due? text? layout disk file = some text := by
  rw [due?_of_aspect? present, checked, reformatted]
  simp [reads]

end Due

private theorem due?_congr
    (same : after.tree.aspect? file.location = before.tree.aspect? file.location) :
    due? text? layout after file = due? text? layout before file := by
  rw [due?, due?, same]

/-! ### One source -/

/-- The sources for which a text is due get it, if the check corrects, and nothing else changes. -/
structure Reformats (text? : String → Bytes → Option String) (layout : Layout) (correct : Bool)
    (files : List SourceFile) (before after : Disk) : Prop where
  alike : before.Alike after
  still : correct = false → after = before
  stored : correct = true → ∀ file ∈ files, ∀ text, due? text? layout before file = some text →
    after.tree.aspect? file.location = some (.file (encode text))
  kept : ∀ location,
    (∀ file ∈ files, file.location = location → due? text? layout before file = none) →
      after.tree.aspect? location = before.tree.aspect? location

private theorem Reformats.nil (disk : Disk) : Reformats text? layout correct [] disk disk :=
  ⟨.refl disk, fun _ => rfl, fun _ _ member => (List.not_mem_nil member).elim, fun _ _ => rfl⟩

private theorem Reformats.of_due?_eq_none (none : due? text? layout disk file = none) :
    Reformats text? layout correct [file] disk disk where
  alike := .refl disk
  still _ := rfl
  stored _ other member text due := by
    obtain rfl := List.mem_singleton.mp member
    rw [none] at due
    cases due
  kept _ _ := rfl

private theorem Reformats.of_still (files : List SourceFile) :
    Reformats text? layout false files disk disk :=
  ⟨.refl disk, fun _ => rfl, nofun, fun _ _ => rfl⟩

private theorem Reformats.of_stored {executable executable' : Bool}
    (present : disk.tree.at? file.location = some (.leaf (.file content executable)))
    (due : due? text? layout disk file = some text) :
    Reformats text? layout true [file] disk { disk with
      tree := disk.tree.put file.location (.leaf (.file (encode text) executable')) } where
  alike := Disk.alike_rewritten present _ _
  still := nofun
  stored := by
    intro _ other member text' dueOther
    obtain rfl := List.mem_singleton.mp member
    obtain rfl := Option.some.inj (due.symm.trans dueOther)
    rw [Disk.aspect?_rewritten _ present, if_pos rfl]
  kept := by
    intro location none
    have different : file.location ≠ location := by
      intro same
      rw [none file (by simp) same] at due
      cases due
    rw [Disk.aspect?_rewritten _ present, if_neg different]

section Decides
variable (decides : formatter.Decides text? layout start) (named : start.tree.Named)
  (settings : Console.Settings)
include decides named

/-- **What the check makes of one source.** -/
theorem examineFormat_reformats (listed : IsListed layout start file)
    (alike : start.Alike world.disk) :
    (examineFormat settings layout formatter correct file world).1 =
        formatOutcome correct (due? text? layout world.disk file) ∧
      Reformats text? layout correct [file] world.disk
        (examineFormat settings layout formatter correct file world).2.disk := by
  have ⟨kind, lists, _⟩ := listed
  obtain ⟨content, executable, leads⟩ := (alike.lists_iff.mpr lists).leads (alike.named named)
  have stands := Disk.at?_of_locate (Disk.open?_eq_ok.mp leads)
  have present : world.disk.tree.aspect? file.location = some (.file content) := by
    rw [Tree.aspect?, stands]
    rfl
  obtain ⟨answers, same⟩ := decides.reformats file world content executable alike listed leads
  have due : (due? text? layout world.disk file).isSome = _ := isSome_due? present
  have turn := examineFormat_turn settings layout correct present answers same
  generalize (examineFormat settings layout formatter correct file world).1 = outcome at turn ⊢
  generalize (examineFormat settings layout formatter correct file world).2.disk = after at turn ⊢
  rw [formatOutcome]
  cases turn with
  | fine calm =>
      rw [calm] at due
      rw [due, if_neg Bool.false_ne_true]
      exact ⟨rfl, .of_due?_eq_none (Option.isNone_iff_eq_none.mp (by simpa using due))⟩
  | told calm differs =>
      rw [differs] at due
      rw [due, if_pos rfl, calm]
      exact ⟨rfl, .of_still _⟩
  | @tried text between allowed differs reformatted same =>
      rw [differs] at due
      rw [due, if_pos rfl, allowed]
      -- the formatter is applied in the world that it left when it was asked
      rw [← same] at alike leads
      obtain ⟨ends, executable', stores⟩ :=
        decides.stores file between content executable text alike listed leads reformatted
      rw [ends, stores, same]
      refine ⟨rfl, .of_stored stands ?_⟩
      rw [readsOtherwise, reformatted, Bool.and_eq_true, Bool.not_eq_true'] at differs
      exact due?_eq_some present differs.1 reformatted (bne_iff_ne.mp differs.2)

end Decides

/-! ### One source after the other -/

/-- What is reformatted later is due from the start, as it lies elsewhere. -/
theorem Reformats.due?_of_ne {other : SourceFile}
    (first : Reformats text? layout correct [file] before after)
    (different : file.location ≠ other.location) :
    due? text? layout after other = due? text? layout before other := by
  refine due?_congr (first.kept other.location fun same member place => ?_)
  obtain rfl := List.mem_singleton.mp member
  exact (different place).elim

private theorem Reformats.cons (first : Reformats text? layout correct [file] before between)
    (others : Reformats text? layout correct files between after)
    (apart : ∀ other ∈ files, file.location ≠ other.location) :
    Reformats text? layout correct (file :: files) before after where
  alike := first.alike.trans others.alike
  still told := (others.still told).trans (first.still told)
  stored := by
    intro corrects other member text due
    rcases List.mem_cons.mp member with rfl | member
    · rw [others.kept _ fun same known place => (apart same known place.symm).elim]
      exact first.stored corrects other (by simp) text due
    · rw [← first.due?_of_ne (apart other member)] at due
      exact others.stored corrects other member text due
  kept := by
    intro location none
    have later : after.tree.aspect? location = between.tree.aspect? location := by
      refine others.kept location fun other member place => ?_
      rw [first.due?_of_ne (apart other member)]
      exact none other (by simp [member]) place
    refine later.trans (first.kept location fun other member place => ?_)
    obtain rfl := List.mem_singleton.mp member
    exact none other (by simp) place

/-- In which order sources are reformatted does not matter. -/
theorem Reformats.perm {others : List SourceFile} (permuted : files.Perm others)
    (reformats : Reformats text? layout correct files before after) :
    Reformats text? layout correct others before after where
  alike := reformats.alike
  still := reformats.still
  stored corrects file member := reformats.stored corrects file (permuted.mem_iff.mpr member)
  kept location none := reformats.kept location fun file member =>
    none file (permuted.mem_iff.mp member)

section Decides
variable (decides : formatter.Decides text? layout start) (named : start.tree.Named)
  (settings : Console.Settings)
include decides named

/-- **What the check makes of different sources**, told from the start. -/
theorem examineAll_reformats (listed : ∀ file ∈ files, IsListed layout start file)
    (once : (files.map SourceFile.location).Nodup) (alike : start.Alike world.disk) :
    (examineAll (examineFormat settings layout formatter correct) files world).1 =
        files.map (fun file => formatOutcome correct (due? text? layout world.disk file)) ∧
      Reformats text? layout correct files world.disk
        (examineAll (examineFormat settings layout formatter correct) files world).2.disk := by
  induction files generalizing world with
  | nil => exact ⟨rfl, .nil world.disk⟩
  | cons file rest ih =>
      obtain ⟨here, listed⟩ := List.forall_mem_cons.mp listed
      obtain ⟨fresh, once⟩ := List.nodup_cons.mp once
      have apart : ∀ other ∈ rest, file.location ≠ other.location := fun other member same =>
        fresh (same ▸ List.mem_map_of_mem member)
      obtain ⟨outcome, first⟩ : _ ∧ Reformats text? layout correct [file] world.disk _ :=
        examineFormat_reformats decides named settings here alike
      obtain ⟨outcomes, others⟩ := ih listed once (alike.trans first.alike)
      rw [examineAll_cons]
      refine ⟨?_, first.cons others apart⟩
      rw [outcome, outcomes, List.map_cons]
      exact congrArg _ (List.map_congr_left fun other member => by
        rw [first.due?_of_ne (apart other member)])

end Decides

section Check
variable (available : formatter.available = true) (named : world.disk.tree.Named)
  (faithful : ∀ kind, (listing kind).Faithful) (apart : layout.ApartOn world.disk)
  (decides : formatter.Decides text? layout world.disk) (settings : Console.Settings)
include available named faithful apart decides

/-- What a check counts and what it leaves, whether it corrects or not. -/
theorem checkFormat_reformats (correct : Bool) :
    let differing := (librarySources layout listing world.disk).filter fun file =>
      (due? text? layout world.disk file).isSome
    (checkFormat settings layout formatter listing correct world).1 =
        { name := "format", kind := "format", violations := differing.length,
          corrected := if correct then differing.length else 0 } ∧
      Reformats text? layout correct (librarySources layout listing world.disk) world.disk
        (checkFormat settings layout formatter listing correct world).2.disk := by
  intro differing
  have step {kind : SourceKind} {file : SourceFile}
      (member : file ∈ kind.sources layout (listing kind) world.disk) {between : World}
      (alike : world.disk.Alike between.disk) : between.disk.Alike
        (examineFormat settings layout formatter correct file between).2.disk := by
    have lists := (Disk.mem_enumerate_iff named (faithful kind)).mp member
    exact (examineFormat_reformats decides named settings ⟨kind, lists⟩ alike).2.alike
  obtain ⟨files, permuted, examined, -⟩ := exists_listed_files Disk.Alike Disk.Alike.refl
    Disk.Alike.trans
    (fun kind disk alike => alike.enumerate_perm named (faithful kind) (faithful kind))
    (fun kind file member between alike => step member alike) SourceKind.all (.refl world.disk)
  have once : (files.map SourceFile.location).Nodup :=
    (permuted.map _).nodup_iff.mpr (nodup_sources named faithful apart)
  have listed : ∀ file ∈ files, IsListed layout world.disk file := fun file member =>
    (mem_librarySources named faithful).mp (permuted.mem_iff.mp member)
  obtain ⟨outcomes, reformats⟩ :=
    examineAll_reformats decides named settings listed once (.refl world.disk)
  have same : (files.filter fun file => (due? text? layout world.disk file).isSome).length =
      differing.length := (permuted.filter _).length_eq
  unfold checkFormat
  rw [if_pos available, examined]
  dsimp only
  rw [outcomes]
  simp only [formatOutcome, CheckResult.count_found, same, Nat.zero_add, true_and]
  exact reformats.perm permuted

/-- **The format check flags and rewrites exactly the sources that differ.** No source is listed
twice. A check that does not correct counts those that are not excepted, that the formatter accepts
and that do not read as it says, and changes nothing. One that corrects counts and corrects the same
ones: each of them holds exactly the text of the formatter afterwards. Everything else keeps its
bytes, and so do the sources that are excepted or refused and those that read as the formatter says,
whether or not their bytes are a text. -/
theorem checkFormat_rewrites_differing :
    let sources := librarySources layout listing world.disk
    let differing := sources.filter fun file => (due? text? layout world.disk file).isSome
    let told := checkFormat settings layout formatter listing false world
    let mended := checkFormat settings layout formatter listing true world
    (sources.map SourceFile.location).Nodup ∧
      told.1 = { name := "format", kind := "format", violations := differing.length } ∧
      told.2.disk = world.disk ∧
      mended.1 =
        { name := "format", kind := "format", violations := differing.length,
          corrected := differing.length } ∧
      (∀ file ∈ sources, ∀ content text,
        world.disk.tree.aspect? file.location = some (.file content) →
        isExcepted (shownName layout file) formatExceptions = false →
        text? file.path content = some text → decodeLenient content ≠ text →
          file ∈ differing ∧
            mended.2.disk.tree.aspect? file.location = some (.file (encode text))) ∧
      (∀ file ∈ sources, ∀ content,
        world.disk.tree.aspect? file.location = some (.file content) →
        (isExcepted (shownName layout file) formatExceptions = true ∨
            text? file.path content = none ∨
            text? file.path content = some (decodeLenient content)) →
          file ∉ differing ∧
            mended.2.disk.tree.aspect? file.location = some (.file content)) ∧
      ∀ location, location ∉ differing.map SourceFile.location →
        mended.2.disk.tree.aspect? location = world.disk.tree.aspect? location := by
  intro sources differing told mended
  have once : (sources.map SourceFile.location).Nodup := nodup_sources named faithful apart
  obtain ⟨counted, unchanged⟩ :=
    checkFormat_reformats available named faithful apart decides settings false
  obtain ⟨corrected, reformats⟩ :=
    checkFormat_reformats available named faithful apart decides settings true
  have elsewhere (location : Location) (outside : location ∉ differing.map SourceFile.location) :
      mended.2.disk.tree.aspect? location = world.disk.tree.aspect? location := by
    refine reformats.kept location fun file member place => ?_
    by_contra due
    rw [← ne_eq, Option.ne_none_iff_isSome] at due
    exact outside (List.mem_map.mpr ⟨file, List.mem_filter.mpr ⟨member, due⟩, place⟩)
  refine ⟨once, counted, unchanged.still rfl, corrected, ?_, ?_, elsewhere⟩
  · intro file member content text present checked reformatted reads
    have due : due? text? layout world.disk file = some text :=
      due?_eq_some present checked reformatted reads
    exact ⟨List.mem_filter.mpr ⟨member, by rw [due]; rfl⟩,
      reformats.stored rfl file member text due⟩
  · intro file member content present calm
    have none : due? text? layout world.disk file = none := by
      rcases calm with excepted | calm
      · rw [due?, unformatted, if_pos excepted]
      · exact due?_eq_none present calm
    have outside : file.location ∉ differing.map SourceFile.location := by
      intro among
      obtain ⟨other, known, place⟩ := List.mem_map.mp among
      obtain ⟨memberOther, due⟩ := List.mem_filter.mp known
      obtain rfl := List.inj_on_of_nodup_map once memberOther member place
      rw [none] at due
      cases due
    exact ⟨fun known => outside (List.mem_map_of_mem known),
      (elsewhere _ outside).trans present⟩

end Check

/-! ### A formatter that reads and writes its sources -/

/-- The formatter that looks at the content of a source and writes what it makes of it. -/
def rewriter (text? : String → Bytes → Option String) : Formatter where
  name := "rewriter"
  available := true
  reformat file world :=
    match world.disk.read file.path with
    | .error fault => (.error fault.message, world)
    | .ok content => ((text? file.path content).elim (.error "refused") .ok, world)
  apply file world :=
    match world.disk.read file.path with
    | .error fault => (.error fault.message, world)
    | .ok content =>
      match text? file.path content with
      | none => (.error "refused", world)
      | some text =>
        match world.disk.write file.path (encode text) with
        | .error fault => (.error fault.message, world)
        | .ok disk => (.ok (), { world with disk })

/-- It decides from one file, where the sources can be written. -/
theorem rewriter_decides
    (unlocked : ∀ file, IsListed layout start file → start.locked file.location = false) :
    (rewriter text?).Decides text? layout start where
  reformats := by
    intro file world content executable _ _ leads
    simp only [rewriter, Disk.read_of_open? leads]
    cases text? file.path content <;> exact ⟨rfl, trivial⟩
  stores := by
    intro file world content executable text alike listed leads reformatted
    have free : world.disk.locked file.location = false := by
      rw [alike.locked]
      exact unlocked file listed
    simp only [rewriter, Disk.read_of_open? leads, reformatted, Disk.write_of_open? leads, free,
      Bool.false_eq_true, ↓reduceIte]
    exact ⟨trivial, executable, rfl⟩

/-- A header that is no text, one that is, an empty one and a link. -/
def lenientHeaders : World where
  disk :=
    { tree :=
        .dir "src" (.dir "agrum" (.leaf "a.h" (.file [0xFF] false) (.leaf "b.h" (.file [0x61] false)
          (.leaf "c.h" (.file [] false) (.leaf "d.h" (.link "b.h") .empty)))) .empty) .empty }

/-- The source of a name in the library. -/
def librarySource (name : String) : SourceFile :=
  .below "./src/agrum" ["src", "agrum"] [name]

private theorem suites_lenientHeaders :
    lenientHeaders.disk.open? ({} : Layout).testunitsDir = .error .missing := by
  have start : ({} : Layout).testunitsDir = "./src/testunits" := by decide
  have steps : Disk.steps "./src/testunits" = [".", "src", "testunits"] := by decide
  have relative : Path.isAbsolute "./src/testunits" = false := by decide
  simp [lenientHeaders, start, Disk.open?, Disk.locate, Disk.locateFrom, steps, relative,
    Disk.follow, Tree.at?, Tree.find?, Tree.hasDirAt]

private theorem sources_lenientHeaders :
    librarySources {} (fun _ => id) lenientHeaders.disk =
      [librarySource "a.h", librarySource "b.h", librarySource "c.h"] := by
  have start : ({} : Layout).libraryDir = "./src/agrum" := by decide
  have steps : Disk.steps "./src/agrum" = [".", "src", "agrum"] := by decide
  have relative : Path.isAbsolute "./src/agrum" = false := by decide
  have library : lenientHeaders.disk.open? "./src/agrum" = .ok (["src", "agrum"],
      .dir (.leaf "a.h" (.file [0xFF] false) (.leaf "b.h" (.file [0x61] false)
        (.leaf "c.h" (.file [] false) (.leaf "d.h" (.link "b.h") .empty))))) := by
    simp [lenientHeaders, Disk.open?, Disk.locate, Disk.locateFrom, steps, relative, Disk.follow,
      Tree.at?, Tree.find?]
  have absent : lenientHeaders.disk.isThere ({} : Layout).testunitsDir = false := by
    rw [Disk.isThere, suites_lenientHeaders]
    rfl
  simp only [librarySources, SourceKind.all, List.flatMap_cons, List.flatMap_nil,
    SourceKind.sources, SourceKind.start, Disk.enumerate_missing absent, start,
    Disk.enumerate_dir library]
  decide +kernel

/-- What an unreadable byte reads like, for every file that is not empty. -/
def replacement? (_path : String) (content : Bytes) : Option String :=
  if content = [] then none else some "\ufffd"

/-- The header that is no text reads as the formatter says, so its bytes stay as they are. -/
theorem checkFormat_rewrites_differing_lenient :
    let mended := checkFormat {} {} (rewriter replacement?) (fun _ => id) true lenientHeaders
    mended.1.violations = 1 ∧ mended.1.corrected = 1 ∧
      mended.2.disk.tree.aspect? ["src", "agrum", "a.h"] = some (.file [0xFF]) ∧
      mended.2.disk.tree.aspect? ["src", "agrum", "b.h"] = some (.file (encode "\ufffd")) ∧
      mended.2.disk.tree.aspect? ["src", "agrum", "c.h"] = some (.file []) := by
  intro mended
  have named : lenientHeaders.disk.tree.Named := by decide
  have faithful (_ : SourceKind) : Listing.Faithful id := Tree.Reordered.refl
  have apart : ({} : Layout).ApartOn lenientHeaders.disk := by
    intro place item other item' _ leads
    rw [suites_lenientHeaders] at leads
    cases leads
  have decides : (rewriter replacement?).Decides replacement? {} lenientHeaders.disk :=
    rewriter_decides fun _ _ => rfl
  obtain ⟨-, -, -, counts, stores, keeps, -⟩ :=
    checkFormat_rewrites_differing rfl named faithful apart decides {}
  rw [sources_lenientHeaders] at counts stores keeps
  have differing : ([librarySource "a.h", librarySource "b.h", librarySource "c.h"].filter
      fun file => (due? replacement? {} lenientHeaders.disk file).isSome).length = 1 := by
    decide +kernel
  rw [differing] at counts
  have same : replacement? (librarySource "a.h").path [0xFF] = some (decodeLenient [0xFF]) := by
    decide +kernel
  have different : decodeLenient [0x61] ≠ "\ufffd" := by decide +kernel
  refine ⟨congrArg CheckResult.violations counts, congrArg CheckResult.corrected counts, ?_, ?_, ?_⟩
  · exact (keeps (librarySource "a.h") (by simp) [0xFF] rfl (.inr (.inr same))).2
  · exact (stores (librarySource "b.h") (by simp) [0x61] "\ufffd" rfl (by decide +kernel) rfl
      different).2
  · exact (keeps (librarySource "c.h") (by simp) [] rfl (.inr (.inl rfl))).2

end BuildWarden.Guideline
