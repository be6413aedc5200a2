import BuildWarden.Proofs.Guideline.Convergence
import BuildWarden.Proofs.Guideline.Frame
import BuildWarden.Proofs.Tree.Components
/-!
# Source units that are made

What the pairing check makes is right for a header: the unit lies beside it, names its licence, and
has one inclusion, whose path leads from the directory of the sources to the header. What was there
stays, and every header gets a unit where one can be written. Two headers of one directory share a
unit only if one of them has no name but the ending.
-/

namespace BuildWarden.Guideline

open Text.Utf8 (encode)

/-! ### What a unit includes -/

/-- Whether a line starts with an inclusion. -/
def isInclusion (line : String) : Bool :=
  "#include".toList.isPrefixOf line.toList

/-- The lines of a text that start with an inclusion. -/
def inclusions (text : String) : List String :=
  ((List.splitOn '\n' text.toList).map String.ofList).filter isInclusion

private theorem inclusions_joined {lines : List String} (some : lines ≠ [])
    (whole : ∀ line ∈ lines, '\n' ∉ line.toList) :
    inclusions (Text.joined "\n" lines) = lines.filter isInclusion := by
  have split : List.splitOn '\n' (Text.joined "\n" lines).toList = lines.map String.toList := by
    rw [toList_joined, List.splitOn_intercalate]
    · simpa using whole
    · rwa [ne_eq, List.map_eq_nil_iff]
  have same : (String.ofList ∘ String.toList) = id := funext fun line => String.ofList_toList
  rw [inclusions, split, List.map_map, same, List.map_id]

private theorem isInclusion_eq_false {line : String} (other : line.toList.head? ≠ some '#') :
    isInclusion line = false := by
  refine Bool.eq_false_iff.mpr fun includes => other ?_
  obtain ⟨rest, shape⟩ := List.isPrefixOf_iff_prefix.mp includes
  rw [← shape]
  rfl

/-- The lines of a unit between the licence and the inclusion. -/
def unitComment : List String :=
  unitHeadLines.tail.dropLast

private theorem unitFor_eq (header : String) :
    unitFor header = Text.joined "\n"
      (licenseLines ++ (unitComment ++ ["#include <" ++ header ++ ">", "", ""])) := by
  have head : unitHead = "" ++ "\n" ++ (Text.joined "\n" unitComment ++ "\n" ++ "#include <") := by
    have lines : unitHeadLines = [""] ++ (unitComment ++ ["#include <"]) := by decide
    rw [unitHead, lines]
    unfold Text.joined
    rw [String.intercalate_append_of_ne_nil (by simp) (by simp),
      String.intercalate_append_of_ne_nil (by decide) (by simp), String.intercalate_singleton,
      String.intercalate_singleton]
  have feeds : ">\n\n" = ">" ++ "\n" ++ "" ++ "\n" ++ "" := by decide
  rw [unitFor, licenseTemplate, head, feeds]
  unfold Text.joined
  rw [String.intercalate_append_of_ne_nil (by decide) (by simp),
    String.intercalate_append_of_ne_nil (by decide) (by simp), String.intercalate_cons_cons,
    String.intercalate_cons_cons, String.intercalate_singleton]
  simp only [String.append_assoc, String.empty_append]

/-- The letters of a line that is a literal are told without its bytes. -/
theorem forall_lines_cons {P : List Char → Prop} {letters : List Char} {rest : List String}
    (here : P letters) (further : ∀ line ∈ rest, P line.toList) :
    ∀ line ∈ String.ofList letters :: rest, P line.toList := by
  refine List.forall_mem_cons.mpr ⟨?_, further⟩
  rwa [String.toList_ofList]

/-- The letters of one line that holds no directive. -/
def IsPlainLine (letters : List Char) : Prop :=
  '\n' ∉ letters ∧ letters.head? ≠ some '#'

instance (letters : List Char) : Decidable (IsPlainLine letters) :=
  inferInstanceAs (Decidable (_ ∧ _))

private theorem isPlainLine_licenseLines : ∀ line ∈ licenseLines, IsPlainLine line.toList := by
  unfold licenseLines
  repeat refine forall_lines_cons (by decide) ?_
  exact List.forall_mem_nil _

private theorem isPlainLine_unitComment : ∀ line ∈ unitComment, IsPlainLine line.toList := by
  unfold unitComment unitHeadLines
  repeat refine forall_lines_cons (by decide) ?_
  exact List.forall_mem_nil _

/-- **A unit has one inclusion**, which is that of its header. -/
theorem inclusions_unitFor {header : String} (unbroken : '\n' ∉ header.toList) :
    inclusions (unitFor header) = ["#include <" ++ header ++ ">"] := by
  have licence (line : String) (member : line ∈ licenseLines) : ¬isInclusion line = true := by
    simpa using isInclusion_eq_false (isPlainLine_licenseLines line member).2
  have comment (line : String) (member : line ∈ unitComment) : ¬isInclusion line = true := by
    simpa using isInclusion_eq_false (isPlainLine_unitComment line member).2
  have included : isInclusion ("#include <" ++ header ++ ">") = true := by
    rw [isInclusion, List.isPrefixOf_iff_prefix, String.append_assoc]
    have opening : "#include <" = "#include" ++ " <" := by decide
    rw [opening, String.append_assoc, String.toList_append]
    exact List.prefix_append _ _
  rw [unitFor_eq, inclusions_joined (by simp)]
  · rw [List.filter_append, List.filter_append,
      List.filter_eq_nil_iff.mpr licence, List.filter_eq_nil_iff.mpr comment,
      List.filter_cons_of_pos included]
    rfl
  · intro line member
    simp only [List.mem_append, List.mem_cons, List.not_mem_nil, or_false] at member
    rcases member with licensed | commented | rfl | rfl | rfl
    · exact (isPlainLine_licenseLines line licensed).1
    · exact (isPlainLine_unitComment line commented).1
    · simp [unbroken]
    · simp
    · simp

/-- A source unit of a header: it names its licence, and its one inclusion leads from the directory
of the sources to the header. -/
structure IsUnitOf (layout : Layout) (header : SourceFile) (content : Bytes) : Prop where
  licensed : hasLicense content = true
  includes : ∃ text path, content = encode text ∧
    inclusions text = ["#include <" ++ path ++ ">"] ∧
    Path.components (Path.join layout.sourcesDir path) = Path.components header.path

/-- **The text made for a header is a unit of it**, if the header lies in the sources. -/
theorem isUnitOf_unitText {layout : Layout} {header : SourceFile}
    (inside : Path.components layout.sourcesDir <+: Path.components header.path)
    (straight : '\\' ∉ header.path.toList) (unbroken : '\n' ∉ header.path.toList) :
    IsUnitOf layout header (encode (unitText layout header)) := by
  obtain ⟨leads, known⟩ := Path.components_join_relativeTo inside straight
  refine ⟨hasLicense_unitFor _, unitText layout header,
    Path.relativeTo layout.sourcesDir header.path, rfl, inclusions_unitFor ?_, leads⟩
  intro broken
  exact (known _ broken).elim (by decide) unbroken

section IsUnitOf
variable {layout : Layout} {header other : SourceFile}

/-- What a unit includes leads from the directory of the sources to its header. -/
theorem IsUnitOf.leads {included : String}
    (unit : IsUnitOf layout header (encode (unitFor included)))
    (unbroken : '\n' ∉ included.toList) :
    Path.components (Path.join layout.sourcesDir included) = Path.components header.path := by
  obtain ⟨text, path, written, inclusion, leads⟩ := unit.includes
  obtain rfl : unitFor included = text := Text.Utf8.encode_injective written
  rw [inclusions_unitFor unbroken] at inclusion
  obtain rfl : included = path := by simpa using inclusion
  exact leads

/-- A text is a unit of one header only. -/
theorem IsUnitOf.components_eq {content : Bytes} (one : IsUnitOf layout header content)
    (two : IsUnitOf layout other content) :
    Path.components header.path = Path.components other.path := by
  obtain ⟨text, path, written, included, leads⟩ := one.includes
  obtain ⟨text', path', written', included', leads'⟩ := two.includes
  obtain rfl : text = text' := Text.Utf8.encode_injective (written.symm.trans written')
  have same : "#include <" ++ path ++ ">" = "#include <" ++ path' ++ ">" :=
    List.singleton_injective (included.symm.trans included')
  obtain rfl : path = path' := by simpa using same
  exact leads.symm.trans leads'

end IsUnitOf

/-! ### Headers that share a unit -/

/-- The unit of a header without a name is that of a header whose name is the ending. -/
theorem name_of_bare {header other : SourceFile}
    (accepted : SourceKind.headers.pattern.accepts other.name = true) (bare : header.name = ".h")
    (same : unitName header = unitName other) : other.name = ".h" ∨ other.name = ".h.h" := by
  obtain ⟨front, shape⟩ := header_ends accepted
  by_cases nothing : front = []
  · subst nothing
    exact .inl (String.toList_injective shape.symm)
  · have letters := congrArg String.toList same
    have stem : Path.stem ".h" = ".h" := by decide
    rw [unitName, unitName, Path.withExtension, Path.withExtension, bare, stem,
      stem_header shape.symm nothing] at letters
    have whole : front ++ ['.', 'c', 'p', 'p'] = ['.', 'h'] ++ ['.', 'c', 'p', 'p'] := by
      simpa using letters.symm
    refine .inr (String.toList_injective ?_)
    rw [← shape, List.append_cancel_right whole]
    decide

/-- Names of headers that have the same unit. -/
theorem name_eq_or_bare {header other : SourceFile}
    (accepted : SourceKind.headers.pattern.accepts header.name = true)
    (acceptedToo : SourceKind.headers.pattern.accepts other.name = true)
    (same : unitName header = unitName other) :
    header.name = other.name ∨ header.name = ".h" ∧ other.name = ".h.h" ∨
      header.name = ".h.h" ∧ other.name = ".h" := by
  by_cases bare : header.name = ".h"
  · rcases name_of_bare acceptedToo bare same with alike | doubled
    · exact .inl (bare.trans alike.symm)
    · exact .inr (.inl ⟨bare, doubled⟩)
  by_cases bareToo : other.name = ".h"
  · rcases name_of_bare accepted bareToo same.symm with alike | doubled
    · exact absurd alike bare
    · exact .inr (.inr ⟨doubled, bareToo⟩)
  · exact .inl (unitName_injective accepted acceptedToo bare bareToo same)

/-! ### One examination -/

/-- A change that only makes units of some headers, where nothing stood. -/
structure MakesUnits (layout : Layout) (headers : List SourceFile) (before after : Disk) : Prop
    extends before.Extends after where
  plain : before.tree.Plain → after.tree.Plain
  units : ∀ location, after.tree.aspect? location = before.tree.aspect? location ∨
    before.tree.aspect? location = none ∧ ∃ header ∈ headers, needsUnit layout header = true ∧
      unitPlace header = location ∧
      after.tree.aspect? location = some (.file (encode (unitText layout header)))

section MakesUnits
variable {layout : Layout} {headers : List SourceFile} {header : SourceFile}
  {before after disk : Disk} {correct : Bool} {outcome : Outcome} {location : Location}
  {aspect : Aspect}

namespace MakesUnits

@[refl]
private theorem refl (layout : Layout) (headers : List SourceFile) (disk : Disk) :
    MakesUnits layout headers disk disk :=
  ⟨.refl disk, id, fun _ => .inl rfl⟩

/-- What stands is kept. -/
theorem stays (makes : MakesUnits layout headers before after)
    (there : before.tree.aspect? location = some aspect) :
    after.tree.aspect? location = some aspect := by
  rcases makes.units location with same | ⟨vacant, -⟩
  · exact same.trans there
  · rw [there] at vacant
    cases vacant

private theorem trans {one two three : Disk} (first : MakesUnits layout headers one two)
    (second : MakesUnits layout headers two three) : MakesUnits layout headers one three where
  toExtends := first.toExtends.trans second.toExtends
  plain := second.plain ∘ first.plain
  units location := by
    rcases first.units location with same | ⟨vacant, header, member, needed, place, made⟩
    · rw [← same]
      exact second.units location
    · exact .inr ⟨vacant, header, member, needed, place, second.stays made⟩

/-- What stands where nothing stood is the unit of a header. -/
theorem made (makes : MakesUnits layout headers before after)
    (vacant : before.tree.aspect? location = none)
    (there : after.tree.aspect? location = some aspect) :
    ∃ header ∈ headers, needsUnit layout header = true ∧ unitPlace header = location ∧
      aspect = .file (encode (unitText layout header)) := by
  rcases makes.units location with same | ⟨-, header, member, needed, place, unit⟩
  · rw [← same, there] at vacant
    cases vacant
  · exact ⟨header, member, needed, place, Option.some.inj (there.symm.trans unit)⟩

/-- Directories are not made. -/
theorem dir (makes : MakesUnits layout headers before after)
    (there : after.tree.aspect? location = some .dir) :
    before.tree.aspect? location = some .dir := by
  rcases makes.units location with same | ⟨-, header, -, -, -, made⟩
  · exact same.symm.trans there
  · rw [there] at made
    cases made

end MakesUnits

/-- **An examination makes the unit of its header** or nothing. -/
theorem Pairs.makesUnits (pairs : Pairs layout correct header disk outcome after)
    (plain : disk.tree.Plain) (stands : header.Stands disk) (member : header ∈ headers) :
    MakesUnits layout headers disk after := by
  cases pairs with
  | fine paired => rfl
  | left missing hopeless => rfl
  | made inside allowed missing present free unlocked =>
      obtain ⟨spelled, -⟩ := stands.directory plain
      have grows := Disk.alters_put_new plain present free (isName_unitName spelled)
        (encode (unitText layout header))
      refine ⟨grows.toExtends, grows.plain, fun location => ?_⟩
      by_cases here : unitPlace header = location
      · subst here
        have needed := ((unpaired_iff plain stands).mp missing).1
        exact .inr ⟨aspect?_unitPlace_eq_none present free, header, member, needed, rfl,
          aspect?_put_unit present free _ _⟩
      · exact .inl (grows.elsewhere location (Ne.symm here))

/-- A header that was examined has a unit, if one can be written. -/
theorem Pairs.paired (pairs : Pairs layout true header disk outcome after)
    (plain : disk.tree.Plain) (stands : header.Stands disk)
    (needed : needsUnit layout header = true) (writable : disk.Writable (unitPlace header)) :
    after.tree.outline? (unitPlace header) = some .file := by
  cases pairs with
  | fine paired =>
      rw [← Bool.not_eq_true, unpaired_iff plain stands, not_and_not_right] at paired
      exact paired needed
  | left missing hopeless =>
      rcases hopeless rfl with dir | ⟨-, shut⟩
      · obtain ⟨_ | _ | _, there, same⟩ := Option.map_eq_some_iff.mp dir
        · cases same
        · cases same
        · exact (writable.2 there).elim
      · rw [writable.1] at shut
        cases shut
  | made inside allowed missing present free unlocked =>
      exact Amendment.outline?_of_aspect? (aspect?_put_unit present free _ _)

end MakesUnits

/-! ### The check -/

section Check
variable (settings : Console.Settings) {layout : Layout} {listing : Listing} {world : World}
  (faithful : listing.Faithful) (plain : world.disk.tree.Plain)
include faithful plain

private theorem examinePairing_makesUnits (correct : Bool) :
    ∀ header ∈ SourceKind.headers.sources layout listing world.disk, ∀ between : World,
      MakesUnits layout (SourceKind.headers.sources layout listing world.disk) world.disk
          between.disk →
        MakesUnits layout (SourceKind.headers.sources layout listing world.disk) between.disk
          (examinePairing settings layout correct header between).2.disk := by
  intro header member between reached
  have stands := (Disk.stands_of_mem_enumerate plain faithful member).1.extends reached.toExtends
  have pairs : Pairs layout correct header between.disk _ _ :=
    examinePairing_pairs settings (reached.plain plain) stands
  exact pairs.makesUnits (reached.plain plain) stands member

/-- What a check does to a disk is make units of headers. -/
theorem examineHeaders_makesUnits (correct : Bool) :
    MakesUnits layout (SourceKind.headers.sources layout listing world.disk) world.disk
      (examineHeaders settings layout correct listing world).2.disk :=
  rel_examineAll _ (.refl _ _) .trans (examinePairing_makesUnits settings faithful plain correct)

/-- **Every header has a unit after a correcting check**, if one can be written. -/
theorem examineHeaders_paired {header : SourceFile}
    (member : header ∈ SourceKind.headers.sources layout listing world.disk)
    (needed : needsUnit layout header = true) (writable : world.disk.Writable (unitPlace header)) :
    (examineHeaders settings layout true listing world).2.disk.tree.outline? (unitPlace header) =
      some .file := by
  obtain ⟨between, reached, later⟩ := exists_turn _ (MakesUnits.refl _ _) .trans
    (examinePairing_makesUnits settings faithful plain true) member
  have stands := (Disk.stands_of_mem_enumerate plain faithful member).1.extends reached.toExtends
  have pairs : Pairs layout true header between.disk _ _ :=
    examinePairing_pairs settings (reached.plain plain) stands
  have still : between.disk.Writable (unitPlace header) :=
    ⟨by rw [reached.locked, writable.1], fun dir => writable.2 (reached.dir dir)⟩
  exact later.kept _ _ (pairs.paired (reached.plain plain) stands needed still)

/-- Headers that share the place of their units are the same, or one of them has no name but the
ending. -/
theorem eq_or_bare_of_unitPlace {header other : SourceFile}
    (member : header ∈ SourceKind.headers.sources layout listing world.disk)
    (memberToo : other ∈ SourceKind.headers.sources layout listing world.disk)
    (same : unitPlace header = unitPlace other) :
    header = other ∨ header.name = ".h" ∧ other.name = ".h.h" ∨
      header.name = ".h.h" ∧ other.name = ".h" := by
  obtain ⟨directories, units⟩ := List.append_inj' same rfl
  refine (name_eq_or_bare (Disk.stands_of_mem_enumerate plain faithful member).2
    (Disk.stands_of_mem_enumerate plain faithful memberToo).2
    (List.singleton_injective units)).imp_left fun names => ?_
  refine Disk.injOn_location plain faithful header member other memberToo ?_
  rw [SourceFile.location, SourceFile.location, directories, names]

/-- **Every unit that the pairing check makes is right for its header**, whatever the tree of
directories and regular files looks like and wherever the paths start. -/
theorem checkPairing_makes_units (correct : Bool)
    (inside : Path.components layout.sourcesDir <+: Path.components layout.libraryDir)
    (straight : ∀ header ∈ SourceKind.headers.sources layout listing world.disk,
      '\\' ∉ header.path.toList ∧ '\n' ∉ header.path.toList) :
    let headers := SourceKind.headers.sources layout listing world.disk
    let after := (checkPairing settings layout listing correct world).2.disk
    (∀ location content, world.disk.tree.aspect? location = none →
        after.tree.aspect? location = some (.file content) →
          ∃ header ∈ headers, needsUnit layout header = true ∧
            world.disk.isFileIn header.directory (unitName header) = false ∧
            location = header.directory ++ [Path.withExtension "cpp" header.name] ∧
            IsUnitOf layout header content) ∧
      (correct = true → ∀ header ∈ headers, needsUnit layout header = true →
        world.disk.isFileIn header.directory (unitName header) = false →
          world.disk.Writable (unitPlace header) →
            world.disk.tree.aspect? (unitPlace header) = none ∧
              ∃ content, after.tree.aspect? (unitPlace header) = some (.file content) ∧
                ∃ other ∈ headers, IsUnitOf layout other content ∧
                  other.directory = header.directory ∧
                  (header = other ∨ header.name = ".h" ∧ other.name = ".h.h" ∨
                    header.name = ".h.h" ∧ other.name = ".h")) ∧
      (∀ location content, world.disk.tree.aspect? location = some (.file content) →
        after.tree.aspect? location = some (.file content)) ∧
      ∀ header, hasLicense (encode (unitFor header)) = true := by
  intro headers after
  have right (header : SourceFile) (member : header ∈ headers) :
      IsUnitOf layout header (encode (unitText layout header)) :=
    isUnitOf_unitText
      (inside.trans (Disk.components_prefix_of_mem_enumerate plain faithful member))
      (straight header member).1 (straight header member).2
  have makes : MakesUnits layout headers world.disk after :=
    examineHeaders_makesUnits settings faithful plain correct
  have paired_iff (header : SourceFile) (member : header ∈ headers) :=
    isFileIn_unitName_iff plain (Disk.stands_of_mem_enumerate plain faithful member).1
  refine ⟨fun location content vacant made => ?_,
    fun allowed header member needed missing writable => ?_, fun location content => makes.stays,
    hasLicense_unitFor⟩
  · obtain ⟨header, member, needed, place, unit⟩ := makes.made vacant made
    refine ⟨header, member, needed, Bool.eq_false_iff.mpr fun file => ?_, place.symm, ?_⟩
    · rw [paired_iff header member, Tree.outline?, place, vacant] at file
      cases file
    · rw [Aspect.file.inj unit]
      exact right header member
  · subst allowed
    have file := examineHeaders_paired settings faithful plain member needed writable
    rcases makes.units (unitPlace header) with same | ⟨vacant, other, memberToo, -, place, unit⟩
    · have stood : world.disk.tree.outline? (unitPlace header) = some .file := by
        rw [Tree.outline?, ← same]
        exact file
      rw [(paired_iff header member).mpr stood] at missing
      cases missing
    · refine ⟨vacant, _, unit, other, memberToo, right other memberToo,
        (List.append_inj' place rfl).1, ?_⟩
      exact eq_or_bare_of_unitPlace faithful plain member memberToo place.symm

end Check

/-- A layout whose root is spelled with dots. -/
def dottedLayout : Layout where
  root := "./."

/-- A library of one header with two dots in its name, in a directory with a dot in its name. -/
def dottedHeader : World where
  disk :=
    { tree :=
        .dir "src" (.dir "agrum" (.dir "base.x" (.leaf "a.b.h" (.file (encode "int a;\n") false)
          .empty) .empty) .empty) .empty }

private theorem isFileIn_dottedHeader :
    dottedHeader.disk.isFileIn ["src", "agrum", "base.x"] "a.b.cpp" = false := by
  have plain : dottedHeader.disk.tree.Plain := by decide
  rw [← Bool.not_eq_true, Disk.isFileIn_iff plain ⟨by decide, by decide⟩ rfl]
  decide

private theorem sources_dottedHeader :
    SourceKind.headers.sources dottedLayout id dottedHeader.disk =
      [⟨"././src/agrum/base.x/a.b.h", ["src", "agrum", "base.x"], "a.b.h"⟩] := by
  have start : SourceKind.headers.start dottedLayout = "././src/agrum" := by decide
  have steps : Disk.steps "././src/agrum" = [".", ".", "src", "agrum"] := by decide
  have relative : Path.isAbsolute "././src/agrum" = false := by decide
  have accepted : SourceKind.headers.pattern.accepts "a.b.h" = true := by decide
  have path : Path.join (Path.join "././src/agrum" "base.x") "a.b.h" =
      "././src/agrum/base.x/a.b.h" := by decide
  simp [SourceKind.sources, start, Disk.enumerate, Disk.locate, Disk.locateFrom, steps, relative,
    dottedHeader, Disk.follow, Tree.at?, Tree.find?, Tree.files, Tree.filesInside, Tree.ownFiles,
    accepted, SourceFile.below, path]

/-- The unit of a header below a root that is spelled with dots includes it by its path in the
sources. -/
theorem checkPairing_makes_units_dotted :
    let header : SourceFile :=
      ⟨"././src/agrum/base.x/a.b.h", ["src", "agrum", "base.x"], "a.b.h"⟩
    let after := (checkPairing {} dottedLayout id true dottedHeader).2.disk
    dottedHeader.disk.tree.Plain ∧
      Path.components dottedLayout.sourcesDir <+: Path.components dottedLayout.libraryDir ∧
      header ∈ SourceKind.headers.sources dottedLayout id dottedHeader.disk ∧
      ∃ content,
        after.tree.aspect? ["src", "agrum", "base.x", "a.b.cpp"] = some (.file content) ∧
          IsUnitOf dottedLayout header content := by
  intro header after
  have plain : dottedHeader.disk.tree.Plain := by decide
  have faithful : Listing.Faithful id := fun tree => Tree.Reordered.refl tree
  have inside : Path.components dottedLayout.sourcesDir <+:
      Path.components dottedLayout.libraryDir := by decide
  have member : header ∈ SourceKind.headers.sources dottedLayout id dottedHeader.disk := by
    rw [sources_dottedHeader]
    exact List.mem_singleton_self _
  have straight : ∀ header ∈ SourceKind.headers.sources dottedLayout id dottedHeader.disk,
      '\\' ∉ header.path.toList ∧ '\n' ∉ header.path.toList := by
    rw [sources_dottedHeader]
    decide
  have needed : needsUnit dottedLayout header = true := by decide
  have unit : unitName header = "a.b.cpp" := by decide
  have missing : dottedHeader.disk.isFileIn header.directory (unitName header) = false := by
    rw [unit]
    exact isFileIn_dottedHeader
  have writable : dottedHeader.disk.Writable (unitPlace header) := by
    rw [unitPlace, unit]
    exact ⟨rfl, by decide⟩
  obtain ⟨-, gets, -⟩ := checkPairing_makes_units {} faithful plain true inside straight
  obtain ⟨-, content, made, other, -, right, -, same | ⟨bare, -⟩ | ⟨bare, -⟩⟩ :=
    gets rfl header member needed missing writable
  · rw [unitPlace, unit] at made
    exact ⟨plain, inside, member, content, made, same ▸ right⟩
  · exact absurd bare (by decide)
  · exact absurd bare (by decide)

/-! ### Headers without a unit

Two headers whose units have one name cannot both get one. And a path to the sources that is spelled
in another way than the path to the library is not found in it: the unit then includes a path that
leads nowhere. -/

/-- Whether the check makes a unit of each header that has none, where one can be written. -/
def GivesUnits (layout : Layout) (world : World) : Prop :=
  ∀ header ∈ SourceKind.headers.sources layout id world.disk, needsUnit layout header = true →
    world.disk.isFileIn header.directory (unitName header) = false →
      world.disk.Writable (unitPlace header) →
        ∃ content, (checkPairing {} layout id true world).2.disk.tree.aspect? (unitPlace header) =
            some (.file content) ∧ IsUnitOf layout header content

/-- A library of two headers, one of which has no name but the ending. -/
def bareHeaders : World where
  disk :=
    { tree :=
        .dir "src"
          (.dir "agrum" (.leaf ".h" (.file [] false) (.leaf ".h.h" (.file [] false) .empty)) .empty)
          .empty }

private theorem sources_bareHeaders :
    SourceKind.headers.sources {} id bareHeaders.disk =
      [⟨"./src/agrum/.h", ["src", "agrum"], ".h"⟩,
        ⟨"./src/agrum/.h.h", ["src", "agrum"], ".h.h"⟩] := by
  have start : SourceKind.headers.start {} = "./src/agrum" := by decide
  have steps : Disk.steps "./src/agrum" = [".", "src", "agrum"] := by decide
  have relative : Path.isAbsolute "./src/agrum" = false := by decide
  have accepted : SourceKind.headers.pattern.accepts ".h" = true := by decide
  have acceptedToo : SourceKind.headers.pattern.accepts ".h.h" = true := by decide
  have path : Path.join "./src/agrum" ".h" = "./src/agrum/.h" := by decide
  have pathToo : Path.join "./src/agrum" ".h.h" = "./src/agrum/.h.h" := by decide
  simp [SourceKind.sources, start, Disk.enumerate, Disk.locate, Disk.locateFrom, steps, relative,
    bareHeaders, Disk.follow, Tree.at?, Tree.find?, Tree.files, Tree.filesInside, Tree.ownFiles,
    accepted, acceptedToo, SourceFile.below, path, pathToo]

private theorem not_givesUnits_bareHeaders : ¬GivesUnits {} bareHeaders := by
  intro gives
  have plain : bareHeaders.disk.tree.Plain := by decide
  have missing : bareHeaders.disk.isFileIn ["src", "agrum"] ".h.cpp" = false := by
    rw [← Bool.not_eq_true, Disk.isFileIn_iff plain ⟨by decide, by decide⟩ rfl]
    decide
  have writable : bareHeaders.disk.Writable ["src", "agrum", ".h.cpp"] := ⟨rfl, by decide⟩
  have gets (path name : String) (unit : Path.withExtension "cpp" name = ".h.cpp")
      (member : ⟨path, ["src", "agrum"], name⟩ ∈
        SourceKind.headers.sources {} id bareHeaders.disk)
      (needed : needsUnit {} ⟨path, ["src", "agrum"], name⟩ = true) :
      ∃ content, (checkPairing {} {} id true bareHeaders).2.disk.tree.aspect?
          ["src", "agrum", ".h.cpp"] = some (.file content) ∧
        IsUnitOf {} ⟨path, ["src", "agrum"], name⟩ content := by
    have place : unitPlace ⟨path, ["src", "agrum"], name⟩ = ["src", "agrum", ".h.cpp"] := by
      rw [unitPlace, unitName, unit]
      rfl
    have result := gives _ member needed (by rw [unitName, unit]; exact missing)
    rw [place] at result
    exact result writable
  obtain ⟨content, made, one⟩ :=
    gets "./src/agrum/.h" ".h" (by decide) (by simp [sources_bareHeaders]) (by decide)
  obtain ⟨content', made', two⟩ :=
    gets "./src/agrum/.h.h" ".h.h" (by decide) (by simp [sources_bareHeaders]) (by decide)
  -- the content at the one place would include both headers
  obtain rfl := Aspect.file.inj (Option.some.inj (made.symm.trans made'))
  exact absurd (one.components_eq two) (by decide)

/-- The dotted layout, where the path to the sources goes there and back again. -/
def roundaboutLayout : Layout :=
  { dottedLayout with sources := "src/../src" }

private theorem not_givesUnits_roundabout : ¬GivesUnits roundaboutLayout dottedHeader := by
  intro gives
  have plain : dottedHeader.disk.tree.Plain := by decide
  have faithful : Listing.Faithful id := fun tree => Tree.Reordered.refl tree
  have listed : SourceKind.headers.sources roundaboutLayout id dottedHeader.disk =
      [⟨"././src/agrum/base.x/a.b.h", ["src", "agrum", "base.x"], "a.b.h"⟩] :=
    sources_dottedHeader
  have unit : unitName ⟨"././src/agrum/base.x/a.b.h", ["src", "agrum", "base.x"], "a.b.h"⟩ =
      "a.b.cpp" := by
    decide
  have vacant : dottedHeader.disk.tree.aspect? ["src", "agrum", "base.x", "a.b.cpp"] = none := by
    simp [dottedHeader, Tree.aspect?, Tree.at?, Tree.find?]
  obtain ⟨content, made, right⟩ :=
    gives ⟨"././src/agrum/base.x/a.b.h", ["src", "agrum", "base.x"], "a.b.h"⟩
      (by simp [listed]) (by decide) (by rw [unit]; exact isFileIn_dottedHeader)
      ⟨rfl, by rw [unitPlace, unit]; decide⟩
  rw [unitPlace, unit] at made
  have makes : MakesUnits roundaboutLayout _ dottedHeader.disk
      (checkPairing {} roundaboutLayout id true dottedHeader).2.disk :=
    examineHeaders_makesUnits {} faithful plain true
  obtain ⟨header, member, -, -, written⟩ := makes.made vacant made
  rw [listed, List.mem_singleton] at member
  subst member
  -- the path of the sources is not found in that of the header, which is included as a whole
  have shown : Path.relativeTo roundaboutLayout.sourcesDir "././src/agrum/base.x/a.b.h" =
      "././src/agrum/base.x/a.b.h" := by
    decide
  rw [Aspect.file.inj written, unitText, shown] at right
  exact absurd (right.leads (by decide)) (by decide)

/-- **Not every header gets its unit**: neither where two headers of one directory share it, nor
where the library lies in the directory of the sources, but by another path. -/
theorem checkPairing_leaves_headers :
    (bareHeaders.disk.tree.Plain ∧
      Path.components ({} : Layout).sourcesDir <+: Path.components ({} : Layout).libraryDir ∧
      ¬GivesUnits {} bareHeaders) ∧
    dottedHeader.disk.tree.Plain ∧
      (∃ item, dottedHeader.disk.open? roundaboutLayout.sourcesDir = .ok (["src"], item)) ∧
      (∃ item, dottedHeader.disk.open? roundaboutLayout.libraryDir = .ok (["src", "agrum"], item)) ∧
      ¬GivesUnits roundaboutLayout dottedHeader := by
  have sources : roundaboutLayout.sourcesDir = "././src/../src" := by decide
  have library : roundaboutLayout.libraryDir = "././src/agrum" := by decide
  have back : Disk.steps "././src/../src" = [".", ".", "src", "..", "src"] := by decide
  have straight : Disk.steps "././src/agrum" = [".", ".", "src", "agrum"] := by decide
  have relative : Path.isAbsolute "././src/../src" = false := by decide
  have relativeToo : Path.isAbsolute "././src/agrum" = false := by decide
  refine ⟨⟨by decide, by decide, not_givesUnits_bareHeaders⟩, by decide, ?_, ?_,
    not_givesUnits_roundabout⟩
  · simp [sources, Disk.open?, Disk.locate, Disk.locateFrom, back, relative, Disk.follow,
      dottedHeader, Tree.at?, Tree.find?]
  · simp [library, Disk.open?, Disk.locate, Disk.locateFrom, straight, relativeToo, Disk.follow,
      dottedHeader, Tree.at?, Tree.find?]

end BuildWarden.Guideline
