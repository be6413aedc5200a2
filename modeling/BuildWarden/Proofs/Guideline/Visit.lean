import BuildWarden.Proofs.Guideline.Amendment
import BuildWarden.Proofs.Tree.Alteration
/-!
# Visits

The record of a check: each source that it visited, in order, with what became of it and what was
printed meanwhile. A check that changes only the contents of files visits the sources that were
there when it started, whatever kind they are of.
-/

namespace BuildWarden.Guideline

/-- A source that a check visited, what became of it, and what was printed meanwhile. -/
structure Visit where
  file : SourceFile
  outcome : Outcome
  printed : List Entry

/-- The source with what became of it. -/
def Visit.verdict (visit : Visit) : SourceFile × Outcome :=
  (visit.file, visit.outcome)

/-- What became of the sources whose sites are not set apart. -/
def verdictsElsewhere (site : SourceFile → Location) (apart : Location → Prop)
    [DecidablePred apart] (visits : List Visit) : List (SourceFile × Outcome) :=
  (visits.map Visit.verdict).filter fun verdict => !decide (apart (site verdict.1))

/-- The visits of sources one after the other. -/
def visitAll (examine : Examination) : List SourceFile → World → List Visit
  | [], _ => []
  | file :: rest, world =>
    let (outcome, after) := examine file world
    { file, outcome, printed := after.transcript.drop world.transcript.length } ::
      visitAll examine rest after

/-- The visits of kinds of sources one after the other. -/
def visitKinds (examine : Examination) (layout : Layout) (listing : SourceKind → Listing) :
    List SourceKind → World → List Visit
  | [], _ => []
  | kind :: rest, world =>
    let files := kind.sources layout (listing kind) world.disk
    visitAll examine files world ++
      visitKinds examine layout listing rest (examineAll examine files world).2

section Visit
variable {examine : Examination} {layout : Layout} {listing : SourceKind → Listing}
  {kinds : List SourceKind} {files : List SourceFile} {world : World}

/-- The first source is examined first, and the others on the world that this leaves. -/
theorem examineAll_cons (file : SourceFile) (rest : List SourceFile) (world : World) :
    examineAll examine (file :: rest) world =
      ((examine file world).1 :: (examineAll examine rest (examine file world).2).1,
        (examineAll examine rest (examine file world).2).2) :=
  rfl

/-- The first visit is that of the first source, with what was printed meanwhile. -/
theorem visitAll_cons (file : SourceFile) (rest : List SourceFile) (world : World) :
    visitAll examine (file :: rest) world =
      ⟨file, (examine file world).1,
          (examine file world).2.transcript.drop world.transcript.length⟩ ::
        visitAll examine rest (examine file world).2 :=
  rfl

/-- The first kind is listed and examined first, and the others on the world that this leaves. -/
theorem examineKinds_cons (kind : SourceKind) (rest : List SourceKind) (world : World) :
    examineKinds examine layout listing (kind :: rest) world =
      ((examineAll examine (kind.sources layout (listing kind) world.disk) world).1 ++
          (examineKinds examine layout listing rest
            (examineAll examine (kind.sources layout (listing kind) world.disk) world).2).1,
        (examineKinds examine layout listing rest
          (examineAll examine (kind.sources layout (listing kind) world.disk) world).2).2) :=
  rfl

/-- The outcomes of the visits are those of the examinations. -/
theorem map_outcome_visitAll (files : List SourceFile) (world : World) :
    (visitAll examine files world).map Visit.outcome = (examineAll examine files world).1 := by
  induction files generalizing world with
  | nil => rfl
  | cons file rest ih =>
      rw [visitAll_cons, examineAll_cons, List.map_cons, ih]

/-- What a check counts are the outcomes of its visits. -/
theorem map_outcome_visitKinds (kinds : List SourceKind) (world : World) :
    (visitKinds examine layout listing kinds world).map Visit.outcome =
      (examineKinds examine layout listing kinds world).1 := by
  induction kinds generalizing world with
  | nil => rfl
  | cons kind rest ih =>
      rw [visitKinds, examineKinds_cons, List.map_append, map_outcome_visitAll, ih]

/-! ### What each examination keeps -/

/-- The visit of one source. -/
def visitOne (examine : Examination) (file : SourceFile) (world : World) : Visit where
  file := file
  outcome := (examine file world).1
  printed := (examine file world).2.transcript.drop world.transcript.length

section Kept
variable {visit : Visit} (Kept : World → Prop)
  (step : ∀ file world, Kept world → Kept (examine file world).2)
include step

private theorem kept_examineAll (kept : Kept world) : Kept (examineAll examine files world).2 := by
  induction files generalizing world with
  | nil => exact kept
  | cons file rest ih => exact ih (step file world kept)

/-- What each examination keeps, a check keeps. -/
theorem kept_examineKinds (kept : Kept world) :
    Kept (examineKinds examine layout listing kinds world).2 := by
  induction kinds generalizing world with
  | nil => exact kept
  | cons kind rest ih => exact ih (kept_examineAll Kept step kept)

private theorem exists_visitAll (kept : Kept world)
    (member : visit ∈ visitAll examine files world) :
    ∃ between, Kept between ∧ visit = visitOne examine visit.file between := by
  induction files generalizing world with
  | nil => cases member
  | cons file rest ih =>
      rw [visitAll_cons, List.mem_cons] at member
      rcases member with rfl | member
      · exact ⟨world, kept, rfl⟩
      · exact ih (step file world kept) member

/-- Each visit of a check finds what each examination keeps. -/
theorem exists_visitKinds (kept : Kept world)
    (member : visit ∈ visitKinds examine layout listing kinds world) :
    ∃ between, Kept between ∧ visit = visitOne examine visit.file between := by
  induction kinds generalizing world with
  | nil => cases member
  | cons kind rest ih =>
      rw [visitKinds, List.mem_append] at member
      rcases member with here | later
      · exact exists_visitAll Kept step kept here
      · exact ih (kept_examineAll Kept step kept) later

end Kept

/-- Each visit was an examination in some world. -/
theorem outcome_of_mem_visitAll {visit : Visit} (member : visit ∈ visitAll examine files world) :
    ∃ between, visit.outcome = (examine visit.file between).1 := by
  obtain ⟨between, -, same⟩ :=
    exists_visitAll (fun _ => True) (fun _ _ _ => trivial) trivial member
  exact ⟨between, congrArg Visit.outcome same⟩

/-- Each visit of kinds of sources was an examination in some world. -/
theorem outcome_of_mem_visitKinds {visit : Visit}
    (member : visit ∈ visitKinds examine layout listing kinds world) :
    ∃ between, visit.outcome = (examine visit.file between).1 := by
  obtain ⟨between, -, same⟩ :=
    exists_visitKinds (fun _ => True) (fun _ _ _ => trivial) trivial member
  exact ⟨between, congrArg Visit.outcome same⟩

private theorem examineAll_append (front back : List SourceFile) (world : World) :
    examineAll examine (front ++ back) world =
      ((examineAll examine front world).1 ++
          (examineAll examine back (examineAll examine front world).2).1,
        (examineAll examine back (examineAll examine front world).2).2) := by
  induction front generalizing world with
  | nil => rfl
  | cons file rest ih =>
      rw [List.cons_append, examineAll_cons, examineAll_cons, ih]
      rfl

private theorem visitAll_append (front back : List SourceFile) (world : World) :
    visitAll examine (front ++ back) world =
      visitAll examine front world ++
        visitAll examine back (examineAll examine front world).2 := by
  induction front generalizing world with
  | nil => rfl
  | cons file rest ih =>
      rw [List.cons_append, visitAll_cons, visitAll_cons, examineAll_cons, ih]
      rfl

/-! ### What is printed -/

/-- An examination that takes nothing back that was printed. -/
def Appends (examine : Examination) : Prop :=
  ∀ file world, world.transcript <+: (examine file world).2.transcript

/-- A check prints what its visits print, one after the other. -/
theorem transcript_examineAll (appends : Appends examine) (files : List SourceFile)
    (world : World) :
    (examineAll examine files world).2.transcript =
      world.transcript ++ (visitAll examine files world).flatMap Visit.printed := by
  induction files generalizing world with
  | nil => simp [examineAll, visitAll]
  | cons file rest ih =>
      obtain ⟨more, written⟩ := appends file world
      rw [examineAll_cons, visitAll_cons, List.flatMap_cons, ih]
      dsimp only
      rw [← written, List.drop_left, List.append_assoc]

/-- What a check prints is what is printed during its visits. -/
theorem transcript_examineKinds (appends : Appends examine) (kinds : List SourceKind)
    (world : World) :
    (examineKinds examine layout listing kinds world).2.transcript =
      world.transcript ++
        (visitKinds examine layout listing kinds world).flatMap Visit.printed := by
  induction kinds generalizing world with
  | nil => simp [examineKinds, visitKinds]
  | cons kind rest ih =>
      rw [examineKinds_cons, visitKinds, List.flatMap_append]
      dsimp only
      rw [ih, transcript_examineAll appends, List.append_assoc]

/-! ### Relations that each examination keeps -/

/-- A preorder of disks that each examination keeps is kept by all of them together. -/
theorem rel_examineAll (Rel : Disk → Disk → Prop) (refl : ∀ disk, Rel disk disk)
    (trans : ∀ {one two three}, Rel one two → Rel two three → Rel one three)
    (step : ∀ file ∈ files, ∀ between : World, Rel world.disk between.disk →
      Rel between.disk (examine file between).2.disk) :
    Rel world.disk (examineAll examine files world).2.disk := by
  -- the induction is over what is left of the list, while the relation stays one to the first disk
  have further (rest : List SourceFile) (known : ∀ file ∈ rest, file ∈ files) (between : World)
      (reached : Rel world.disk between.disk) :
      Rel world.disk (examineAll examine rest between).2.disk := by
    induction rest generalizing between with
    | nil => exact reached
    | cons file rest ih =>
        have here := step file (known file (by simp)) between reached
        exact ih (fun other member => known other (by simp [member])) _ (trans reached here)
  exact further files (fun _ member => member) world (refl _)

/-- Each source has its turn: the relation leads from the first disk to the one that its examination
finds, and from what that leaves to the last one. -/
theorem exists_turn (Rel : Disk → Disk → Prop) (refl : ∀ disk, Rel disk disk)
    (trans : ∀ {one two three}, Rel one two → Rel two three → Rel one three)
    (step : ∀ file ∈ files, ∀ between : World, Rel world.disk between.disk →
      Rel between.disk (examine file between).2.disk)
    {file : SourceFile} (member : file ∈ files) :
    ∃ between : World, Rel world.disk between.disk ∧
      Rel (examine file between).2.disk (examineAll examine files world).2.disk := by
  obtain ⟨front, back, rfl⟩ := List.append_of_mem member
  have first : Rel world.disk (examineAll examine front world).2.disk :=
    rel_examineAll Rel refl trans fun other known => step other (List.mem_append_left _ known)
  refine ⟨(examineAll examine front world).2, first, ?_⟩
  rw [examineAll_append, examineAll_cons]
  have here := trans first (step file (by simp) _ first)
  refine rel_examineAll Rel refl trans fun other known between reached => ?_
  exact step other (by simp [known]) between (trans here reached)

/-- What alters a source alone changes only its content. -/
theorem refills_of_stands {file : SourceFile} {before after : Disk} {altered : Location → Prop}
    (stands : file.Stands before) (alters : before.Alters altered after)
    (only : ∀ location, altered location → file.location = location) : before.Refills after := by
  refine alters.refills fun location here vacant => ?_
  obtain ⟨content, present⟩ := stands.aspect?
  rw [← only location here, Amendment.outline?_of_aspect? present] at vacant
  cases vacant

/-- **A check whose examinations keep the listings visits the sources that are there when it
starts**, as if they were of one kind. -/
theorem exists_listed_files {start : Disk} (Rel : Disk → Disk → Prop)
    (refl : ∀ disk, Rel disk disk)
    (trans : ∀ {one two three}, Rel one two → Rel two three → Rel one three)
    (same : ∀ (kind : SourceKind) disk, Rel start disk →
      (kind.sources layout (listing kind) disk).Perm (kind.sources layout (listing kind) start))
    (step : ∀ (kind : SourceKind), ∀ file ∈ kind.sources layout (listing kind) start,
      ∀ between : World, Rel start between.disk → Rel between.disk (examine file between).2.disk)
    (kinds : List SourceKind) (reached : Rel start world.disk) :
    ∃ files : List SourceFile,
      files.Perm (kinds.flatMap fun kind => kind.sources layout (listing kind) start) ∧
      examineKinds examine layout listing kinds world = examineAll examine files world ∧
      visitKinds examine layout listing kinds world = visitAll examine files world := by
  induction kinds generalizing world with
  | nil => exact ⟨[], .nil, rfl, rfl⟩
  | cons kind rest ih =>
      have here : Rel world.disk
          (examineAll examine (kind.sources layout (listing kind) world.disk) world).2.disk := by
        refine rel_examineAll Rel refl trans fun file member between further => ?_
        exact step kind file ((same kind _ reached).mem_iff.mp member) between
          (trans reached further)
      obtain ⟨files, permuted, examined, visited⟩ := ih (trans reached here)
      refine ⟨kind.sources layout (listing kind) world.disk ++ files, ?_, ?_, ?_⟩
      · rw [List.flatMap_cons]
        exact (same kind _ reached).append permuted
      · rw [examineKinds_cons, examined, examineAll_append]
      · rw [visitKinds, visited, visitAll_append]

/-- **A check that changes only the contents of files visits the sources that are there when it
starts**, as if they were of one kind. -/
theorem exists_files (kinds : List SourceKind) (plain : world.disk.tree.Plain)
    (faithful : ∀ kind, (listing kind).Faithful)
    (refills : ∀ file (between : World), world.disk.Refills between.disk →
      IsLibrarySource layout file between.disk →
        between.disk.Refills (examine file between).2.disk) :
    ∃ files : List SourceFile,
      files.Perm (kinds.flatMap fun kind => kind.sources layout (listing kind) world.disk) ∧
      examineKinds examine layout listing kinds world = examineAll examine files world ∧
      visitKinds examine layout listing kinds world = visitAll examine files world := by
  refine exists_listed_files Disk.Refills Disk.Refills.refl Disk.Refills.trans ?_ ?_ kinds (.refl _)
  · -- what is listed later is listed now as well: only contents have changed
    intro kind disk reached
    exact (reached.enumerate_perm plain (reached.plain plain) (faithful kind) (faithful kind)
      fun _ none => none.elim).symm
  · intro kind file member between reached
    obtain ⟨below, stands⟩ := Amendment.isLibrarySource_of_mem plain (faithful kind) member
    exact refills file between reached ⟨below, stands.extends reached.toExtends⟩

/-- **A check alters what its examinations alter**, at sources that were there when it started. -/
theorem alters_examineKinds {touched : SourceFile → Prop} (plain : world.disk.tree.Plain)
    (faithful : ∀ kind, (listing kind).Faithful)
    (each : ∀ file (between : World), between.disk.locked = world.disk.locked →
      between.disk.tree.Plain → IsLibrarySource layout file between.disk →
        between.disk.Alters (fun location => touched file ∧ file.location = location)
          (examine file between).2.disk) :
    world.disk.Alters (fun location => ∃ file ∈ kinds.flatMap fun kind =>
        kind.sources layout (listing kind) world.disk, touched file ∧ file.location = location)
      (examineKinds examine layout listing kinds world).2.disk := by
  have refills (file : SourceFile) (between : World) (reached : world.disk.Refills between.disk)
      (source : IsLibrarySource layout file between.disk) :
      between.disk.Refills (examine file between).2.disk := by
    have alters := each file between reached.locked (reached.plain plain) source
    exact refills_of_stands source.2 alters fun location touches => touches.2
  obtain ⟨files, same, examined, -⟩ := exists_files kinds plain faithful refills
  rw [examined]
  refine rel_examineAll _ (Disk.Alters.refl _) Disk.Alters.trans ?_
  intro file member between reached
  rw [same.mem_iff] at member
  obtain ⟨kind, -, listed⟩ := List.mem_flatMap.mp member
  obtain ⟨below, stands⟩ := Amendment.isLibrarySource_of_mem plain (faithful kind) listed
  have alters := each file between reached.locked (reached.plain plain)
    ⟨below, stands.extends reached.toExtends⟩
  exact alters.mono fun location touches => ⟨file, member, touches⟩

/-- A check whose examinations leave the disk alone leaves it alone. -/
theorem still_examineKinds (plain : world.disk.tree.Plain)
    (faithful : ∀ kind, (listing kind).Faithful)
    (still : ∀ file (between : World), between.disk = world.disk →
      IsLibrarySource layout file between.disk → (examine file between).2.disk = between.disk) :
    (examineKinds examine layout listing kinds world).2.disk = world.disk := by
  induction kinds generalizing world with
  | nil => rfl
  | cons kind rest ih =>
      have here : world.disk =
          (examineAll examine (kind.sources layout (listing kind) world.disk) world).2.disk := by
        refine rel_examineAll Eq Eq.refl Eq.trans ?_
        intro file member between same
        have source := Amendment.isLibrarySource_of_mem plain (faithful kind) member
        exact (still file between same.symm (same ▸ source)).symm
      rw [examineKinds_cons]
      rw [here] at plain still
      exact (ih plain still).trans here.symm

/-- **A source is listed after an alteration** if and only if it was listed before, where its place
looks the same. -/
theorem mem_librarySources_iff {again : SourceKind → Listing} {file : SourceFile}
    {before after : Disk} {altered : Location → Prop} (alters : before.Alters altered after)
    (plain : before.tree.Plain) (faithful : ∀ kind, (listing kind).Faithful)
    (faithfulAgain : ∀ kind, (again kind).Faithful)
    (same : after.tree.outline? file.location = before.tree.outline? file.location) :
    file ∈ librarySources layout listing after ↔ file ∈ librarySources layout again before := by
  have plainAfter := alters.plain plain
  constructor
  · intro member
    obtain ⟨kind, known, within⟩ := List.mem_flatMap.mp member
    refine List.mem_flatMap.mpr ⟨kind, known, ?_⟩
    exact alters.agree.symm.mem_enumerate plainAfter plain (faithful kind) (faithfulAgain kind)
      same.symm within
  · intro member
    obtain ⟨kind, known, within⟩ := List.mem_flatMap.mp member
    refine List.mem_flatMap.mpr ⟨kind, known, ?_⟩
    exact alters.agree.mem_enumerate plain plainAfter (faithfulAgain kind) (faithful kind)
      same within

end Visit
end BuildWarden.Guideline
