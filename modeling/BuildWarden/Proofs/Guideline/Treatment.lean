import BuildWarden.Proofs.Guideline.Visit
/-!
# Treatments

An examination that decides by what stands at one location, its site, and changes nothing else. When
the sites of the sources are different, no examination sees what another one did: what becomes of
each source can be told from the disk on which the check starts, and the order is of no account. So
two checks that treat most sources alike end alike, apart from the sites of the others.
-/

namespace BuildWarden.Guideline

/-- What becomes of a source, and what is left at its site, by what stood there. -/
structure Treatment (site : SourceFile → Location) where
  outcome : SourceFile → Option Aspect → Outcome
  leaves : SourceFile → Option Aspect → Option Aspect

namespace Treatment
variable {site : SourceFile → Location} {treatment one two : Treatment site}
  {apart : Location → Prop}

/-- An examination of a source that goes as the treatment says. -/
structure Follows (treatment : Treatment site) (file : SourceFile) (before : Disk)
    (outcome : Outcome) (after : Disk) : Prop where
  decides : outcome = treatment.outcome file (before.tree.aspect? (site file))
  leaves : after.tree.aspect? (site file) =
    treatment.leaves file (before.tree.aspect? (site file))
  alters : before.Alters (· = site file) after

/-- An examination that goes as the treatment says for each library source. -/
def Governs (treatment : Treatment site) (layout : Layout) (locked : Location → Bool)
    (examine : Examination) : Prop :=
  ∀ file world, world.disk.locked = locked → world.disk.tree.Plain →
    IsLibrarySource layout file world.disk →
      treatment.Follows file world.disk (examine file world).1 (examine file world).2.disk

/-- Two treatments that differ only for sources whose sites are set apart. -/
def Alike (apart : Location → Prop) (one two : Treatment site) : Prop :=
  ∀ file, ¬apart (site file) →
    two.outcome file = one.outcome file ∧ two.leaves file = one.leaves file

/-! ### One list of sources -/

section ExamineAll
variable {layout : Layout} {locked lockedToo : Location → Bool} {examine again : Examination}
  {files others : List SourceFile} {world next : World}

section Governed
variable (governs : treatment.Governs layout locked examine) (fixed : world.disk.locked = locked)
  (plain : world.disk.tree.Plain)
  (stand : ∀ file ∈ files, IsLibrarySource layout file world.disk)
include governs fixed plain stand

private theorem alters_examineAll :
    world.disk.Alters (fun location => ∃ file ∈ files, site file = location)
      (examineAll examine files world).2.disk := by
  refine rel_examineAll _ (Disk.Alters.refl _) Disk.Alters.trans ?_
  intro file member between reached
  obtain ⟨below, stands⟩ := stand file member
  have follows := governs file between (reached.locked.trans fixed) (reached.plain plain)
    ⟨below, stands.extends reached.toExtends⟩
  exact follows.alters.mono fun location same => ⟨file, member, same.symm⟩

/-- **What becomes of each source, and of its site, can be told from the disk at the start.** -/
theorem verdicts_examineAll (once : (files.map site).Nodup) :
    (visitAll examine files world).map Visit.verdict =
        (files.map fun file =>
          (file, treatment.outcome file (world.disk.tree.aspect? (site file)))) ∧
      ∀ file ∈ files, (examineAll examine files world).2.disk.tree.aspect? (site file) =
        treatment.leaves file (world.disk.tree.aspect? (site file)) := by
  induction files generalizing world with
  | nil => exact ⟨rfl, by simp⟩
  | cons file rest ih =>
      rw [List.map_cons, List.nodup_cons] at once
      obtain ⟨unique, once⟩ := once
      have follows := governs file world fixed plain (stand file (by simp))
      have fixedNow := follows.alters.locked.trans fixed
      have plainNow := follows.alters.plain plain
      have standNow : ∀ other ∈ rest, IsLibrarySource layout other (examine file world).2.disk := by
        intro other member
        obtain ⟨below, stands⟩ := stand other (by simp [member])
        exact ⟨below, stands.extends follows.alters.toExtends⟩
      -- the sites are different, so the others find what stood there at the start
      have untouched : ∀ other ∈ rest,
          (examine file world).2.disk.tree.aspect? (site other) =
            world.disk.tree.aspect? (site other) := by
        intro other member
        refine follows.alters.elsewhere _ fun same => unique ?_
        exact List.mem_map.mpr ⟨other, member, same⟩
      obtain ⟨told, left⟩ := ih fixedNow plainNow standNow once
      have settled := alters_examineAll governs fixedNow plainNow standNow
      rw [examineAll_cons, visitAll_cons]
      refine ⟨?_, fun other member => ?_⟩
      · rw [List.map_cons, List.map_cons, told]
        refine congrArg₂ List.cons (congrArg (Prod.mk file) follows.decides)
          (List.map_congr_left fun other member => ?_)
        rw [untouched other member]
      · rcases List.mem_cons.mp member with rfl | member
        -- and none of them touches the site of the first one again
        · have stays := settled.elsewhere (site other) fun ⟨later, known, same⟩ =>
            unique (List.mem_map.mpr ⟨later, known, same⟩)
          exact stays.trans follows.leaves
        · exact (left other member).trans (by rw [untouched other member])

end Governed

/-- **Two checks that treat most sources alike end alike.** -/
theorem agree_examineAll [DecidablePred apart] (governs : one.Governs layout locked examine)
    (governsToo : two.Governs layout lockedToo again) (alike : Alike apart one two)
    (fixed : world.disk.locked = locked) (fixedToo : next.disk.locked = lockedToo)
    (plain : world.disk.tree.Plain) (plainToo : next.disk.tree.Plain)
    (stand : ∀ file ∈ files, IsLibrarySource layout file world.disk)
    (standToo : ∀ file ∈ others, IsLibrarySource layout file next.disk)
    (once : (files.map site).Nodup) (onceToo : (others.map site).Nodup)
    (same : ∀ file, ¬apart (site file) → (file ∈ others ↔ file ∈ files))
    (agree : Disk.AgreeApart apart world.disk next.disk) :
    Disk.AgreeApart apart (examineAll examine files world).2.disk
        (examineAll again others next).2.disk ∧
      (verdictsElsewhere site apart (visitAll again others next)).Perm
        (verdictsElsewhere site apart (visitAll examine files world)) := by
  obtain ⟨told, left⟩ := verdicts_examineAll governs fixed plain stand once
  obtain ⟨toldToo, leftToo⟩ := verdicts_examineAll governsToo fixedToo plainToo standToo onceToo
  have alters := alters_examineAll governs fixed plain stand
  have altersToo := alters_examineAll governsToo fixedToo plainToo standToo
  refine ⟨⟨?_, ?_, ?_⟩, ?_⟩
  · rw [altersToo.here, alters.here, agree.here]
  -- a location is the site of a source on both disks or on neither
  · intro location outside
    by_cases treated : ∃ file ∈ files, site file = location
    · obtain ⟨file, member, rfl⟩ := treated
      rw [left file member, leftToo file ((same file outside).mpr member),
        (alike file outside).2, agree.seen _ outside]
    · have untreated : ¬∃ file ∈ others, site file = location := by
        rintro ⟨file, member, rfl⟩
        exact treated ⟨file, (same file outside).mp member, rfl⟩
      rw [alters.elsewhere _ treated, altersToo.elsewhere _ untreated, agree.seen _ outside]
  · intro location
    exact (altersToo.agree.dirs location).trans
      ((agree.dirs location).trans (alters.agree.dirs location).symm)
  · have kept : (others.filter fun file => !decide (apart (site file))).Perm
        (files.filter fun file => !decide (apart (site file))) := by
      refine (List.perm_ext_iff_of_nodup (onceToo.of_map.filter _) (once.of_map.filter _)).mpr
        fun file => ?_
      rw [List.mem_filter, List.mem_filter]
      refine and_congr_left fun outside => same file (by simpa using outside)
    rw [verdictsElsewhere, verdictsElsewhere, told, toldToo, List.filter_map, List.filter_map]
    refine (List.Perm.map _ kept).trans (List.Perm.of_eq (List.map_congr_left ?_))
    intro file member
    have outside : ¬apart (site file) := by simpa using (List.mem_filter.mp member).2
    rw [(alike file outside).1, agree.seen _ outside]

end ExamineAll

/-! ### Kinds of sources -/

section ExamineKinds
variable {layout : Layout} {locked lockedToo : Location → Bool} {examine again : Examination}
  {listing relisting : SourceKind → Listing} {kinds : List SourceKind} {world next : World}
  {one two : Treatment SourceFile.location}

private theorem nodup_locations {kind : SourceKind} {disk : Disk} (plain : disk.tree.Plain)
    (faithful : (listing kind).Faithful) :
    ((kind.sources layout (listing kind) disk).map SourceFile.location).Nodup :=
  (Disk.nodup_enumerate plain faithful).map_on (Disk.injOn_location plain faithful)

/-- **What becomes of each source can be told from the start**, for all kinds at once if no source
is listed twice. -/
theorem exists_verdicts {treatment : Treatment SourceFile.location}
    (governs : treatment.Governs layout locked examine) (faithful : ∀ kind, (listing kind).Faithful)
    (fixed : world.disk.locked = locked) (plain : world.disk.tree.Plain)
    (once : ((kinds.flatMap fun kind => kind.sources layout (listing kind) world.disk).map
      SourceFile.location).Nodup) :
    ∃ files : List SourceFile,
      files.Perm (kinds.flatMap fun kind => kind.sources layout (listing kind) world.disk) ∧
      (visitKinds examine layout listing kinds world).map Visit.verdict =
        (files.map fun file =>
          (file, treatment.outcome file (world.disk.tree.aspect? file.location))) ∧
      (∀ file ∈ files,
        (examineKinds examine layout listing kinds world).2.disk.tree.aspect? file.location =
          treatment.leaves file (world.disk.tree.aspect? file.location)) ∧
      world.disk.Alters (fun location => ∃ file ∈ files, file.location = location)
        (examineKinds examine layout listing kinds world).2.disk := by
  have refills (file : SourceFile) (between : World) (reached : world.disk.Refills between.disk)
      (source : IsLibrarySource layout file between.disk) :
      between.disk.Refills (examine file between).2.disk := by
    have follows := governs file between (reached.locked.trans fixed) (reached.plain plain) source
    exact refills_of_stands source.2 follows.alters fun location same => same.symm
  obtain ⟨files, same, examined, visited⟩ := exists_files kinds plain faithful refills
  have stand : ∀ file ∈ files, IsLibrarySource layout file world.disk := by
    intro file member
    obtain ⟨kind, -, listed⟩ := List.mem_flatMap.mp (same.mem_iff.mp member)
    exact Amendment.isLibrarySource_of_mem plain (faithful kind) listed
  obtain ⟨told, left⟩ := verdicts_examineAll governs fixed plain stand
    ((same.map SourceFile.location).nodup_iff.mpr once)
  rw [examined, visited]
  exact ⟨files, same, told, left, alters_examineAll governs fixed plain stand⟩

/-- **Two checks that treat most sources alike end alike**, though one may find sources that the
other one does not find, and in another order. -/
theorem agree_examineKinds [DecidablePred apart] (governs : one.Governs layout locked examine)
    (governsToo : two.Governs layout lockedToo again) (alike : Alike apart one two)
    (faithful : ∀ kind, (listing kind).Faithful) (faithfulToo : ∀ kind, (relisting kind).Faithful)
    (fixed : world.disk.locked = locked) (fixedToo : next.disk.locked = lockedToo)
    (plain : world.disk.tree.Plain) (plainToo : next.disk.tree.Plain)
    (agree : Disk.AgreeApart apart world.disk next.disk) :
    Disk.AgreeApart apart (examineKinds examine layout listing kinds world).2.disk
        (examineKinds again layout relisting kinds next).2.disk ∧
      (verdictsElsewhere SourceFile.location apart
          (visitKinds again layout relisting kinds next)).Perm
        (verdictsElsewhere SourceFile.location apart
          (visitKinds examine layout listing kinds world)) := by
  induction kinds generalizing world next with
  | nil => exact ⟨agree, .nil⟩
  | cons kind rest ih =>
      have stand : ∀ file ∈ kind.sources layout (listing kind) world.disk,
          IsLibrarySource layout file world.disk :=
        fun file => Amendment.isLibrarySource_of_mem plain (faithful kind)
      have standToo : ∀ file ∈ kind.sources layout (relisting kind) next.disk,
          IsLibrarySource layout file next.disk :=
        fun file => Amendment.isLibrarySource_of_mem plainToo (faithfulToo kind)
      have same (file : SourceFile) (outside : ¬apart file.location) :
          file ∈ kind.sources layout (relisting kind) next.disk ↔
            file ∈ kind.sources layout (listing kind) world.disk :=
        ⟨agree.symm.mem_enumerate plainToo plain (faithfulToo kind) (faithful kind)
            (agree.symm.outline? outside),
          agree.mem_enumerate plain plainToo (faithful kind) (faithfulToo kind)
            (agree.outline? outside)⟩
      obtain ⟨agreeNow, verdicts⟩ := agree_examineAll governs governsToo alike fixed fixedToo plain
        plainToo stand standToo (nodup_locations plain (faithful kind))
        (nodup_locations plainToo (faithfulToo kind)) same agree
      have alters := alters_examineAll governs fixed plain stand
      have altersToo := alters_examineAll governsToo fixedToo plainToo standToo
      obtain ⟨agreeLast, others⟩ := ih (alters.locked.trans fixed)
        (altersToo.locked.trans fixedToo) (alters.plain plain) (altersToo.plain plainToo) agreeNow
      rw [examineKinds_cons, examineKinds_cons, visitKinds, visitKinds]
      refine ⟨agreeLast, ?_⟩
      unfold verdictsElsewhere at verdicts others ⊢
      rw [List.map_append, List.map_append, List.filter_append, List.filter_append]
      exact verdicts.append others

end ExamineKinds
end Treatment
end BuildWarden.Guideline
