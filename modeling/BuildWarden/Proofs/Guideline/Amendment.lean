import BuildWarden.Proofs.Guideline.Examination
import BuildWarden.Proofs.Guideline.Sources
/-!
# Amendments of single files

The licence and the format checks are of one kind: each file is judged by its content alone, and its
content may be replaced, where that is possible. An `Amendment` is such a rule. An amendment settles
when what it replaced is not flagged again; then one correcting check leaves exactly the files that
it cannot change, also when other changes follow that the amendment does not care about.
-/

namespace BuildWarden.Guideline

/-- A file that stands where its path leads, and whose path goes down from where sources lie. -/
def IsLibrarySource (layout : Layout) (file : SourceFile) (disk : Disk) : Prop :=
  (∃ kind : SourceKind, file.Below (kind.start layout)) ∧ file.Stands disk

/-- How a file is judged by its content, and what its content can be replaced with. -/
structure Amendment where
  flags : Location → Bytes → Bool
  mend? : Location → Bytes → Option Bytes

namespace Amendment
variable {amendment : Amendment} {excepted : SourceFile → Bool} {file : SourceFile}
  {disk before after later : Disk} {outcome : Outcome} {content : Bytes} {correct : Bool}

/-- What was replaced is not flagged. -/
def Settles (amendment : Amendment) : Prop :=
  ∀ location content mended, amendment.mend? location content = some mended →
    amendment.flags location content = true → amendment.flags location mended = false

/-- Whether a file is flagged on a disk. -/
def finds (amendment : Amendment) (excepted : SourceFile → Bool) (file : SourceFile)
    (disk : Disk) : Bool :=
  !excepted file &&
    match disk.tree.aspect? file.location with
    | some (.file content) => amendment.flags file.location content
    | _ => false

/-- How the examination of one file ends, and the disk it leaves. -/
inductive Treats (amendment : Amendment) (excepted : SourceFile → Bool) (correct : Bool)
    (file : SourceFile) (disk : Disk) : Outcome → Disk → Prop
  | fine : amendment.finds excepted file disk = false →
      Treats amendment excepted correct file disk .fine disk
  | left (content : Bytes) : amendment.finds excepted file disk = true →
      disk.tree.aspect? file.location = some (.file content) →
      (correct = true → amendment.mend? file.location content = none) →
      Treats amendment excepted correct file disk (.violation false) disk
  | mended (content mended : Bytes) (executable : Bool) : correct = true →
      amendment.finds excepted file disk = true →
      disk.tree.aspect? file.location = some (.file content) →
      amendment.mend? file.location content = some mended →
      Treats amendment excepted correct file disk (.violation true)
        { disk with tree := disk.tree.put file.location (.leaf (.file mended executable)) }

/-- An examination that treats every source that is listed as the amendment says, whatever has
become of a disk. -/
def Performs (amendment : Amendment) (excepted : SourceFile → Bool) (layout : Layout)
    (start : Disk) (correct : Bool) (examine : Examination) : Prop :=
  ∀ file world, start.Develops world.disk → world.disk.tree.Plain →
    IsListed layout world.disk file →
      amendment.Treats excepted correct file world.disk (examine file world).1
        (examine file world).2.disk

/-- A new content that the amendment judges as it judged the old one, as far as that is settled:
what was not flagged is not flagged, and what could not be replaced is flagged and cannot be
replaced. -/
def Admits (amendment : Amendment) (location : Location) (content content' : Bytes) : Prop :=
  (amendment.flags location content = false → amendment.flags location content' = false) ∧
    (amendment.flags location content = true → amendment.mend? location content = none →
      amendment.flags location content' = true ∧ amendment.mend? location content' = none)

/-- An amendment that replaces contents in a way another one admits. -/
def Respects (amendment other : Amendment) : Prop :=
  ∀ location content mended, amendment.flags location content = true →
    amendment.mend? location content = some mended → other.Admits location content mended

/-- A change of the contents of files that the amendment admits. -/
structure Keeps (amendment : Amendment) (before after : Disk) : Prop
    extends before.Gains (fun _ => False) after where
  plain : before.tree.Plain → after.tree.Plain
  settled : ∀ location content content', before.tree.aspect? location = some (.file content) →
    after.tree.aspect? location = some (.file content') →
      amendment.Admits location content content'

private theorem Admits.refl (amendment : Amendment) (location : Location) (content : Bytes) :
    amendment.Admits location content content :=
  ⟨id, fun seen hopeless => ⟨seen, hopeless⟩⟩

private theorem Admits.trans {location : Location} {first second third : Bytes}
    (one : amendment.Admits location first second)
    (other : amendment.Admits location second third) : amendment.Admits location first third := by
  refine ⟨other.1 ∘ one.1, fun seen none => ?_⟩
  obtain ⟨seen', none'⟩ := one.2 seen none
  exact other.2 seen' none'

/-- What an amendment replaces is not settled yet. -/
theorem respects_self (amendment : Amendment) : amendment.Respects amendment := by
  intro location content mended flagged replaces
  refine ⟨fun calm => ?_, fun _ none => ?_⟩
  · rw [flagged] at calm
    cases calm
  · rw [replaces] at none
    cases none

/-- A disk keeps what an amendment asks of it if nothing changes. -/
@[refl]
theorem Keeps.refl (amendment : Amendment) (disk : Disk) : amendment.Keeps disk disk where
  toGains := .refl disk
  plain := id
  settled := by
    intro location content content' here there
    rw [here] at there
    cases there
    exact .refl _ _ _

/-! ### Replacing the content of a file -/

/-- Where a content stands, there is a file. -/
theorem outline?_of_aspect? {location : Location}
    (present : disk.tree.aspect? location = some (.file content)) :
    disk.tree.outline? location = some .file := by
  unfold Tree.outline?
  rw [present]
  rfl

/-- Where a file stands, it has a content. -/
theorem aspect?_of_outline? {location : Location}
    (present : disk.tree.outline? location = some .file) :
    ∃ content, disk.tree.aspect? location = some (.file content) := by
  obtain ⟨aspect, seen, same⟩ := Option.map_eq_some_iff.mp present
  cases aspect with
  | file content => exact ⟨content, seen⟩
  | link target => cases same
  | dir => cases same

section Replaced
variable (stands : file.Stands disk) (plain : disk.tree.Plain) (executable : Bool)
include stands plain

/-- What a disk holds after the content of a file was replaced. -/
theorem aspect?_replaced (content : Bytes) (other : Location) :
    (disk.tree.put file.location (.leaf (.file content executable))).aspect? other =
      if file.location = other then some (.file content) else disk.tree.aspect? other := by
  obtain ⟨-, inside, directory⟩ := stands.directory plain
  obtain ⟨content', executable', present⟩ := stands.at?
  have bare : (Item.leaf (.file content executable)).Bare := trivial
  refine Tree.aspect?_put directory (fun found entry => ?_) bare other
  rw [SourceFile.location, Tree.at?_concat directory, entry, Option.some.injEq] at present
  rw [present]
  trivial

private theorem plain_replaced (content : Bytes) :
    (disk.tree.put file.location (.leaf (.file content executable))).Plain := by
  obtain ⟨content', executable', present⟩ := stands.at?
  exact Tree.Formed.put plain (plain.of_at? present).1 trivial

/-- Replacing the content of a file changes the content of a file. -/
theorem refills_replaced (content : Bytes) :
    disk.Refills
      { disk with tree := disk.tree.put file.location (.leaf (.file content executable)) } := by
  have aspect := aspect?_replaced stands plain executable content
  obtain ⟨old, present⟩ := stands.aspect?
  have outline (other : Location) :
      (disk.tree.put file.location (.leaf (.file content executable))).outline? other =
        disk.tree.outline? other := by
    unfold Tree.outline?
    rw [aspect other]
    by_cases same : file.location = other
    · rw [if_pos same, ← same, present]
      rfl
    · rw [if_neg same]
  refine ⟨⟨⟨rfl, rfl, ?_⟩, ?_⟩, fun _ => plain_replaced stands plain executable content⟩
  · intro other seen there
    rw [outline, there]
  · intro other vacant
    left
    rw [outline, vacant]

/-- Replacing the content of one file by one that is admitted. -/
theorem keeps_replaced {content mended : Bytes}
    (present : disk.tree.aspect? file.location = some (.file content))
    (admits : amendment.Admits file.location content mended) :
    amendment.Keeps disk
      { disk with tree := disk.tree.put file.location (.leaf (.file mended executable)) } := by
  have refills := refills_replaced stands plain executable mended
  refine ⟨refills.toGains, refills.plain, ?_⟩
  intro other before after here there
  rw [aspect?_replaced stands plain executable mended other] at there
  by_cases same : file.location = other
  · subst same
    rw [present] at here
    rw [if_pos rfl] at there
    cases here
    cases there
    exact admits
  · rw [if_neg same, here] at there
    cases there
    exact .refl _ _ _

/-- Replacing the content of a file alters nothing else. -/
theorem alters_replaced (content : Bytes) :
    disk.Alters (· = file.location)
      { disk with tree := disk.tree.put file.location (.leaf (.file content executable)) } := by
  have refills := refills_replaced stands plain executable content
  refine ⟨⟨refills.toExtends, ?_⟩, refills.plain, ?_⟩
  · intro other vacant
    exact (refills.new other vacant).imp_right (And.imp_right False.elim)
  · intro other outside
    rw [aspect?_replaced stands plain executable content other, if_neg (Ne.symm outside)]

end Replaced

/-! ### One examination -/

private theorem Keeps.trans {first second third : Disk} (one : amendment.Keeps first second)
    (other : amendment.Keeps second third) : amendment.Keeps first third where
  toGains := one.toGains.trans other.toGains
  plain := other.plain ∘ one.plain
  settled := by
    intro location content content' here there
    obtain ⟨between, middle⟩ :=
      aspect?_of_outline? (one.kept location .file (outline?_of_aspect? here))
    exact (one.settled location content between here middle).trans
      (other.settled location between content' middle there)

/-- A disk that an amendment keeps has only developed. -/
theorem Keeps.develops (keeps : amendment.Keeps before after) : before.Develops after :=
  keeps.toGains.develops keeps.plain

/-- An amendment finds a source if it is not spared and its content is flagged. -/
theorem finds_iff (present : disk.tree.aspect? file.location = some (.file content)) :
    amendment.finds excepted file disk = true ↔
      excepted file = false ∧ amendment.flags file.location content = true := by
  simp [finds, present]

private theorem Treats.keeps {other : Amendment} (respects : amendment.Respects other)
    (treats : amendment.Treats excepted correct file disk outcome after)
    (stands : file.Stands disk) (plain : disk.tree.Plain) : other.Keeps disk after := by
  cases treats with
  | fine unseen => rfl
  | left content seen present hopeless => rfl
  | mended content mended executable allowed seen present replaces =>
      obtain ⟨-, flagged⟩ := (finds_iff present).mp seen
      exact keeps_replaced stands plain executable present
        (respects file.location content mended flagged replaces)

/-- **A violation that a correcting examination leaves is found later, and nothing else is.** -/
theorem Treats.found_later (settles : amendment.Settles)
    (treats : amendment.Treats excepted true file disk outcome after)
    (stands : file.Stands disk) (plain : disk.tree.Plain) (keeps : amendment.Keeps after later) :
    amendment.finds excepted file later = true ↔ outcome = .violation false := by
  have stays := (treats.keeps (respects_self amendment) stands plain).trans keeps
  obtain ⟨content', there⟩ := (stands.extends stays.toExtends).aspect?
  rw [finds_iff there]
  cases treats with
  | fine unseen =>
      obtain ⟨content, here⟩ := stands.aspect?
      refine ⟨fun ⟨plainly, flagged⟩ => ?_, fun same => by cases same⟩
      have calm : amendment.flags file.location content = false := by
        by_contra noisy
        rw [(finds_iff here).mpr ⟨plainly, by simpa using noisy⟩] at unseen
        cases unseen
      rw [(stays.settled _ _ _ here there).1 calm] at flagged
      cases flagged
  | left content seen here hopeless =>
      obtain ⟨plainly, flagged⟩ := (finds_iff here).mp seen
      exact ⟨fun _ => rfl, fun _ =>
        ⟨plainly, ((stays.settled _ _ _ here there).2 flagged (hopeless rfl)).1⟩⟩
  | mended content mended executable allowed seen here replaces =>
      obtain ⟨plainly, flagged⟩ := (finds_iff here).mp seen
      have now : (disk.tree.put file.location (.leaf (.file mended executable))).aspect?
          file.location = some (.file mended) := by
        rw [aspect?_replaced stands plain executable mended, if_pos rfl]
      have calm := settles _ _ _ replaces flagged
      refine ⟨fun ⟨_, noisy⟩ => ?_, fun same => by cases same⟩
      rw [(keeps.settled _ _ _ now there).1 calm] at noisy
      cases noisy

/-- An examination that may not correct, or that finds nothing, changes nothing. -/
theorem Treats.still (treats : amendment.Treats excepted correct file disk outcome after)
    (harmless : correct = true → amendment.finds excepted file disk = false) :
    after = disk ∧ (amendment.finds excepted file disk = true ↔ outcome ≠ .fine) := by
  cases treats with
  | fine unseen => simp [unseen]
  | left content seen here hopeless => simp [seen]
  | mended content mended executable allowed seen here replaces =>
      rw [harmless allowed] at seen
      cases seen

/-! ### A whole check -/

section Check
variable {start : Disk} {examine : Examination} {layout : Layout}
  {listing again : SourceKind → Listing} {kinds : List SourceKind} {world next : World}

/-- What a kind of sources lists is a source of the library. -/
theorem isLibrarySource_of_mem {kind : SourceKind} {listing : Listing} (plain : disk.tree.Plain)
    (faithful : listing.Faithful) (member : file ∈ kind.sources layout listing disk) :
    IsLibrarySource layout file disk :=
  ⟨⟨kind, Disk.below_of_mem_enumerate plain faithful member⟩,
    (Disk.stands_of_mem_enumerate plain faithful member).1⟩

private theorem isListed_of_mem {kind : SourceKind} {listing : Listing} (plain : disk.tree.Plain)
    (faithful : listing.Faithful) (member : file ∈ kind.sources layout listing disk) :
    IsListed layout disk file :=
  ⟨kind, (Disk.mem_enumerate_iff plain faithful).mp member⟩

section Performed
variable (performs : amendment.Performs excepted layout start correct examine)
  (reached : start.Develops world.disk) (plain : world.disk.tree.Plain)
include performs reached plain

/-- Whatever the amendment respects is kept by a whole check. -/
theorem keeps_examineAll {other : Amendment} (respects : amendment.Respects other)
    {files : List SourceFile} (listed : ∀ file ∈ files, IsListed layout world.disk file) :
    other.Keeps world.disk (examineAll examine files world).2.disk := by
  induction files generalizing world with
  | nil => exact .refl _ _
  | cons file rest ih =>
      have source := listed file List.mem_cons_self
      have treats := performs file world reached plain source
      have step := treats.keeps (respects_self amendment) (source.stands plain) plain
      refine (treats.keeps respects (source.stands plain) plain).trans
        (ih (reached.trans step.develops) (step.plain plain) fun next member => ?_)
      exact (listed next (List.mem_cons_of_mem file member)).extends step.toExtends

/-- A check that performs an amendment keeps every amendment that this one respects. -/
theorem keeps_examineKinds {other : Amendment} (respects : amendment.Respects other)
    (faithful : ∀ kind, (listing kind).Faithful) :
    other.Keeps world.disk (examineKinds examine layout listing kinds world).2.disk := by
  induction kinds generalizing world with
  | nil => exact .refl _ _
  | cons kind rest ih =>
      have listed : ∀ file ∈ kind.sources layout (listing kind) world.disk,
          IsListed layout world.disk file :=
        fun file => isListed_of_mem plain (faithful kind)
      have step := keeps_examineAll performs reached plain (respects_self amendment) listed
      exact (keeps_examineAll performs reached plain respects listed).trans
        (ih (reached.trans step.develops) (step.plain plain))

end Performed

/-- A correcting check leaves what is found on every later disk, in whatever order its sources are
listed there. -/
theorem unresolved_examineKinds (settles : amendment.Settles)
    (performs : amendment.Performs excepted layout start true examine)
    (faithful : ∀ kind, (listing kind).Faithful) (faithfulAgain : ∀ kind, (again kind).Faithful)
    (reached : start.Develops world.disk) (plain : world.disk.tree.Plain)
    (keeps : amendment.Keeps (examineKinds examine layout listing kinds world).2.disk later) :
    unresolved (examineKinds examine layout listing kinds world).1 =
      (kinds.flatMap fun kind => kind.sources layout (again kind) later).countP
        (amendment.finds excepted · later) := by
  induction kinds generalizing world with
  | nil => rfl
  | cons kind rest ih =>
      have each : ∀ file ∈ kind.sources layout (listing kind) world.disk, ∀ between : World,
          amendment.Keeps world.disk between.disk →
            amendment.Keeps between.disk (examine file between).2.disk ∧
              ∀ later, amendment.Keeps (examine file between).2.disk later →
                (amendment.finds excepted file later = true ↔
                  (examine file between).1 = .violation false) := by
        intro file member between further
        have source := (isListed_of_mem plain (faithful kind) member).extends further.toExtends
        have plainly := further.plain plain
        have stands := source.stands plainly
        have treats := performs file between (reached.trans further.develops) plainly source
        exact ⟨treats.keeps (respects_self amendment) stands plainly, fun later keeps =>
          treats.found_later settles stands plainly keeps⟩
      obtain ⟨step, left⟩ := unresolved_examineAll amendment.Keeps Keeps.trans
        (Keeps.refl amendment) each (Keeps.refl amendment world.disk)
      have further : amendment.Keeps
          (examineAll examine (kind.sources layout (listing kind) world.disk) world).2.disk
          (examineKinds examine layout listing (kind :: rest) world).2.disk :=
        keeps_examineKinds performs (reached.trans step.develops) (step.plain plain)
          (respects_self amendment) faithful
      have whole := (step.trans further).trans keeps
      have same : (kind.sources layout (listing kind) world.disk).Perm
          (kind.sources layout (again kind) later) :=
        whole.enumerate_perm plain (whole.plain plain) (faithful kind) (faithfulAgain kind)
          fun _ none => none.elim
      have here := left later (further.trans keeps)
      have others := ih (reached.trans step.develops) (step.plain plain) keeps
      unfold unresolved at here others ⊢
      rw [examineKinds, List.countP_append, here, others, List.flatMap_cons, List.countP_append,
        same.countP_eq]

/-- **One correcting check leaves what the next check finds**, on every later disk. A check that
does not correct changes nothing, and neither does one that finds nothing. -/
theorem check_converges {checking : Examination} (settles : amendment.Settles)
    (performs : amendment.Performs excepted layout start true examine)
    (performsChecking : amendment.Performs excepted layout start false checking)
    (faithful : ∀ kind, (listing kind).Faithful) (faithfulAgain : ∀ kind, (again kind).Faithful)
    (reached : start.Develops world.disk) (plain : world.disk.tree.Plain)
    (keeps : amendment.Keeps (examineKinds examine layout listing kinds world).2.disk next.disk) :
    (examineKinds checking layout again kinds next).1.countP (· != .fine) =
        unresolved (examineKinds examine layout listing kinds world).1 ∧
      (examineKinds checking layout again kinds next).2.disk = next.disk ∧
      ((examineKinds checking layout again kinds next).1.countP (· != .fine) = 0 →
        (examineKinds examine layout again kinds next).2.disk = next.disk) := by
  have left := unresolved_examineKinds settles performs faithful faithfulAgain reached plain keeps
  have whole :=
    (keeps_examineKinds performs reached plain (respects_self amendment) faithful).trans keeps
  have reachedNow := reached.trans whole.develops
  have plainNow := whole.plain plain
  have still : ∀ kind ∈ kinds, ∀ file ∈ kind.sources layout (again kind) next.disk,
      ∀ between : World, between.disk = next.disk →
        (checking file between).2.disk = next.disk ∧
          (amendment.finds excepted file next.disk = true ↔ (checking file between).1 ≠ .fine) := by
    intro kind _ file member between same
    have source := isListed_of_mem plainNow (faithfulAgain kind) member
    rw [← same] at source plainNow reachedNow ⊢
    exact (performsChecking file between reachedNow plainNow source).still (by simp)
  obtain ⟨unchanged, counted⟩ := countP_examineKinds still rfl
  refine ⟨counted.trans left.symm, unchanged, fun clean => ?_⟩
  rw [counted, List.countP_eq_zero] at clean
  have idle : ∀ kind ∈ kinds, ∀ file ∈ kind.sources layout (again kind) next.disk,
      ∀ between : World, between.disk = next.disk →
        (examine file between).2.disk = next.disk ∧
          (amendment.finds excepted file next.disk = true ↔ (examine file between).1 ≠ .fine) := by
    intro kind known file member between same
    have unseen := clean file (List.mem_flatMap.mpr ⟨kind, known, member⟩)
    have source := isListed_of_mem plainNow (faithfulAgain kind) member
    rw [← same] at source plainNow reachedNow unseen ⊢
    exact (performs file between reachedNow plainNow source).still (fun _ => by simpa using unseen)
  exact (countP_examineKinds idle rfl).1

end Check
end Amendment
end BuildWarden.Guideline
