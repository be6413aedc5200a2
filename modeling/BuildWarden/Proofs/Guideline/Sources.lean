import BuildWarden.Guideline.Check
import BuildWarden.Proofs.Pattern
import BuildWarden.Proofs.Tree.Alteration
import BuildWarden.Proofs.Tree.Contents
/-!
# Library sources

What the walks for library sources list, on every disk. Units and headers have different names, so a
source is listed twice only where the walk through the library and the one for test suites meet. On
alike disks the same sources are listed.
-/

namespace BuildWarden

/-- The library and the test suites lead to places of which neither is in the other one. -/
def Layout.ApartOn (layout : Layout) (disk : Disk) : Prop :=
  ∀ place item other item', disk.open? layout.libraryDir = .ok (place, item) →
    disk.open? layout.testunitsDir = .ok (other, item') → ¬place <+: other ∧ ¬other <+: place

namespace Guideline
variable {layout : Layout} {listing again : SourceKind → Listing} {disk before after : Disk}
  {file : SourceFile}

/-- A source that one of the walks lists. -/
def IsListed (layout : Layout) (disk : Disk) (file : SourceFile) : Prop :=
  ∃ kind : SourceKind, disk.Lists (kind.start layout) file ∧ kind.pattern.accepts file.name = true

/-- What is listed is listed on a larger disk. -/
theorem IsListed.extends (listed : IsListed layout before file) (larger : before.Extends after) :
    IsListed layout after file := by
  obtain ⟨kind, lists, takes⟩ := listed
  exact ⟨kind, larger.lists lists, takes⟩

/-- What is listed stands where its path leads. -/
theorem IsListed.stands (listed : IsListed layout disk file) (plain : disk.tree.Plain) :
    file.Stands disk := by
  obtain ⟨kind, lists, takes⟩ := listed
  exact lists.leads plain

/-- **A source that is listed is listed wherever a file stands in its place**, if the directories
are the same. -/
theorem IsListed.of_agree {apart : Location → Prop} {other : SourceFile}
    (listed : IsListed layout before file) (agree : Disk.AgreeApart apart before after)
    (plain : before.tree.Plain) (plainAfter : after.tree.Plain)
    (stands : other.Stands after) (same : other.location = file.location) :
    IsListed layout after file := by
  have faithful : Listing.Faithful id := fun tree => Tree.Reordered.refl tree
  obtain ⟨content, executable, here⟩ := (listed.stands plain).at?
  obtain ⟨content', executable', there⟩ := stands.at?
  obtain ⟨kind, lists, takes⟩ := listed
  have member := (Disk.mem_enumerate_iff plain faithful).mpr ⟨lists, takes⟩
  refine ⟨kind, (Disk.mem_enumerate_iff plainAfter faithful).mp
    (agree.mem_enumerate plain plainAfter faithful faithful ?_ member)⟩
  rw [same] at there
  simp only [Tree.outline?, Tree.aspect?, here, there, Option.map_some]
  rfl

/-- No name ends both as a unit and as a header. -/
theorem not_unit_and_header {name : String}
    (unit : SourceKind.units.pattern.accepts name = true)
    (header : SourceKind.headers.pattern.accepts name = true) : False := by
  have one := (Pattern.accepts_endingIn ".cpp" name).mp unit
  have other := (Pattern.accepts_endingIn ".h" name).mp header
  rcases List.suffix_or_suffix_of_suffix one other with inside | inside
  · revert inside
    decide
  · revert inside
    decide

/-- A suite lies apart from what a walk through the library lists. -/
theorem location_ne_of_apart (apart : layout.ApartOn disk) {suite : SourceFile}
    (inLibrary : disk.Lists layout.libraryDir file)
    (inTests : disk.Lists layout.testunitsDir suite) : file.location ≠ suite.location := by
  obtain ⟨place, item, leads, inside⟩ := inLibrary.below_start
  obtain ⟨other, item', leadsToo, insideToo⟩ := inTests.below_start
  obtain ⟨one, two⟩ := apart place item other item' leads leadsToo
  intro same
  rw [← same] at insideToo
  rcases List.prefix_or_prefix_of_prefix inside insideToo with nested | nested
  · exact one nested
  · exact two nested

section Formed
variable {allowed : Leaf → Prop} (formed : disk.tree.Formed allowed)
  (faithful : ∀ kind, (listing kind).Faithful)
include formed faithful

/-- The library sources are those that are listed, in whatever order. -/
theorem mem_librarySources :
    file ∈ librarySources layout listing disk ↔ IsListed layout disk file := by
  simp only [librarySources, List.mem_flatMap, SourceKind.sources,
    Disk.mem_enumerate_iff formed (faithful _), IsListed]
  refine exists_congr fun kind => and_iff_right ?_
  cases kind <;> decide

/-- **No source is listed twice** where the library and the test suites lie apart. -/
theorem nodup_sources (apart : layout.ApartOn disk) :
    ((librarySources layout listing disk).map SourceFile.location).Nodup := by
  have listed {kind : SourceKind} {file : SourceFile}
      (member : file ∈ kind.sources layout (listing kind) disk) :
      disk.Lists (kind.start layout) file ∧ kind.pattern.accepts file.name = true :=
    (Disk.mem_enumerate_iff formed (faithful kind)).mp member
  have disjoint {kind other : SourceKind}
      (different : ∀ file ∈ kind.sources layout (listing kind) disk,
        ∀ same ∈ other.sources layout (listing other) disk, file.location ≠ same.location) :
      List.Disjoint ((kind.sources layout (listing kind) disk).map SourceFile.location)
        ((other.sources layout (listing other) disk).map SourceFile.location) := by
    intro location member memberToo
    obtain ⟨file, known, rfl⟩ := List.mem_map.mp member
    obtain ⟨same, knownToo, place⟩ := List.mem_map.mp memberToo
    exact different file known same knownToo place.symm
  have unequal := @disjoint .units .headers fun unit member header memberToo same => by
    have headed := (listed memberToo).2
    rw [← SourceFile.name_of_location same] at headed
    exact not_unit_and_header (listed member).2 headed
  have unitsApart := @disjoint .units .suites fun unit member suite memberToo =>
    location_ne_of_apart apart (listed member).1 (listed memberToo).1
  have headersApart := @disjoint .headers .suites fun header member suite memberToo =>
    location_ne_of_apart apart (listed member).1 (listed memberToo).1
  unfold librarySources
  rw [List.map_flatMap, List.nodup_flatMap]
  refine ⟨fun kind _ => Disk.nodup_enumerate_locations formed (faithful kind), ?_⟩
  simp only [SourceKind.all, List.pairwise_cons, List.mem_cons, List.not_mem_nil, or_false,
    forall_eq_or_imp, forall_eq, IsEmpty.forall_iff, implies_true, List.Pairwise.nil, and_true]
  exact ⟨⟨unequal, unitsApart⟩, headersApart⟩

end Formed
end Guideline
end BuildWarden
