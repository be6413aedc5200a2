import BuildWarden.Proofs.Tree.Plain
import BuildWarden.Proofs.Tree.Walk
/-!
# What a walk lists

A walk may start at a link to a directory, but it follows no link below its start. So on every disk,
whatever links there are, it lists the regular files below its start, each of them once, in every
order of listing.
-/

namespace BuildWarden

/-- A listing in which every directory has its entries, in some order. -/
def Listing.Faithful (listing : Listing) : Prop :=
  ∀ tree : Tree, tree.Reordered (listing tree)

namespace SourceFile

/-- Names are those in front and the last one. -/
theorem dropLast_append_getLastD {names : Location} (some : names ≠ []) :
    names.dropLast ++ [names.getLastD ""] = names := by
  rw [List.getLastD_eq_getLast?, List.getLast?_eq_some_getLast some, Option.getD_some,
    List.dropLast_append_getLast some]

/-- A source below a directory lies where the names lead from there. -/
theorem location_below (start : String) (location : Location) {names : Location}
    (some : names ≠ []) : (below start location names).location = location ++ names := by
  simp only [SourceFile.location, below, List.append_assoc, dropLast_append_getLastD some]

/-- A source that is the start itself lies at its location. -/
theorem location_alone (start : String) {location : Location} (some : location ≠ []) :
    (alone start location).location = location :=
  dropLast_append_getLastD some

/-- Sources at one location have one name. -/
theorem name_of_location {file other : SourceFile} (same : file.location = other.location) :
    file.name = other.name := by
  obtain ⟨-, names⟩ := List.append_inj' same rfl
  exact List.singleton_injective names

/-- A regular file is written at its location, unless that cannot be written. -/
theorem writeIn_of_at? {file : SourceFile} {disk : Disk} {allowed : Leaf → Prop} {old : Bytes}
    {executable : Bool} (formed : disk.tree.Formed allowed)
    (present : disk.tree.at? file.location = some (.leaf (.file old executable)))
    (content : Bytes) :
    disk.writeIn file.directory file.name content =
      if disk.locked file.location then .error .denied
      else .ok { disk with
        tree := disk.tree.put file.location (.leaf (.file content executable)) } := by
  have spelled : IsName file.name := (formed.of_at? present).1 file.name (by simp [location])
  unfold Disk.writeIn
  rw [Disk.locateFrom_name disk true file.directory spelled,
    Disk.follow_file ⟨spelled.2.1, spelled.2.2.1⟩ present]
  rfl

end SourceFile

/-- No file stands at the top. -/
theorem Tree.file_ne_nil {tree : Tree} {location : Location} {content : Bytes} {executable : Bool}
    (stands : tree.at? location = some (.leaf (.file content executable))) : location ≠ [] := by
  rintro rfl
  simp at stands

namespace Disk
variable {disk : Disk} {listing : Listing} {start : String} {accepted : String → Bool}
  {file other : SourceFile} {location : Location} {last : Bool} {allowed : Leaf → Prop}

/-- What a path leads to stands there. -/
theorem at?_of_locate {path : String} {item : Item}
    (leads : disk.locate last path = .ok (.taken location item)) :
    disk.tree.at? location = some item := by
  unfold locate locateFrom at leads
  split at leads
  · cases leads
  · exact at?_of_follow leads

/-- What stands below where a path leads. -/
theorem at?_inside {path : String} {inside : Tree}
    (leads : disk.locate last path = .ok (.taken location (.dir inside))) (names : Location) :
    disk.tree.at? (location ++ names) = inside.at? names := by
  rw [Tree.at?_append, at?_of_locate leads, Option.bind_some, Item.at?]

private theorem locate_last_or_link (disk : Disk) (path : String) :
    disk.locate true path = disk.locate false path ∨
      ∃ place target, disk.locate false path = .ok (.taken place (.leaf (.link target))) := by
  unfold locate locateFrom
  split
  · exact .inl rfl
  · exact follow_last_or_link _ _ _ _

/-- A path that leads somewhere, and not to a link, leads there also if links are followed. -/
theorem open?_of_locate {path : String} {place : Location} {item : Item}
    (leads : disk.locate false path = .ok (.taken place item))
    (unlinked : ∀ target, item ≠ .leaf (.link target)) : disk.open? path = .ok (place, item) := by
  rcases disk.locate_last_or_link path with same | ⟨_, target, linked⟩
  · exact open?_eq_ok.mpr (same.trans leads)
  · rw [leads] at linked
    cases linked
    exact (unlinked target rfl).elim

/-! ### What a walk comes by -/

/-- A regular file at or below the start of a walk, with its path as the walk writes it. A start
that is a link may lead to a directory; a link to a file is not listed. -/
inductive Lists (disk : Disk) (start : String) : SourceFile → Prop
  | below {place names : Location} {inside : Tree} {content : Bytes} {executable : Bool} :
      disk.open? start = .ok (place, .dir inside) →
      inside.at? names = some (.leaf (.file content executable)) →
        Lists disk start (.below start place names)
  | alone {place : Location} {content : Bytes} {executable : Bool} :
      disk.locate false start = .ok (.taken place (.leaf (.file content executable))) →
        Lists disk start (.alone start place)

/-- What is listed is a file that is there. -/
theorem Lists.present (lists : disk.Lists start file) :
    ∃ content executable,
      disk.tree.at? file.location = some (.leaf (.file content executable)) := by
  cases lists with
  | @below place names inside content executable leads stands =>
      refine ⟨content, executable, ?_⟩
      rw [SourceFile.location_below start place (Tree.file_ne_nil stands),
        at?_inside (open?_eq_ok.mp leads), stands]
  | @alone place content executable leads =>
      have present := at?_of_locate leads
      refine ⟨content, executable, ?_⟩
      rwa [SourceFile.location_alone start (Tree.file_ne_nil present)]

/-- A walk comes by a location once. -/
theorem Lists.eq_of_location (lists : disk.Lists start file) (listsOther : disk.Lists start other)
    (same : file.location = other.location) : file = other := by
  cases lists with
  | below leads stands =>
      cases listsOther with
      | below leads' stands' =>
          rw [leads] at leads'
          cases leads'
          rw [SourceFile.location_below _ _ (Tree.file_ne_nil stands),
            SourceFile.location_below _ _ (Tree.file_ne_nil stands')] at same
          rw [List.append_cancel_left same]
      | alone leads' =>
          rw [open?_of_locate leads' (by simp)] at leads
          cases leads
  | alone leads =>
      cases listsOther with
      | below leads' stands' =>
          rw [open?_of_locate leads (by simp)] at leads'
          cases leads'
      | alone leads' =>
          rw [leads] at leads'
          cases leads'
          rfl

/-- What a walk comes by lies at or below the place where it starts. -/
theorem Lists.below_start (lists : disk.Lists start file) :
    ∃ place item, disk.open? start = .ok (place, item) ∧ place <+: file.location := by
  cases lists with
  | @below place names inside content executable leads stands =>
      refine ⟨place, _, leads, ?_⟩
      rw [SourceFile.location_below start place (Tree.file_ne_nil stands)]
      exact List.prefix_append ..
  | @alone place content executable leads =>
      have here : (SourceFile.alone start place).location = place :=
        SourceFile.location_alone start (Tree.file_ne_nil (at?_of_locate leads))
      refine ⟨place, _, open?_of_locate leads (by simp), ?_⟩
      simp only [here, List.prefix_rfl]

/-- **The path of what a walk comes by leads to it.** -/
theorem Lists.leads (lists : disk.Lists start file) (formed : disk.tree.Formed allowed) :
    ∃ content executable,
      disk.open? file.path = .ok (file.location, .leaf (.file content executable)) := by
  cases lists with
  | @below place names inside content executable leads stands =>
      have some : names ≠ [] := Tree.file_ne_nil stands
      have here := open?_eq_ok.mp leads
      rw [← at?_inside here] at stands
      have spelled : ∀ name ∈ names, IsName name := fun name member =>
        (formed.of_at? stands).1 name (List.mem_append_right _ member)
      refine ⟨content, executable, ?_⟩
      rw [SourceFile.location_below start place some]
      exact open?_eq_ok.mpr (locate_down here spelled stands (by simp) some)
  | @alone place content executable leads =>
      refine ⟨content, executable, ?_⟩
      rw [SourceFile.location_alone start (Tree.file_ne_nil (at?_of_locate leads))]
      exact open?_of_locate leads (by simp)

/-! ### What a walk lists -/

section Enumerate
variable {place : Location} {inside : Tree} {content : Bytes} {executable : Bool}

/-- In a directory the accepted files below it are listed. -/
theorem enumerate_dir (leads : disk.open? start = .ok (place, .dir inside)) :
    disk.enumerate listing start accepted =
      ((listing inside).files.filter fun names => accepted (names.getLastD "")).map
        (.below start place) := by
  rcases disk.locate_last_or_link start with same | ⟨_, target, linked⟩
  · have located := same.symm.trans (open?_eq_ok.mp leads)
    simp only [enumerate, located]
  · simp only [enumerate, linked, leads]

private theorem enumerate_alone
    (leads : disk.locate false start = .ok (.taken place (.leaf (.file content executable)))) :
    disk.enumerate listing start accepted =
      if accepted (place.getLastD "") then [.alone start place] else [] := by
  simp only [enumerate, leads]

/-- A walk starts in a directory, or at a file, or it lists nothing. -/
theorem enumerate_starts (disk : Disk) (listing : Listing) (start : String)
    (accepted : String → Bool) :
    (∃ place inside, disk.open? start = .ok (place, .dir inside)) ∨
      (∃ place content executable,
        disk.locate false start = .ok (.taken place (.leaf (.file content executable)))) ∨
      disk.enumerate listing start accepted = [] := by
  unfold enumerate
  split
  next place inside leads => exact .inl ⟨place, inside, open?_of_locate leads (by simp)⟩
  next place content executable leads => exact .inr (.inl ⟨place, content, executable, leads⟩)
  next place target leads =>
    split
    next place inside leads => exact .inl ⟨place, inside, leads⟩
    next => exact .inr (.inr rfl)
  next => exact .inr (.inr rfl)

/-- A walk that starts nowhere lists nothing. -/
theorem enumerate_missing (missing : disk.isThere start = false) (accepted : String → Bool) :
    disk.enumerate listing start accepted = [] := by
  unfold isThere at missing
  rcases disk.enumerate_starts listing start accepted with
    ⟨place, inside, leads⟩ | ⟨place, content, executable, leads⟩ | none
  · rw [leads] at missing
    cases missing
  · rw [open?_of_locate leads (by simp)] at missing
    cases missing
  · exact none

end Enumerate

section Formed
variable (formed : disk.tree.Formed allowed) (faithful : listing.Faithful)
include formed faithful

/-- **What a walk lists**, on every disk: the regular files that it comes by and whose names are
accepted. -/
theorem mem_enumerate_iff :
    file ∈ disk.enumerate listing start accepted ↔
      disk.Lists start file ∧ accepted file.name = true := by
  constructor
  · intro member
    rcases disk.enumerate_starts listing start accepted with
      ⟨place, inside, leads⟩ | ⟨place, content, executable, leads⟩ | none
    · have within := (formed.of_at? (at?_of_locate (open?_eq_ok.mp leads))).2
      rw [enumerate_dir leads, List.mem_map] at member
      obtain ⟨names, member, rfl⟩ := member
      obtain ⟨listed, takes⟩ := List.mem_filter.mp member
      rw [← (faithful inside).files_perm.mem_iff, Tree.mem_files within] at listed
      obtain ⟨content, executable, stands⟩ := listed
      exact ⟨.below leads stands, takes⟩
    · rw [enumerate_alone leads] at member
      split at member
      next takes =>
        obtain rfl := List.mem_singleton.mp member
        exact ⟨.alone leads, takes⟩
      next => cases member
    · rw [none] at member
      cases member
  · rintro ⟨lists, takes⟩
    cases lists with
    | @below place names inside content executable leads stands =>
        have within := (formed.of_at? (at?_of_locate (open?_eq_ok.mp leads))).2
        rw [enumerate_dir leads, List.mem_map]
        refine ⟨names, List.mem_filter.mpr ⟨?_, takes⟩, rfl⟩
        rw [← (faithful inside).files_perm.mem_iff, Tree.mem_files within]
        exact ⟨content, executable, stands⟩
    | @alone place content executable leads =>
        rw [SourceFile.alone] at takes
        rw [enumerate_alone leads, if_pos takes]
        exact List.mem_singleton_self _

/-- **A walk lists nothing twice**, on every disk. -/
theorem nodup_enumerate_locations :
    ((disk.enumerate listing start accepted).map SourceFile.location).Nodup := by
  have once : (disk.enumerate listing start accepted).Nodup := by
    rcases disk.enumerate_starts listing start accepted with
      ⟨place, inside, leads⟩ | ⟨place, content, executable, leads⟩ | none
    · have within := (formed.of_at? (at?_of_locate (open?_eq_ok.mp leads))).2
      have listedOnce : (listing inside).files.Nodup :=
        (faithful inside).files_perm.nodup_iff.mp (Tree.nodup_files within)
      have nonempty : ∀ names ∈ (listing inside).files, names ≠ [] := by
        rintro _ member rfl
        rw [← (faithful inside).files_perm.mem_iff] at member
        exact Tree.nil_not_mem_files within member
      rw [enumerate_dir leads]
      refine (listedOnce.filter _).map_on fun names member others memberOther same => ?_
      have locations := congrArg SourceFile.location same
      rw [SourceFile.location_below _ _ (nonempty _ (List.mem_filter.mp member).1),
        SourceFile.location_below _ _ (nonempty _ (List.mem_filter.mp memberOther).1)] at locations
      exact List.append_cancel_left locations
    · rw [enumerate_alone leads]
      split <;> simp
    · rw [none]
      exact List.nodup_nil
  refine once.map_on fun file member other memberOther same => ?_
  exact ((mem_enumerate_iff formed faithful).mp member).1.eq_of_location
    ((mem_enumerate_iff formed faithful).mp memberOther).1 same

end Formed
end Disk
end BuildWarden
