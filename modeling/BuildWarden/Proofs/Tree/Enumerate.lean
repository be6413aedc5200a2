import BuildWarden.Proofs.Tree.Listed
/-!
# Walks on plain disks

On a disk without links, the files that a walk lists are the regular files below its start, each of
them once, and the path of each leads to it. They are the same in every order of listing, and on a
disk that has gained files in between, unless the pattern accepts the name of a new one.
-/

namespace BuildWarden

namespace SourceFile
variable {file : SourceFile} {disk before after : Disk}

/-- A file that stands where its path leads. -/
def Stands (file : SourceFile) (disk : Disk) : Prop :=
  ∃ content executable,
    disk.open? file.path = .ok (file.location, .leaf (.file content executable))

/-- A file whose path goes down from a start by names. -/
def Below (file : SourceFile) (start : String) : Prop :=
  ∃ names : Location, file.path = names.foldl Path.join start

/-- A source stands on every disk that has more. -/
theorem Stands.extends (stands : file.Stands before) (larger : before.Extends after) :
    file.Stands after := by
  obtain ⟨content, executable, leads⟩ := stands
  obtain ⟨found, kept, same⟩ := larger.locate (Disk.open?_eq_ok.mp leads)
  rcases found with (⟨content', executable'⟩ | _) | _
  · exact ⟨content', executable', Disk.open?_eq_ok.mpr kept⟩
  · cases same
  · cases same

/-- Where a source stands, there is a file. -/
theorem Stands.at? (stands : file.Stands disk) :
    ∃ content executable,
      disk.tree.at? file.location = some (.leaf (.file content executable)) := by
  obtain ⟨content, executable, leads⟩ := stands
  exact ⟨content, executable, Disk.at?_of_locate (Disk.open?_eq_ok.mp leads)⟩

/-- A source that stands has a content. -/
theorem Stands.aspect? (stands : file.Stands disk) :
    ∃ content, disk.tree.aspect? file.location = some (.file content) := by
  obtain ⟨content, executable, present⟩ := stands.at?
  exact ⟨content, by rw [Tree.aspect?, present]; rfl⟩

/-- A file lies in its directory. -/
theorem Stands.directory (stands : file.Stands disk) (plain : disk.tree.Plain) :
    IsName file.name ∧ ∃ inside, disk.tree.at? file.directory = some (.dir inside) := by
  obtain ⟨content, executable, present⟩ := stands.at?
  refine ⟨(plain.of_at? present).1 file.name (by simp [location]), ?_⟩
  rw [location, Tree.at?_append] at present
  obtain ⟨entry, above, below⟩ := Option.bind_eq_some_iff.mp present
  cases entry with
  | leaf found => cases below
  | dir inside => exact ⟨inside, above⟩

/-- A file is written where it stands, unless that cannot be written. -/
theorem Stands.writeIn (stands : file.Stands disk) (plain : disk.tree.Plain) (content : Bytes) :
    ∃ executable, disk.writeIn file.directory file.name content =
      if disk.locked file.location then .error .denied
      else .ok { disk with
        tree := disk.tree.put file.location (.leaf (.file content executable)) } := by
  obtain ⟨old, executable, present⟩ := stands.at?
  exact ⟨executable, writeIn_of_at? plain present content⟩

end SourceFile

namespace Disk
variable {disk before after : Disk} {listing again : Listing} {start : String}
  {accepted : String → Bool} {file : SourceFile} {location : Location} {last : Bool}

/-- **What a walk lists**: the files below a directory, or the one file at its start. -/
theorem mem_enumerate (plain : disk.tree.Plain) (faithful : listing.Faithful) :
    file ∈ disk.enumerate listing start accepted ↔
      (∃ location inside names content executable,
        disk.locate false start = .ok (.taken location (.dir inside)) ∧
        inside.at? names = some (.leaf (.file content executable)) ∧
        accepted (names.getLastD "") = true ∧ file = .below start location names) ∨
      ∃ location content executable,
        disk.locate false start = .ok (.taken location (.leaf (.file content executable))) ∧
        accepted (location.getLastD "") = true ∧ file = .alone start location := by
  rw [mem_enumerate_iff plain faithful]
  constructor
  · rintro ⟨lists, takes⟩
    cases lists with
    | @below location names inside content executable leads stands =>
        rw [open?_eq_ok, locate_last plain] at leads
        exact .inl ⟨location, inside, names, content, executable, leads, stands, takes, rfl⟩
    | @alone location content executable leads =>
        exact .inr ⟨location, content, executable, leads, takes, rfl⟩
  · rintro (⟨location, inside, names, content, executable, leads, stands, takes, rfl⟩ |
      ⟨location, content, executable, leads, takes, rfl⟩)
    · rw [← locate_last plain, ← open?_eq_ok] at leads
      exact ⟨.below leads stands, takes⟩
    · exact ⟨.alone leads, takes⟩

/-- A walk lists nothing twice. -/
theorem nodup_enumerate (plain : disk.tree.Plain) (faithful : listing.Faithful) :
    (disk.enumerate listing start accepted).Nodup :=
  (nodup_enumerate_locations plain faithful).of_map SourceFile.location

/-- What a walk lists lies at different locations. -/
theorem injOn_location (plain : disk.tree.Plain) (faithful : listing.Faithful) :
    ∀ file ∈ disk.enumerate listing start accepted,
      ∀ other ∈ disk.enumerate listing start accepted,
        file.location = other.location → file = other := by
  intro file member other memberOther
  exact ((mem_enumerate_iff plain faithful).mp member).1.eq_of_location
    ((mem_enumerate_iff plain faithful).mp memberOther).1

/-- What a walk lists stands where its path leads. -/
theorem stands_of_mem_enumerate (plain : disk.tree.Plain) (faithful : listing.Faithful)
    (member : file ∈ disk.enumerate listing start accepted) :
    file.Stands disk ∧ accepted file.name = true := by
  obtain ⟨lists, takes⟩ := (mem_enumerate_iff plain faithful).mp member
  exact ⟨lists.leads plain, takes⟩

/-- The path of what a walk lists goes down from where it started. -/
theorem below_of_mem_enumerate (plain : disk.tree.Plain) (faithful : listing.Faithful)
    (member : file ∈ disk.enumerate listing start accepted) : file.Below start := by
  rcases (mem_enumerate plain faithful).mp member with
    ⟨location, inside, names, content, executable, leads, stands, takes, rfl⟩ |
    ⟨location, content, executable, leads, takes, rfl⟩
  · exact ⟨names, rfl⟩
  · exact ⟨[], rfl⟩

/-- **A disk that gains files is walked as before**, unless the pattern accepts the name of a new
file. -/
theorem Gains.enumerate_perm {added : Location → Prop} (gains : before.Gains added after)
    (plain : before.tree.Plain) (plainAfter : after.tree.Plain)
    (faithful : listing.Faithful) (faithfulAgain : again.Faithful)
    (ignored : ∀ location, added location → accepted (location.getLastD "") = false) :
    (before.enumerate listing start accepted).Perm (after.enumerate again start accepted) := by
  refine (List.perm_ext_iff_of_nodup (nodup_enumerate plain faithful)
    (nodup_enumerate plainAfter faithfulAgain)).mpr fun file => ?_
  rw [mem_enumerate plain faithful, mem_enumerate plainAfter faithfulAgain]
  constructor
  · rintro (⟨location, inside, names, content, executable, leads, stands, takes, rfl⟩ |
      ⟨location, content, executable, leads, takes, rfl⟩)
    · obtain ⟨(⟨_, _⟩ | _) | inside', kept, same⟩ := gains.locate leads
      · cases same
      · cases same
      · obtain ⟨content', executable', present⟩ :=
          gains.file ((at?_inside leads names).trans stands)
        exact .inl ⟨location, inside', names, content', executable', kept,
          (at?_inside kept names).symm.trans present, takes, rfl⟩
    · obtain ⟨(⟨content', executable'⟩ | _) | _, kept, same⟩ := gains.locate leads
      · exact .inr ⟨location, content', executable', kept, takes, rfl⟩
      · cases same
      · cases same
  · rintro (⟨location, inside, names, content, executable, leads, stands, takes, rfl⟩ |
      ⟨location, content, executable, leads, takes, rfl⟩)
    · rcases gains.located plainAfter leads with ⟨(⟨_, _⟩ | _) | inside', led, same⟩ | ⟨same, -⟩
      · cases same
      · cases same
      · rcases gains.stood ((at?_inside leads names).trans stands) with
          ⟨(⟨content', executable'⟩ | _) | _, stood, same⟩ | ⟨-, new⟩
        · exact .inl ⟨location, inside', names, content', executable', led,
            (at?_inside led names).symm.trans stood, takes, rfl⟩
        · cases same
        · cases same
        · have same := ignored (location ++ names) new
          rw [List.getLastD_eq_getLast?, List.getLast?_append_of_ne_nil _ (Tree.file_ne_nil stands),
            ← List.getLastD_eq_getLast?, takes] at same
          cases same
      · cases same
    · rcases gains.located plainAfter leads with
        ⟨(⟨content', executable'⟩ | _) | _, led, same⟩ | ⟨-, new⟩
      · exact .inr ⟨location, content', executable', led, takes, rfl⟩
      · cases same
      · cases same
      · rw [ignored location new] at takes
        cases takes

end Disk
end BuildWarden
