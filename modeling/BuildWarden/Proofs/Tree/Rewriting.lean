import BuildWarden.Proofs.Tree.Enumerate
/-!
# Files that are written again

A file that is written keeps its place: its path leads there as before and reads what was written.
Nothing changes at any other place.
-/

namespace BuildWarden

variable {content : Bytes} {executable : Bool} {place : Location}

/-- A file lies in a directory, under a name. -/
theorem Tree.exists_directory {tree : Tree}
    (present : tree.at? place = some (.leaf (.file content executable))) :
    ∃ directory name inside, place = directory ++ [name] ∧
      tree.at? directory = some (.dir inside) ∧
      inside.find? name = some (.leaf (.file content executable)) := by
  have split := SourceFile.dropLast_append_getLastD (Tree.file_ne_nil present)
  rw [← split, at?_append] at present
  obtain ⟨entry, above, below⟩ := Option.bind_eq_some_iff.mp present
  cases entry with
  | leaf found => cases below
  | dir inside =>
      rw [Item.at?, at?_singleton] at below
      exact ⟨_, _, inside, split.symm, above, below⟩

namespace Disk
variable {disk : Disk} {path : String} (new : Bytes)

section Present
variable (present : disk.tree.at? place = some (.leaf (.file content executable)))
include present

/-- A file that is rewritten has the new content, and nothing else changes. -/
theorem aspect?_rewritten {executable' : Bool} (other : Location) :
    (disk.tree.put place (.leaf (.file new executable'))).aspect? other =
      if place = other then some (.file new) else disk.tree.aspect? other := by
  obtain ⟨directory, name, inside, rfl, above, entry⟩ := Tree.exists_directory present
  have bare : (Item.leaf (.file new executable')).Bare := trivial
  refine Tree.aspect?_put above (fun found known => ?_) bare other
  rw [entry, Option.some.injEq] at known
  rw [← known]
  trivial

/-- A file that is written keeps its outline, and so does everything else. -/
theorem outline?_rewritten {executable' : Bool} (other : Location) :
    (disk.tree.put place (.leaf (.file new executable'))).outline? other =
      disk.tree.outline? other := by
  unfold Tree.outline?
  rw [aspect?_rewritten new present]
  by_cases same : place = other
  · rw [if_pos same, ← same, Tree.aspect?, present]
    rfl
  · rw [if_neg same]

private theorem extends_rewritten :
    disk.Extends { disk with tree := disk.tree.put place (.leaf (.file new executable)) } :=
  ⟨rfl, rfl, fun other _ there => (outline?_rewritten new present other).trans there⟩

end Present

/-- **A file that can be written is read as it was written**, and nothing else changes. -/
theorem exists_write (leads : disk.open? path = .ok (place, .leaf (.file content executable)))
    (unlocked : disk.locked place = false) :
    ∃ after, disk.write path new = .ok after ∧ after.read path = .ok new ∧
      ∀ other, other ≠ place → after.tree.aspect? other = disk.tree.aspect? other := by
  have present := at?_of_locate (open?_eq_ok.mp leads)
  have aspect (other : Location) :
      (disk.tree.put place (.leaf (.file new executable))).aspect? other =
        if place = other then some (.file new) else disk.tree.aspect? other :=
    aspect?_rewritten new present other
  refine ⟨{ disk with tree := disk.tree.put place (.leaf (.file new executable)) }, ?_, ?_, ?_⟩
  · rw [write_of_open? leads, unlocked]
    rfl
  · obtain ⟨found, still, -⟩ := (extends_rewritten new present).locate (open?_eq_ok.mp leads)
    have here := aspect place
    rw [if_pos rfl, Tree.aspect?, at?_of_locate still] at here
    rcases found with (⟨content', executable'⟩ | _) | _
    · cases here
      exact read_of_open? (open?_eq_ok.mpr still)
    · cases here
    · cases here
  · intro other different
    exact (aspect other).trans (if_neg different.symm)

/-- Where a file is all there is, its name leads to it. -/
theorem open?_only {name : String} (spelled : IsName name) (content : Bytes) (executable : Bool) :
    Disk.open? { tree := .leaf name (.file content executable) .empty } name =
      .ok ([name], .leaf (.file content executable)) := by
  have steps := steps_of_isName spelled
  have relative := isAbsolute_of_isName spelled
  obtain ⟨something, plain, upward, -⟩ := spelled
  simp [open?, locate, locateFrom, something, steps, relative, follow, Tree.at?, Tree.find?]

end Disk
end BuildWarden
