import BuildWarden.Proofs.Tree.Listed
import BuildWarden.Proofs.Tree.Rewriting
/-!
# Disks that differ in contents

Two disks are `Alike` when they have the same entries at the same locations, whatever the files
hold. Links may be among the entries: every path leads to the same location on both disks, and a
walk comes by the same files. Writing a file that is there makes an alike disk.
-/

namespace BuildWarden

/-- Different names in each directory, all of which can be spelled; leaves may be links. -/
abbrev Tree.Named (tree : Tree) : Prop :=
  tree.Formed fun _ => True

namespace Disk
variable {disk before after one two three : Disk} {place : Location} {start : String}
  {file : SourceFile}

/-! ### Alike disks -/

/-- The same entries, except for the contents of files. -/
structure Alike (before after : Disk) : Prop where
  here : after.here = before.here
  locked : after.locked = before.locked
  outline : ∀ location, after.tree.outline? location = before.tree.outline? location
  named : before.tree.Named → after.tree.Named

namespace Alike

/-- A disk is like itself. -/
@[refl]
theorem refl (disk : Disk) : disk.Alike disk :=
  ⟨rfl, rfl, fun _ => rfl, id⟩

/-- Disks that are alike one after the other are alike. -/
theorem trans (first : one.Alike two) (second : two.Alike three) : one.Alike three :=
  ⟨second.here.trans first.here, second.locked.trans first.locked,
    fun location => (second.outline location).trans (first.outline location),
    second.named ∘ first.named⟩

private theorem toExtends (alike : before.Alike after) : before.Extends after :=
  ⟨alike.here, alike.locked, fun location _ there => (alike.outline location).trans there⟩

private theorem extended (alike : before.Alike after) : after.Extends before :=
  ⟨alike.here.symm, alike.locked.symm, fun location _ there =>
    (alike.outline location).symm.trans there⟩

end Alike

/-- A walk comes by a file also on a larger disk. -/
theorem Extends.lists (larger : before.Extends after) (lists : before.Lists start file) :
    after.Lists start file := by
  cases lists with
  | @below place names inside content executable leads stands =>
      have here := open?_eq_ok.mp leads
      obtain ⟨(⟨_, _⟩ | _) | inside', kept, same⟩ := larger.locate here
      · cases same
      · cases same
      obtain ⟨content', executable', present⟩ := larger.file ((at?_inside here names).trans stands)
      exact .below (open?_eq_ok.mpr kept) ((at?_inside kept names).symm.trans present)
  | @alone place content executable leads =>
      obtain ⟨(⟨content', executable'⟩ | _) | _, kept, same⟩ := larger.locate leads
      · exact .alone kept
      · cases same
      · cases same

/-- **A walk comes by the same files on alike disks.** -/
theorem Alike.lists_iff (alike : before.Alike after) :
    after.Lists start file ↔ before.Lists start file :=
  ⟨alike.extended.lists, alike.toExtends.lists⟩

/-- A walk lists the same files on alike disks, in some order. -/
theorem Alike.enumerate_perm {listing again : Listing} {accepted : String → Bool}
    (alike : before.Alike after) (named : before.tree.Named) (faithful : listing.Faithful)
    (faithfulAgain : again.Faithful) :
    (after.enumerate again start accepted).Perm (before.enumerate listing start accepted) := by
  refine (List.perm_ext_iff_of_nodup
    ((nodup_enumerate_locations (alike.named named) faithfulAgain).of_map _)
    ((nodup_enumerate_locations named faithful).of_map _)).mpr fun file => ?_
  rw [mem_enumerate_iff (alike.named named) faithfulAgain, mem_enumerate_iff named faithful,
    alike.lists_iff]

/-- Writing a file that is there makes an alike disk. -/
theorem alike_rewritten {content : Bytes} {executable : Bool}
    (present : disk.tree.at? place = some (.leaf (.file content executable))) (new : Bytes)
    (executable' : Bool) :
    disk.Alike { disk with tree := disk.tree.put place (.leaf (.file new executable')) } where
  here := rfl
  locked := rfl
  outline := outline?_rewritten new present
  named formed := formed.put (formed.of_at? present).1 trivial

end Disk
end BuildWarden
