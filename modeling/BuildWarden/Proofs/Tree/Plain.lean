import BuildWarden.Proofs.Tree.Linked
/-!
# Disks without links

Without links, a path is followed name by name. A disk `Gains` files when it keeps all that it has
and everything new is a file; a path then leads where it led before, or to a new file.
-/

namespace BuildWarden

namespace Disk
variable {disk before after : Disk} {last : Bool} {links : Nat} {location place : Location}
  {way : List String} {item : Item}

/-! ### Paths without links -/

/-- A way from a location to an item at a place, through directories and without links. -/
inductive Trail (disk : Disk) : Location → List String → Location → Item → Prop
  | here {location : Location} {item : Item} :
      disk.tree.at? location = some item → Trail disk location [] location item
  | dot {location place : Location} {rest : List String} {item : Item} :
      Trail disk location rest place item → Trail disk location ("." :: rest) place item
  | up {location place : Location} {rest : List String} {item : Item} :
      Trail disk location.dropLast rest place item → Trail disk location (".." :: rest) place item
  | dir {location place : Location} {name : String} {rest : List String} {inside : Tree}
      {item : Item} : IsStep name → disk.tree.at? (location ++ [name]) = some (.dir inside) →
        Trail disk (location ++ [name]) rest place item →
          Trail disk location (name :: rest) place item
  | file {location : Location} {name : String} {content : Bytes} {executable : Bool} :
      IsStep name →
        disk.tree.at? (location ++ [name]) = some (.leaf (.file content executable)) →
          Trail disk location [name] (location ++ [name]) (.leaf (.file content executable))

section Plain
variable (plain : disk.tree.Plain)
include plain

/-- No link stands anywhere. -/
theorem at?_ne_link (location : Location) (target : String) :
    disk.tree.at? location ≠ some (.leaf (.link target)) :=
  fun stands => (plain.of_at? stands).2

/-- **A path that leads somewhere takes no link.** -/
theorem trail_of_follow (leads : disk.follow last links location way = .ok (.taken place item)) :
    disk.Trail location way place item := by
  fun_induction disk.follow last links location way with
  | case1 links location there stands =>
      obtain ⟨rfl, rfl⟩ : location = place ∧ there = item := by simpa using leads
      exact .here stands
  | case3 links location rest ih => exact .dot (ih leads)
  | case4 links location rest ih => exact .up (ih leads)
  | case7 links location name rest dot up next inside stands ih =>
      exact .dir ⟨dot, up⟩ stands (ih leads)
  | case8 links location name rest dot up next content executable stands ended =>
      obtain ⟨rfl, rfl⟩ : next = place ∧ _ = item := by simpa using leads
      obtain rfl : rest = [] := by simpa using ended
      exact .file ⟨dot, up⟩ stands
  | case10 _ _ _ _ _ _ _ _ stands => exact (at?_ne_link plain _ _ stands).elim
  | case13 _ _ _ _ _ _ _ stands => exact (at?_ne_link plain _ _ stands).elim
  | _ => cases leads

/-- Whether links at the end are followed makes no difference. -/
theorem follow_last (links : Nat) (location : Location) (way : List String) :
    disk.follow true links location way = disk.follow false links location way := by
  refine (follow_last_or_link disk links location way).resolve_right ?_
  rintro ⟨place, target, linked⟩
  exact at?_ne_link plain place target (at?_of_follow linked)

/-- In a plain tree it does not matter whether a last link is followed. -/
theorem locate_last (path : String) : disk.locate true path = disk.locate false path := by
  unfold locate locateFrom
  rw [follow_last plain]

/-- Names lead down to what stands there. -/
theorem follow_names {names : List String} (spelled : ∀ name ∈ names, IsName name)
    (stands : disk.tree.at? (location ++ names) = some item) :
    disk.follow last links location names = .ok (.taken (location ++ names) item) := by
  refine follow_down spelled stands fun target linked => ?_
  rw [linked] at stands
  exact at?_ne_link plain _ _ stands

/-- Where a name in a directory leads. -/
theorem locateFrom_entry {name : String} (spelled : IsName name) {inside : Tree}
    (present : disk.tree.at? location = some (.dir inside)) :
    disk.locateFrom last location name =
      match inside.find? name with
      | some found => .ok (.taken (location ++ [name]) found)
      | none => .ok (.vacant (location ++ [name])) := by
  have entry := Tree.at?_concat present name
  rw [locateFrom_name disk last location spelled]
  match there : inside.find? name with
  | some found =>
      rw [there] at entry
      exact follow_names plain (by simpa using spelled) entry
  | none =>
      rw [there] at entry
      have standing : disk.tree.hasDirAt location = true := by rw [Tree.hasDirAt, present]
      rw [follow_none ⟨spelled.2.1, spelled.2.2.1⟩ entry, standing]
      rfl

section Entry
variable {name : String} {inside : Tree} (spelled : IsName name)
  (present : disk.tree.at? location = some (.dir inside))
include spelled present

/-- A new file is written where nothing is, unless that cannot be written. -/
theorem writeIn_vacant (free : inside.find? name = none) (content : Bytes) :
    disk.writeIn location name content =
      if disk.locked (location ++ [name]) then .error .denied
      else .ok { disk with
        tree := disk.tree.put (location ++ [name]) (.leaf (.file content false)) } := by
  unfold writeIn
  rw [locateFrom_entry plain spelled present, free]
  rfl

/-- Nothing is written over a directory. -/
theorem writeIn_dir {within : Tree} (taken : inside.find? name = some (.dir within))
    (content : Bytes) : disk.writeIn location name content = .error .isDirectory := by
  unfold writeIn
  rw [locateFrom_entry plain spelled present, taken]
  rfl

/-- Whether a name in a directory leads to a file can be seen at its location. -/
theorem isFileIn_iff :
    disk.isFileIn location name = true ↔ disk.tree.outline? (location ++ [name]) = some .file := by
  unfold isFileIn
  rw [locateFrom_entry plain spelled present, Tree.outline?_concat present]
  match inside.find? name with
  | none => simp
  | some (.leaf (.file content executable)) => simp [Item.aspect, Aspect.outline]
  | some (.leaf (.link target)) => simp [Item.aspect, Aspect.outline]
  | some (.dir within) => simp [Item.aspect, Aspect.outline]

end Entry
end Plain

/-- A path can be opened exactly if it leads to an item. -/
theorem open?_eq_ok {path : String} :
    disk.open? path = .ok (place, item) ↔ disk.locate true path = .ok (.taken place item) := by
  unfold open?
  split
  next location found same => simp [same]
  next location same => simp [same]
  next fault same => simp [same]

section Open
variable {path : String} {content : Bytes} {executable : Bool}
  (leads : disk.open? path = .ok (place, .leaf (.file content executable)))
include leads

/-- A file is read where its path leads. -/
theorem read_of_open? : disk.read path = .ok content := by
  unfold read
  rw [leads]
  rfl

/-- A file is written where its path leads, unless that cannot be written. -/
theorem write_of_open? (new : Bytes) :
    disk.write path new =
      if disk.locked place then .error .denied
      else .ok { disk with tree := disk.tree.put place (.leaf (.file new executable)) } := by
  unfold write
  rw [open?_eq_ok.mp leads]
  rfl

end Open

/-- A path leads to the same place on a disk that has more, to an item of the same kind. -/
theorem Extends.locate {path : String} (larger : before.Extends after)
    (leads : before.locate last path = .ok (.taken place item)) :
    ∃ found, after.locate last path = .ok (.taken place found) ∧
      found.aspect.outline = item.aspect.outline := by
  unfold Disk.locate locateFrom at leads ⊢
  split at leads
  · cases leads
  next named =>
    rw [if_neg named, larger.here]
    exact larger.follow leads

/-! ### Disks that gain files -/

/-- All that is on one disk is on the other one, and what is new are files at some locations. -/
structure Gains (added : Location → Prop) (before after : Disk) : Prop
    extends before.Extends after where
  new : ∀ location, before.tree.outline? location = none →
    after.tree.outline? location = none ∨
      after.tree.outline? location = some .file ∧ added location

variable {added : Location → Prop}

/-- A disk that stays has gained nothing. -/
@[refl]
theorem Gains.refl (disk : Disk) : disk.Gains added disk :=
  ⟨.refl disk, fun _ none => .inl none⟩

/-- What is gained twice is gained. -/
theorem Gains.trans {first second third : Disk} (one : first.Gains added second)
    (other : second.Gains added third) : first.Gains added third := by
  refine ⟨one.toExtends.trans other.toExtends, fun location none => ?_⟩
  rcases one.new location none with still | ⟨file, gained⟩
  · exact other.new location still
  · exact .inr ⟨other.kept location .file file, gained⟩

/-- What stands on the later disk stood on the earlier one, or is a new file. -/
theorem Gains.stood (gains : before.Gains added after)
    (stands : after.tree.at? place = some item) :
    (∃ found, before.tree.at? place = some found ∧
        found.aspect.outline = item.aspect.outline) ∨
      item.aspect.outline = .file ∧ added place := by
  have seen : after.tree.outline? place = some item.aspect.outline :=
    (outline?_eq_some _ _ _).mpr ⟨item, stands, rfl⟩
  cases there : before.tree.outline? place with
  | none =>
      rcases gains.new place there with none | ⟨file, gained⟩
      · rw [seen] at none
        cases none
      · rw [seen, Option.some.injEq] at file
        exact .inr ⟨file, gained⟩
  | some outline =>
      rw [gains.kept place outline there, Option.some.injEq] at seen
      exact .inl ((outline?_eq_some _ _ _).mp (there.trans (congrArg some seen)))

/-- A directory was there before. -/
theorem Gains.dir_stood {inside : Tree} (gains : before.Gains added after)
    (stands : after.tree.at? place = some (.dir inside)) :
    ∃ inside', before.tree.at? place = some (.dir inside') := by
  rcases gains.stood stands with ⟨(⟨_, _⟩ | _) | inside', found, same⟩ | ⟨file, -⟩
  · cases same
  · cases same
  · exact ⟨inside', found⟩
  · cases file

/-- A path that leads somewhere on the later disk led there before, or leads to a new file. -/
theorem Gains.followed (gains : before.Gains added after) (plain : after.tree.Plain)
    (leads : after.follow last links location way = .ok (.taken place item)) :
    (∃ found, before.follow last links location way = .ok (.taken place found) ∧
        found.aspect.outline = item.aspect.outline) ∨
      item.aspect.outline = .file ∧ added place := by
  replace leads := trail_of_follow plain leads
  induction leads with
  | here stands =>
      rcases gains.stood stands with ⟨found, stood, same⟩ | new
      · exact .inl ⟨found, follow_nil stood, same⟩
      · exact .inr new
  | dot _ ih => rwa [follow_dot]
  | up _ ih => rwa [follow_up]
  | dir step stands _ ih =>
      obtain ⟨inside', stood⟩ := gains.dir_stood stands
      rwa [follow_dir step stood]
  | file step stands =>
      rcases gains.stood stands with ⟨(⟨content', executable'⟩ | _) | _, found, same⟩ | new
      · rw [follow_file step found, if_pos List.isEmpty_nil]
        exact .inl ⟨_, rfl, rfl⟩
      · cases same
      · cases same
      · exact .inr new

/-- What a path leads to stood there before, or is a file that was gained. -/
theorem Gains.located {path : String} (gains : before.Gains added after)
    (plain : after.tree.Plain) (leads : after.locate last path = .ok (.taken place item)) :
    (∃ found, before.locate last path = .ok (.taken place found) ∧
        found.aspect.outline = item.aspect.outline) ∨
      item.aspect.outline = .file ∧ added place := by
  unfold Disk.locate locateFrom at leads ⊢
  split at leads
  · cases leads
  next named =>
    rw [if_neg named, ← gains.here]
    exact gains.followed plain leads

end Disk
end BuildWarden
