import BuildWarden.Proofs.Tree.Steps
/-!
# Following paths

Where a path leads depends on the outline of a tree only: which directories, links and files there
are, and not what the files hold. A disk `Extends` another one when it has all that the other one
has; a path that leads somewhere on the smaller disk leads to the same place on the larger one.
-/

namespace BuildWarden

/-- What an item is, without the contents of files and without what is in directories. -/
inductive Outline where
  | file
  | link (target : String)
  | dir
  deriving DecidableEq, Repr

/-- The outline of what can be seen of an item. -/
def Aspect.outline : Aspect → Outline
  | file _ => .file
  | link target => .link target
  | dir => .dir

/-- The outline of what stands at a location. -/
def Tree.outline? (tree : Tree) (location : Location) : Option Outline :=
  (tree.aspect? location).map (·.outline)

section Entry
variable {tree : Tree} {directory : Location} {inside : Tree} {name : String} {item : Item}
  (present : tree.at? directory = some (.dir inside))
include present

/-- What a directory holds is found by its name. -/
theorem Tree.aspect?_concat (name : String) :
    tree.aspect? (directory ++ [name]) = (inside.find? name).map (·.aspect) := by
  rw [aspect?, at?_concat present]

/-- What kind of item a directory holds is found by its name. -/
theorem Tree.outline?_concat (name : String) :
    tree.outline? (directory ++ [name]) = (inside.find? name).map (·.aspect.outline) := by
  rw [outline?, aspect?_concat present, Option.map_map]
  rfl

section New
variable (free : inside.find? name = none) (bare : item.Bare) (location : Location)
include free bare

/-- A new entry is all that changes. -/
theorem Tree.aspect?_put_new :
    (tree.put (directory ++ [name]) item).aspect? location =
      if directory ++ [name] = location then some item.aspect else tree.aspect? location :=
  aspect?_put present (by simp [free]) bare location

/-- An item that is put somewhere is found there, and nothing else changes. -/
theorem Tree.outline?_put :
    (tree.put (directory ++ [name]) item).outline? location =
      if directory ++ [name] = location then some item.aspect.outline
      else tree.outline? location := by
  unfold outline?
  rw [aspect?_put_new present free bare]
  by_cases same : directory ++ [name] = location
  · rw [if_pos same, if_pos same]
    rfl
  · rw [if_neg same, if_neg same]

end New

end Entry

namespace Disk
variable {disk before after : Disk} {last : Bool} {links : Nat} {location place : Location}
  {way : List String} {item : Item}

/-- All that is on one disk is on the other one, at the same location; files may have other
contents. -/
structure Extends (before after : Disk) : Prop where
  here : after.here = before.here
  locked : after.locked = before.locked
  kept : ∀ location outline, before.tree.outline? location = some outline →
    after.tree.outline? location = some outline

/-- A disk extends itself. -/
@[refl]
theorem Extends.refl (disk : Disk) : disk.Extends disk :=
  ⟨rfl, rfl, fun _ _ there => there⟩

/-- A disk that extends one that extends a third extends this too. -/
theorem Extends.trans {first second third : Disk} (one : first.Extends second)
    (other : second.Extends third) : first.Extends third :=
  ⟨other.here.trans one.here, other.locked.trans one.locked,
    fun location outline there => other.kept location outline (one.kept location outline there)⟩

/-- An outline is that of the item that stands there. -/
theorem outline?_eq_some (tree : Tree) (location : Location) (outline : Outline) :
    tree.outline? location = some outline ↔
      ∃ item, tree.at? location = some item ∧ item.aspect.outline = outline := by
  simp [Tree.outline?, Tree.aspect?]

/-- A step that is a name. -/
def IsStep (name : String) : Prop :=
  name ≠ "." ∧ name ≠ ".."

/-- A way that ends has led to what stands there. -/
theorem follow_nil (stands : disk.tree.at? location = some item) :
    disk.follow last links location [] = .ok (.taken location item) := by
  rw [follow, stands]

/-- A dot leads nowhere else. -/
@[simp]
theorem follow_dot (disk : Disk) (last : Bool) (links : Nat) (location : Location)
    (rest : List String) :
    disk.follow last links location ("." :: rest) = disk.follow last links location rest := by
  rw [follow]

/-- Two dots lead to the directory above. -/
@[simp]
theorem follow_up (disk : Disk) (last : Bool) (links : Nat) (location : Location)
    (rest : List String) :
    disk.follow last links location (".." :: rest) =
      disk.follow last links location.dropLast rest := by
  rw [follow]

section Names
variable {name : String} {rest : List String} (step : IsStep name)
include step

/-- The name of a directory leads into it. -/
theorem follow_dir {inside : Tree}
    (stands : disk.tree.at? (location ++ [name]) = some (.dir inside)) :
    disk.follow last links location (name :: rest) =
      disk.follow last links (location ++ [name]) rest := by
  rw [follow]
  · simp only [stands]
  · exact step.1
  · exact step.2

/-- The name of a file ends the way. -/
theorem follow_file {content : Bytes} {executable : Bool}
    (stands : disk.tree.at? (location ++ [name]) = some (.leaf (.file content executable))) :
    disk.follow last links location (name :: rest) =
      if rest.isEmpty then .ok (.taken (location ++ [name]) (.leaf (.file content executable)))
      else .error .notDirectory := by
  rw [follow]
  · simp only [stands]
  · exact step.1
  · exact step.2

private theorem follow_link_kept {target : String}
    (stands : disk.tree.at? (location ++ [name]) = some (.leaf (.link target)))
    (kept : (rest.isEmpty && !last) = true) :
    disk.follow last links location (name :: rest) =
      .ok (.taken (location ++ [name]) (.leaf (.link target))) := by
  rw [follow]
  · simp only [stands, kept, ↓reduceIte]
  · exact step.1
  · exact step.2

/-- A link is followed to its target, unless it is the last name and last links are not followed. -/
theorem follow_link {target : String}
    (stands : disk.tree.at? (location ++ [name]) = some (.leaf (.link target)))
    (followed : ¬(rest.isEmpty && !last) = true) (named : ¬target.isEmpty = true) :
    disk.follow last (links + 1) location (name :: rest) =
      disk.follow last links (if Path.isAbsolute target then [] else location)
        (steps target ++ rest) := by
  rw [follow]
  · simp only [stands, followed, named, Bool.false_eq_true, ↓reduceIte]
  · exact step.1
  · exact step.2

/-- A name that is missing leads to a vacant place if it is the last. -/
theorem follow_none (stands : disk.tree.at? (location ++ [name]) = none) :
    disk.follow last links location (name :: rest) =
      if rest.isEmpty && disk.tree.hasDirAt location then .ok (.vacant (location ++ [name]))
      else .error .missing := by
  rw [follow]
  · simp only [stands]
  · exact step.1
  · exact step.2

end Names

/-- What a path leads to stands where it leads. -/
theorem at?_of_follow (leads : disk.follow last links location way = .ok (.taken place item)) :
    disk.tree.at? place = some item := by
  fun_induction disk.follow last links location way with
  | case1 links location found stands =>
      obtain ⟨rfl, rfl⟩ : location = place ∧ found = item := by simpa using leads
      exact stands
  | case8 links location name rest _ _ next content executable stands
  | case10 links location name rest _ _ next target stands =>
      obtain ⟨rfl, rfl⟩ : next = place ∧ _ = item := by simpa using leads
      exact stands
  | case3 _ _ _ ih | case4 _ _ _ ih | case7 _ _ _ _ _ _ _ _ _ ih
  | case13 _ _ _ _ _ _ _ _ _ _ _ ih => exact ih leads
  | _ => cases leads

/-- Whether a link at the end is followed makes a difference only where a link is at the end. -/
theorem follow_last_or_link (disk : Disk) (links : Nat) (location : Location) (way : List String) :
    disk.follow true links location way = disk.follow false links location way ∨
      ∃ place target, disk.follow false links location way =
        .ok (.taken place (.leaf (.link target))) := by
  fun_induction disk.follow false links location way with
  | case1 links location found stands => exact .inl (follow_nil stands)
  | case2 links location stands => exact .inl (by rw [follow, stands])
  | case3 links location rest ih => rwa [follow_dot]
  | case4 links location rest ih => rwa [follow_up]
  | case5 links location name rest plain upward next vacant free =>
      exact .inl (by rw [follow_none ⟨plain, upward⟩ vacant, if_pos free])
  | case6 links location name rest plain upward next vacant free =>
      exact .inl (by rw [follow_none ⟨plain, upward⟩ vacant, if_neg free])
  | case7 links location name rest plain upward next inside stands ih =>
      rwa [follow_dir ⟨plain, upward⟩ stands]
  | case8 links location name rest plain upward next content executable stands ended =>
      exact .inl (by rw [follow_file ⟨plain, upward⟩ stands, if_pos ended])
  | case9 links location name rest plain upward next content executable stands ended =>
      exact .inl (by rw [follow_file ⟨plain, upward⟩ stands, if_neg ended])
  | case10 links location name rest plain upward next target stands ended =>
      exact .inr ⟨next, target, rfl⟩
  | case11 location name rest plain upward next target stands followed =>
      have there : disk.tree.at? (location ++ [name]) = some (.leaf (.link target)) := stands
      refine .inl ?_
      rw [follow]
      · simp only [there, Bool.not_true, Bool.and_false, Bool.false_eq_true, ↓reduceIte]
      · exact plain
      · exact upward
  | case12 location name rest plain upward next target stands followed links nameless =>
      have there : disk.tree.at? (location ++ [name]) = some (.leaf (.link target)) := stands
      refine .inl ?_
      rw [follow]
      · simp only [there, nameless, Bool.not_true, Bool.and_false, Bool.false_eq_true, ↓reduceIte]
      · exact plain
      · exact upward
  | case13 location name rest plain upward next target stands followed links named ih =>
      rwa [follow_link ⟨plain, upward⟩ stands (by simp) named]

/-- A vacant place lies in a directory. -/
theorem dir_of_follow (leads : disk.follow last links location way = .ok (.vacant place)) :
    ∃ directory name inside, place = directory ++ [name] ∧
      disk.tree.at? directory = some (.dir inside) ∧ inside.find? name = none := by
  fun_induction disk.follow last links location way with
  | case5 links location name rest _ _ next vacant free =>
      obtain rfl : next = place := by simpa using leads
      have standing : disk.tree.hasDirAt location = true := (Bool.and_eq_true_iff.mp free).2
      unfold Tree.hasDirAt at standing
      split at standing
      next inside present =>
        refine ⟨location, name, inside, rfl, present, ?_⟩
        rw [← Tree.at?_concat present]
        exact vacant
      next => cases standing
  | case3 _ _ _ ih | case4 _ _ _ ih | case7 _ _ _ _ _ _ _ _ _ ih
  | case13 _ _ _ _ _ _ _ _ _ _ _ ih => exact ih leads
  | _ => cases leads

private theorem Extends.stands (larger : before.Extends after)
    (stands : before.tree.at? place = some item) :
    ∃ found, after.tree.at? place = some found ∧ found.aspect.outline = item.aspect.outline :=
  (outline?_eq_some _ _ _).mp
    (larger.kept place item.aspect.outline ((outline?_eq_some _ _ _).mpr ⟨item, stands, rfl⟩))

private theorem Extends.dir {inside : Tree} (larger : before.Extends after)
    (stands : before.tree.at? place = some (.dir inside)) :
    ∃ inside', after.tree.at? place = some (.dir inside') := by
  obtain ⟨(⟨_, _⟩ | _) | inside', kept, same⟩ := larger.stands stands
  · cases same
  · cases same
  · exact ⟨inside', kept⟩

/-- A file is still one on a disk that has more. -/
theorem Extends.file {content : Bytes} {executable : Bool} (larger : before.Extends after)
    (stands : before.tree.at? place = some (.leaf (.file content executable))) :
    ∃ content' executable',
      after.tree.at? place = some (.leaf (.file content' executable')) := by
  obtain ⟨(⟨content', executable'⟩ | _) | _, kept, same⟩ := larger.stands stands
  · exact ⟨content', executable', kept⟩
  · cases same
  · cases same

private theorem Extends.link {target : String} (larger : before.Extends after)
    (stands : before.tree.at? place = some (.leaf (.link target))) :
    after.tree.at? place = some (.leaf (.link target)) := by
  obtain ⟨(⟨_, _⟩ | target') | _, kept, same⟩ := larger.stands stands
  · cases same
  · cases same
    exact kept
  · cases same

/-- **A path leads to the same place on a larger disk.** -/
theorem Extends.follow (larger : before.Extends after)
    (leads : before.follow last links location way = .ok (.taken place item)) :
    ∃ found, after.follow last links location way = .ok (.taken place found) ∧
      found.aspect.outline = item.aspect.outline := by
  fun_induction before.follow last links location way with
  | case1 links location there stands =>
      obtain ⟨rfl, rfl⟩ : location = place ∧ there = item := by simpa using leads
      obtain ⟨found, kept, same⟩ := larger.stands stands
      exact ⟨found, follow_nil kept, same⟩
  | case3 links location rest ih =>
      rw [follow_dot]
      exact ih leads
  | case4 links location rest ih =>
      rw [follow_up]
      exact ih leads
  | case7 links location name rest plain upward next inside stands ih =>
      obtain ⟨inside', kept⟩ := larger.dir stands
      rw [follow_dir ⟨plain, upward⟩ kept]
      exact ih leads
  | case8 links location name rest plain upward next content executable stands ended =>
      obtain ⟨rfl, rfl⟩ : next = place ∧ _ = item := by simpa using leads
      obtain ⟨content', executable', kept⟩ := larger.file stands
      rw [follow_file ⟨plain, upward⟩ kept, if_pos ended]
      exact ⟨_, rfl, rfl⟩
  | case10 links location name rest plain upward next target stands ended =>
      obtain ⟨rfl, rfl⟩ : next = place ∧ _ = item := by simpa using leads
      rw [follow_link_kept ⟨plain, upward⟩ (larger.link stands) ended]
      exact ⟨_, rfl, rfl⟩
  | case13 location name rest plain upward next target stands followed links named ih =>
      rw [follow_link ⟨plain, upward⟩ (larger.link stands) followed named]
      exact ih leads
  | _ => cases leads

/-- A path that led to a vacant place leads to the directory made there. Links at the end of the way
are followed now; there was none. -/
theorem Extends.follow_made {inside : Tree} (larger : before.Extends after)
    (made : after.tree.at? place = some (.dir inside))
    (leads : before.follow last links location way = .ok (.vacant place)) :
    after.follow true links location way = .ok (.taken place (.dir inside)) := by
  fun_induction before.follow last links location way with
  | case3 links location rest ih =>
      rw [follow_dot]
      exact ih leads
  | case4 links location rest ih =>
      rw [follow_up]
      exact ih leads
  | case5 links location name rest plain upward next vacant free =>
      obtain rfl : next = place := by simpa using leads
      obtain rfl : rest = [] := List.isEmpty_iff.mp (Bool.and_eq_true_iff.mp free).1
      rw [follow_dir ⟨plain, upward⟩ made]
      exact follow_nil made
  | case7 links location name rest plain upward next inside stands ih =>
      obtain ⟨inside', kept⟩ := larger.dir stands
      rw [follow_dir ⟨plain, upward⟩ kept]
      exact ih leads
  | case13 location name rest plain upward next target stands followed links named ih =>
      rw [follow_link ⟨plain, upward⟩ (larger.link stands) (by simp) named]
      exact ih leads
  | _ => cases leads

/-- A new entry in a directory leaves all the others. -/
theorem extends_put {directory : Location} {inside : Tree} {name : String}
    (present : disk.tree.at? directory = some (.dir inside)) (free : inside.find? name = none)
    (bare : item.Bare) :
    disk.Extends { disk with tree := disk.tree.put (directory ++ [name]) item } where
  here := rfl
  locked := rfl
  kept := by
    intro location outline there
    have elsewhere : directory ++ [name] ≠ location := by
      rintro rfl
      obtain ⟨found, stands, -⟩ := (outline?_eq_some _ _ _).mp there
      rw [Tree.at?_concat present, free] at stands
      cases stands
    rw [Tree.outline?_put present free bare, if_neg elsewhere]
    exact there

/-! ### Making directories -/

/-- A directory that was put somewhere stands there. -/
theorem at?_put_dir {directory : Location} {inside : Tree} {name : String}
    (present : disk.tree.at? directory = some (.dir inside)) (free : inside.find? name = none) :
    ∃ made, (disk.tree.put (directory ++ [name]) (.dir .empty)).at? (directory ++ [name]) =
      some (.dir made) := by
  have bare : (Item.dir .empty).Bare := rfl
  have seen := Tree.aspect?_put_new present free bare (directory ++ [name])
  rw [if_pos rfl] at seen
  obtain ⟨item, stands, same⟩ := Option.map_eq_some_iff.mp seen
  rcases item with (⟨_, _⟩ | _) | made
  · cases same
  · cases same
  · exact ⟨made, stands⟩

/-- A directory that was made is where the way leads. -/
theorem leadsToDir_of_makeDir (made : disk.makeDir location way = .ok after) :
    after.leadsToDir location way = true := by
  unfold makeDir at made
  split at made
  next next leads =>
    split at made
    next => cases made
    next =>
      cases made
      obtain ⟨directory, name, inside, rfl, present, free⟩ := dir_of_follow leads
      obtain ⟨found, stands⟩ := at?_put_dir present free
      have bare : (Item.dir .empty).Bare := rfl
      have larger := extends_put present free bare
      unfold leadsToDir
      rw [larger.follow_made stands leads]
  next => cases made
  next => cases made

/-- **Directories that were made without a refusal are there.** -/
theorem leadsToDir_of_ensureDirs {step : String} {above : List String}
    (made : disk.ensureDirs location (step :: above) = (after, none)) :
    after.leadsToDir location (step :: above).reverse = true := by
  have last (disk : Disk)
      (made : disk.ensureDir location (step :: above).reverse = (after, none)) :
      after.leadsToDir location (step :: above).reverse = true := by
    unfold ensureDir at made
    split at made
    next made' same =>
      cases made
      exact leadsToDir_of_makeDir same
    next =>
      split at made
      next there =>
        cases made
        exact there
      next => cases made
  unfold ensureDirs at made
  split at made
  next =>
    split at made
    next disk' _ => exact last disk' made
    next refused => exact (refused after made).elim
  next => exact last disk made

private theorem makeDir_here (made : disk.makeDir location way = .ok after) :
    after.here = disk.here := by
  unfold makeDir at made
  split at made
  next =>
    split at made
    next => cases made
    next =>
      cases made
      rfl
  next => cases made
  next => cases made

private theorem ensureDir_here (disk : Disk) (location : Location) (way : List String) :
    (disk.ensureDir location way).1.here = disk.here := by
  unfold ensureDir
  split
  next made => exact makeDir_here made
  next => rfl

private theorem ensureDirs_here (location : Location) (way : List String) (disk : Disk) :
    (disk.ensureDirs location way).1.here = disk.here := by
  induction way generalizing disk with
  | nil => rfl
  | cons step above ih =>
      unfold ensureDirs
      split
      next =>
        split
        next made same =>
          rw [ensureDir_here, ← ih disk, same]
        next => exact ih disk
      next => exact ensureDir_here disk location _

/-- Making directories does not change the working directory. -/
theorem makeDirs_here (disk : Disk) (path : String) : (disk.makeDirs path).1.here = disk.here :=
  ensureDirs_here _ _ disk

/-- **A directory that could be made is there.** -/
theorem isDir_of_makeDirs {path : String} (named : path ≠ "")
    (made : (disk.makeDirs path).2 = none) : (disk.makeDirs path).1.isDir path = true := by
  obtain ⟨above, step, shape⟩ := (List.eq_nil_or_concat (steps path)).resolve_left
    (steps_ne_nil path)
  have reversed : (steps path).reverse = step :: above.reverse := by simp [shape]
  have leads : (disk.makeDirs path).1.leadsToDir
      (if Path.isAbsolute path then [] else disk.here) (steps path) = true := by
    have whole : steps path = (step :: above.reverse).reverse := by simp [shape]
    have all : disk.ensureDirs (if Path.isAbsolute path then [] else disk.here)
        (step :: above.reverse) = ((disk.makeDirs path).1, none) := by
      rw [← reversed]
      exact Prod.ext rfl made
    rw [whole]
    exact leadsToDir_of_ensureDirs all
  unfold isDir open? locate locateFrom
  rw [if_neg (by simpa using named), makeDirs_here]
  unfold leadsToDir at leads
  split at leads
  next same => rw [same]
  next => cases leads

end Disk
end BuildWarden
