import BuildWarden.Tree.Changes
/-!
# Well-formed trees

A tree is well formed when the entries of each directory have different names that a path can
spell, and when every leaf is of an allowed kind. `Plain` trees hold directories and regular files
only. Looking something up after an entry was put somewhere is settled here once, by `aspect?_put`:
the entry is seen at its own location and nothing else changes.
-/

namespace BuildWarden

/-- A name that one step of a path can spell. -/
def IsName (name : String) : Prop :=
  name ≠ "" ∧ name ≠ "." ∧ name ≠ ".." ∧ '/' ∉ name.toList

instance : DecidablePred IsName := fun name =>
  inferInstanceAs (Decidable (name ≠ "" ∧ name ≠ "." ∧ name ≠ ".." ∧ '/' ∉ name.toList))

/-- A regular file. -/
def Leaf.IsFile : Leaf → Prop
  | .file _ _ => True
  | .link _ => False

instance : DecidablePred Leaf.IsFile
  | .file _ _ => isTrue trivial
  | .link _ => isFalse id

namespace Tree

/-- Different names in each directory, all of which can be spelled, and only allowed leaves. -/
def Formed (allowed : Leaf → Prop) : Tree → Prop
  | empty => True
  | leaf name found rest =>
    IsName name ∧ allowed found ∧ rest.find? name = none ∧ rest.Formed allowed
  | dir name inside rest =>
    IsName name ∧ inside.Formed allowed ∧ rest.find? name = none ∧ rest.Formed allowed

/-- Directories and regular files, and nothing else. -/
abbrev Plain (tree : Tree) : Prop :=
  tree.Formed Leaf.IsFile

/-- Whether a tree is well formed can be computed. -/
def decideFormed (allowed : Leaf → Prop) [DecidablePred allowed] :
    (tree : Tree) → Decidable (tree.Formed allowed)
  | empty => isTrue trivial
  | leaf name found rest =>
    have := rest.decideFormed allowed
    inferInstanceAs (Decidable
      (IsName name ∧ allowed found ∧ rest.find? name = none ∧ rest.Formed allowed))
  | dir name inside rest =>
    have := inside.decideFormed allowed
    have := rest.decideFormed allowed
    inferInstanceAs (Decidable
      (IsName name ∧ inside.Formed allowed ∧ rest.find? name = none ∧ rest.Formed allowed))

instance (allowed : Leaf → Prop) [DecidablePred allowed] : DecidablePred (Formed allowed) :=
  decideFormed allowed

end Tree

namespace Item

/-- What stands at a location below an item. -/
def at? : Item → Location → Option Item
  | leaf found, [] => some (leaf found)
  | leaf _, _ :: _ => none
  | dir inside, location => inside.at? location

/-- A well-formed item. -/
def Formed (allowed : Leaf → Prop) : Item → Prop
  | leaf found => allowed found
  | dir inside => inside.Formed allowed

/-- Nothing stands below the item. -/
def Bare : Item → Prop
  | leaf _ => True
  | dir inside => inside = .empty

@[simp]
private theorem at?_nil (item : Item) : item.at? [] = some item := by
  cases item with
  | leaf found => rfl
  | dir inside => cases inside <;> rfl

private theorem Bare.at?_cons {item : Item} (bare : item.Bare) (name : String) (rest : Location) :
    item.at? (name :: rest) = none := by
  cases item with
  | leaf found => rfl
  | dir inside =>
      cases (bare : inside = .empty)
      rfl

end Item

namespace Tree
variable {allowed : Leaf → Prop} {tree : Tree} {name other : String}

/-- At the top stands the tree itself. -/
@[simp]
theorem at?_nil (tree : Tree) : tree.at? [] = some (.dir tree) := by
  cases tree <;> rfl

/-- What stands below a name is found in what the name leads to. -/
theorem at?_cons (tree : Tree) (name : String) (rest : Location) :
    tree.at? (name :: rest) = (tree.find? name).bind (·.at? rest) := by
  rw [at?]
  cases tree.find? name with
  | none => rfl
  | some item =>
      cases item with
      | leaf found => cases rest <;> rfl
      | dir inside => rfl

/-- A location can be gone in two parts. -/
theorem at?_append (tree : Tree) (front back : Location) :
    tree.at? (front ++ back) = (tree.at? front).bind (·.at? back) := by
  induction front generalizing tree with
  | nil => simp [Item.at?]
  | cons name front ih =>
      rw [List.cons_append, at?_cons, at?_cons]
      cases tree.find? name with
      | none => rfl
      | some item =>
          cases item with
          | leaf found => cases front <;> simp [Item.at?]
          | dir inside => exact ih inside

/-- One name is found among the entries. -/
theorem at?_singleton (tree : Tree) (name : String) : tree.at? [name] = tree.find? name := by
  rw [at?_cons]
  cases tree.find? name <;> simp

/-- An entry that is there is found at the end of its directory. -/
theorem at?_concat {directory : Location} {inside : Tree}
    (present : tree.at? directory = some (.dir inside)) (name : String) :
    tree.at? (directory ++ [name]) = inside.find? name := by
  rw [at?_append, present, Option.bind_some, Item.at?, at?_singleton]

/-- What is found in a tree with a first entry, which may be missing. -/
theorem find?_place (name other : String) (item : Option Item) (rest : Tree) :
    (place name item rest).find? other =
      if name = other then item.or (rest.find? other) else rest.find? other := by
  match item with
  | none => simp [place]
  | some (.leaf found) => simp only [place, find?]; split <;> rfl
  | some (.dir inside) => simp only [place, find?]; split <;> rfl

/-- A directory is empty, or it has an entry in front of the others. -/
theorem place_induction {motive : Tree → Prop} (empty : motive .empty)
    (place : ∀ name item rest, motive rest → motive (place name (some item) rest))
    (tree : Tree) : motive tree := by
  induction tree with
  | empty => exact empty
  | leaf name found rest ih => exact place name (.leaf found) rest ih
  | dir name inside rest _ ih => exact place name (.dir inside) rest ih

/-- A tree is formed if its first entry has a name of its own and both parts are formed. -/
theorem formed_place_some (name : String) (item : Item) (rest : Tree) :
    (place name (some item) rest).Formed allowed ↔
      IsName name ∧ item.Formed allowed ∧ rest.find? name = none ∧ rest.Formed allowed := by
  cases item <;> rfl

/-- A change of a name concerns the entry in front, or it is made behind it. -/
theorem alter_place (first name : String) (item : Item) (rest : Tree)
    (change : Option Item → Option Item) :
    (place first (some item) rest).alter name change =
      if first = name then place name (change (some item)) rest
      else place first (some item) (rest.alter name change) := by
  cases item <;> rfl

/-- What a name stands for in a well-formed tree is well formed, and the name can be spelled. -/
theorem Formed.of_find? (formed : tree.Formed allowed) {item : Item}
    (found : tree.find? name = some item) : IsName name ∧ item.Formed allowed := by
  induction tree using place_induction with
  | empty => cases found
  | place first entry rest ih =>
      obtain ⟨spelled, within, -, formed⟩ := (formed_place_some ..).mp formed
      rw [find?_place] at found
      by_cases same : first = name
      · subst same
        rw [if_pos rfl, Option.some_or, Option.some.injEq] at found
        subst found
        exact ⟨spelled, within⟩
      · rw [if_neg same] at found
        exact ih formed found

/-- What stands at a location of a well-formed tree is well formed, and the location can be
spelled. -/
theorem Formed.of_at? (formed : tree.Formed allowed) {location : Location} {item : Item}
    (found : tree.at? location = some item) :
    (∀ name ∈ location, IsName name) ∧ item.Formed allowed := by
  induction location generalizing tree with
  | nil =>
      rw [at?_nil, Option.some.injEq] at found
      subst found
      exact ⟨by simp, formed⟩
  | cons name rest ih =>
      rw [at?_cons] at found
      obtain ⟨entry, here, below⟩ := Option.bind_eq_some_iff.mp found
      obtain ⟨spelled, within⟩ := formed.of_find? here
      cases entry with
      | leaf leaf =>
          cases rest with
          | nil =>
              cases below
              exact ⟨by simpa using spelled, within⟩
          | cons next rest => cases below
      | dir inside =>
          obtain ⟨others, last⟩ := ih within below
          exact ⟨by simpa using ⟨spelled, others⟩, last⟩

/-- Changing the entry of a name leaves the other names as they are. -/
theorem find?_alter_of_ne (tree : Tree) {name other : String} (different : name ≠ other)
    (change : Option Item → Option Item) :
    (tree.alter name change).find? other = tree.find? other := by
  induction tree using place_induction with
  | empty => rw [alter, find?_place, if_neg different]
  | place first item rest ih =>
      rw [alter_place]
      by_cases same : first = name
      · rw [if_pos same, find?_place, find?_place, if_neg different, if_neg (same ▸ different)]
      · rw [if_neg same, find?_place, find?_place, ih]

/-- A name stands for what its entry was changed into. -/
theorem find?_alter_self {name : String} {change : Option Item → Option Item} {item : Item}
    (changed : change (tree.find? name) = some item) :
    (tree.alter name change).find? name = some item := by
  induction tree using place_induction with
  | empty =>
      rw [find?] at changed
      rw [alter, find?_place, if_pos rfl, changed, Option.some_or]
  | place first found rest ih =>
      rw [find?_place] at changed
      rw [alter_place]
      by_cases same : first = name
      · rw [if_pos same, Option.some_or] at changed
        rw [if_pos same, find?_place, if_pos rfl, changed, Option.some_or]
      · rw [if_neg same] at changed
        rw [if_neg same, find?_place, if_neg same, ih changed]

private theorem put_singleton (tree : Tree) (name : String) (item : Item) :
    tree.put [name] item = tree.alter name fun _ => some item :=
  rfl

/-- Below an entry of the directory, a change concerns that entry alone. -/
theorem put_cons (tree : Tree) (first : String) {rest : Location} (more : rest ≠ []) (item : Item) :
    tree.put (first :: rest) item = tree.alter first fun
      | some (.dir inside) => some (.dir (inside.put rest item))
      | found => found := by
  cases rest with
  | nil => exact (more rfl).elim
  | cons next rest => rfl

/-- **What stands where, after an entry was put into a directory.** The entry is seen at its own
location, and nothing else changes: where there was something before, or is something now, nothing
lies below it. -/
theorem aspect?_put {directory : Location} {inside : Tree}
    (present : tree.at? directory = some (.dir inside)) {name : String} {item : Item}
    (before : ∀ found, inside.find? name = some found → found.Bare) (after : item.Bare)
    (other : Location) :
    (tree.put (directory ++ [name]) item).aspect? other =
      if directory ++ [name] = other then some item.aspect else tree.aspect? other := by
  induction directory generalizing tree other with
  | nil =>
      rw [at?_nil, Option.some.injEq, Item.dir.injEq] at present
      subst present
      rw [List.nil_append, put_singleton]
      cases other with
      | nil => simp [aspect?, Item.aspect]
      | cons first rest =>
          unfold aspect?
          rw [at?_cons, at?_cons]
          by_cases same : name = first
          · subst same
            rw [find?_alter_self rfl]
            cases rest with
            | nil => simp
            | cons next rest =>
                have hidden : (tree.find? name).bind (·.at? (next :: rest)) = none := by
                  cases found : tree.find? name with
                  | none => rfl
                  | some item => exact (before item found).at?_cons next rest
                simp [hidden, after.at?_cons]
          · rw [find?_alter_of_ne tree same]
            simp [same]
  | cons first directory ih =>
      rw [at?_cons] at present
      obtain ⟨found, entry, lower⟩ := Option.bind_eq_some_iff.mp present
      cases found with
      | leaf found => cases directory <;> simp [Item.at?] at lower
      | dir below =>
          rw [List.cons_append, put_cons _ _ (by simp)]
          cases other with
          | nil => simp [aspect?, Item.aspect]
          | cons step rest =>
              have further := ih lower rest
              unfold aspect? at further ⊢
              rw [at?_cons, at?_cons]
              by_cases same : first = step
              · subst same
                have changed : (match (tree.find? first) with
                    | some (.dir inside) => some (Item.dir (inside.put (directory ++ [name]) item))
                    | found => found) = some (.dir (below.put (directory ++ [name]) item)) := by
                  rw [entry]
                rw [find?_alter_self changed]
                simpa [entry, Item.at?] using further
              · rw [find?_alter_of_ne tree same]
                simp [same]

private theorem Formed.place (spelled : IsName name) {item : Option Item}
    (allows : ∀ found, item = some found → found.Formed allowed) {rest : Tree}
    (fresh : rest.find? name = none) (formed : rest.Formed allowed) :
    (place name item rest).Formed allowed :=
  match item with
  | none => formed
  | some _ => (formed_place_some ..).mpr ⟨spelled, allows _ rfl, fresh, formed⟩

/-- Well-formedness survives a change of one entry into something well formed. -/
theorem Formed.alter (formed : tree.Formed allowed) (spelled : IsName name)
    {change : Option Item → Option Item}
    (allows : ∀ found, change (tree.find? name) = some found → found.Formed allowed) :
    (tree.alter name change).Formed allowed := by
  induction tree using place_induction with
  | empty => exact Formed.place spelled allows rfl trivial
  | place first item rest ih =>
      obtain ⟨named, within, fresh, formed⟩ := (formed_place_some ..).mp formed
      rw [find?_place] at allows
      rw [alter_place]
      by_cases same : first = name
      · subst same
        rw [if_pos rfl, Option.some_or] at allows
        rw [if_pos rfl]
        exact Formed.place named allows fresh formed
      · rw [if_neg same] at allows ⊢
        refine (formed_place_some ..).mpr ⟨named, within, ?_, ih formed allows⟩
        rw [find?_alter_of_ne rest (Ne.symm same), fresh]

/-- Well-formedness survives putting something well formed anywhere. -/
theorem Formed.put (formed : tree.Formed allowed) {location : Location}
    (spelled : ∀ name ∈ location, IsName name) {item : Item} (allows : item.Formed allowed) :
    (tree.put location item).Formed allowed := by
  induction location generalizing tree with
  | nil => exact formed
  | cons first rest ih =>
      have here := spelled first (by simp)
      cases rest with
      | nil =>
          rw [put_singleton]
          exact formed.alter here fun found same => by cases same; exact allows
      | cons next rest =>
          rw [put_cons _ _ (by simp)]
          refine formed.alter here fun found same => ?_
          cases entry : tree.find? first with
          | none => rw [entry] at same; cases same
          | some item =>
              have within := (formed.of_find? entry).2
              cases item with
              | leaf leaf =>
                  rw [entry, Option.some.injEq] at same
                  exact same ▸ within
              | dir inside =>
                  rw [entry, Option.some.injEq] at same
                  subst same
                  exact ih within fun name member => spelled name (by simp [member])

end Tree
end BuildWarden
