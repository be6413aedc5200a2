import BuildWarden.Settings.Value
/-!
# Tables as finite maps

A table that settings are put into one after the other lists its names in increasing order, so that
each name stands once. Laying one table over another is then told name by name: the upper one
decides, except that two tables are laid over each other in turn.
-/

namespace BuildWarden.Settings

namespace Table

/-- The names of a table, in order. -/
def names : Table → List String
  | empty => []
  | scalar name _ _ rest => name :: rest.names
  | table name _ _ rest => name :: rest.names

/-- A table in which names increase, and so they do in the tables that it holds. -/
def Formed : Table → Prop
  | empty => True
  | scalar name _ _ rest => (∀ other ∈ rest.names, name < other) ∧ rest.Formed
  | table name _ inside rest =>
    (∀ other ∈ rest.names, name < other) ∧ inside.Formed ∧ rest.Formed

end Table

namespace Setting

/-- A setting that is no table, or one that is formed. -/
def Formed : Setting → Prop
  | scalar _ _ => True
  | table _ inside => inside.Formed

/-- A setting laid over what is below it. -/
def onto : (upper : Setting) → (below : Option Setting) → Setting
  | scalar origin value, _ => .scalar origin value
  | table _ inside, some (.table origin outside) => .table origin (outside.merge inside)
  | table origin inside, _ => .table origin (Table.empty.merge inside)

/-- The value of a setting that is no table. -/
def scalar? : Setting → Option Scalar
  | scalar _ value => some value
  | table _ _ => none

/-- A scalar is formed. -/
theorem formed_scalar (origin : Origin) (value : Scalar) : (scalar origin value).Formed :=
  trivial

/-- A table is a formed setting if it is formed. -/
theorem formed_table (origin : Origin) {inside : Table} (formed : inside.Formed) :
    (table origin inside).Formed :=
  formed

end Setting

namespace Table
variable {settings base upper rest : Table} {name other : String} {setting : Setting}

/-! ### Tables setting by setting -/

/-- A table is empty, or a setting in front of a table. -/
@[elab_as_elim]
theorem place_induction {motive : Table → Prop} (empty : motive .empty)
    (place : ∀ name setting rest, motive rest → motive (place name setting rest))
    (settings : Table) : motive settings := by
  induction settings with
  | empty => exact empty
  | scalar name origin value rest ih => exact place name (.scalar origin value) rest ih
  | table name origin inside rest _ ih => exact place name (.table origin inside) rest ih

/-- The empty table is formed. -/
theorem formed_empty : empty.Formed :=
  trivial

/-- What is found in a table with a first entry: its setting under its name, else what the rest
holds. -/
theorem find?_place (name other : String) (setting : Setting) (rest : Table) :
    (place name setting rest).find? other =
      if name = other then some setting else rest.find? other := by
  cases setting <;> rfl

private theorem names_place (name : String) (setting : Setting) (rest : Table) :
    (place name setting rest).names = name :: rest.names := by
  cases setting <;> rfl

/-- A table is formed if its first name is the smallest and both parts are formed. -/
theorem formed_place : (place name setting rest).Formed ↔
    (∀ other ∈ rest.names, name < other) ∧ setting.Formed ∧ rest.Formed := by
  cases setting with
  | scalar origin value =>
      exact and_congr_right fun _ => ⟨fun remains => ⟨trivial, remains⟩, And.right⟩
  | table origin inside => exact Iff.rfl

private theorem set_place (name other : String) (setting found : Setting) (rest : Table) :
    (place other found rest).set name setting =
      if other = name then place name setting rest
      else if name < other then place name setting (place other found rest)
      else place other found (rest.set name setting) := by
  cases found <;> rfl

private theorem merge_place (base : Table) (name : String) (setting : Setting) (rest : Table) :
    base.merge (place name setting rest) =
      (base.set name (setting.onto (base.find? name))).merge rest := by
  cases setting with
  | scalar origin value => rfl
  | table origin inside =>
      rw [place, merge]
      cases base.find? name with
      | none => rfl
      | some below => cases below <;> rfl

/-! ### One setting -/

/-- Setting a name changes what this name stands for, and nothing else. -/
theorem find?_set (name other : String) (setting : Setting) (settings : Table) :
    (settings.set name setting).find? other =
      if name = other then some setting else settings.find? other := by
  induction settings using place_induction with
  | empty => exact find?_place name other setting empty
  | place first found rest ih =>
      rw [set_place, find?_place]
      by_cases same : first = name
      · rw [if_pos same, find?_place, same]
        split <;> rfl
      rw [if_neg same]
      split
      · rw [find?_place, find?_place]
      · rw [find?_place, ih]
        by_cases here : name = other
        · rw [if_pos here, if_pos here, if_neg fun equal => same (equal.trans here.symm)]
        · rw [if_neg here, if_neg here]

private theorem mem_names_set (mem : other ∈ (settings.set name setting).names) :
    other = name ∨ other ∈ settings.names := by
  induction settings using place_induction with
  | empty => exact .inl (List.mem_singleton.mp (names_place name setting empty ▸ mem))
  | place first found rest ih =>
      rw [set_place] at mem
      rw [names_place, List.mem_cons]
      split at mem
      next =>
        rw [names_place, List.mem_cons] at mem
        exact mem.imp_right .inr
      split at mem
      · rw [names_place, names_place, List.mem_cons, List.mem_cons] at mem
        exact mem
      · rw [names_place, List.mem_cons] at mem
        rcases mem with same | mem
        · exact .inr (.inl same)
        · exact (ih mem).imp_right .inr

/-- A table stays formed when a setting is put into it. -/
theorem Formed.set (formed : settings.Formed) (fits : setting.Formed) (name : String) :
    (settings.set name setting).Formed := by
  induction settings using place_induction with
  | empty => exact formed_place.mpr ⟨fun _ none => (List.not_mem_nil none).elim, fits, trivial⟩
  | place first found rest ih =>
      obtain ⟨before, inside, remains⟩ := formed_place.mp formed
      rw [set_place]
      split
      next same => exact formed_place.mpr ⟨same ▸ before, fits, remains⟩
      next different =>
        split
        next less =>
          refine formed_place.mpr ⟨fun other member => ?_, fits, formed⟩
          rw [names_place, List.mem_cons] at member
          rcases member with rfl | later
          · exact less
          · exact String.lt_trans less (before other later)
        next notLess =>
          refine formed_place.mpr ⟨fun other member => ?_, inside, ih remains⟩
          rcases mem_names_set member with rfl | later
          · exact Std.lt_of_le_of_ne (String.not_lt.mp notLess) different
          · exact before other later

private theorem find?_eq_none (absent : name ∉ settings.names) : settings.find? name = none := by
  induction settings using place_induction with
  | empty => rfl
  | place first found rest ih =>
      rw [names_place, List.mem_cons, not_or] at absent
      rw [find?_place, if_neg (Ne.symm absent.1), ih absent.2]

/-- The first name of a formed table does not stand behind it again. -/
theorem find?_of_lt (before : ∀ other ∈ rest.names, name < other) : rest.find? name = none :=
  find?_eq_none fun member => String.lt_irrefl name (before name member)

/-- What is found in a formed table is formed. -/
theorem Formed.of_find? (formed : settings.Formed) (found : settings.find? name = some setting) :
    setting.Formed := by
  induction settings using place_induction with
  | empty => cases found
  | place first other rest ih =>
      obtain ⟨-, inside, remains⟩ := formed_place.mp formed
      rw [find?_place] at found
      split at found
      · cases found
        exact inside
      · exact ih remains found

/-! ### One table over another -/

/-- **A table laid over another one decides about the names that it has.** -/
theorem find?_merge (base : Table) (formed : upper.Formed) (name : String) :
    (base.merge upper).find? name =
      ((upper.find? name).map (·.onto (base.find? name))).or (base.find? name) := by
  induction upper using place_induction generalizing base with
  | empty => rfl
  | place first setting rest ih =>
      obtain ⟨before, -, remains⟩ := formed_place.mp formed
      rw [merge_place, ih _ remains, find?_set, find?_place]
      by_cases same : first = name
      · subst same
        rw [if_pos rfl, if_pos rfl, find?_of_lt before]
        rfl
      · rw [if_neg same, if_neg same]

/-- A table is laid over another one together with the tables that it holds, so this is by the
induction of both. -/
theorem Formed.merge (formed : base.Formed) (fits : upper.Formed) : (base.merge upper).Formed := by
  induction upper generalizing base with
  | empty => exact formed
  | scalar name origin value rest ih =>
      exact ih (formed.set (Setting.formed_scalar origin value) name) fits.2
  | table name origin inside rest within ih =>
      refine ih (formed.set ?_ name) fits.2.2
      split
      next first below found => exact within (formed.of_find? found) fits.2.1
      next => exact within formed_empty fits.2.1

/-- A formed setting can be put below names. -/
theorem formed_nest (fits : setting.Formed) (path : List String) (origin : Origin) :
    (nest path origin setting).Formed := by
  induction path with
  | nil => exact formed_empty
  | cons name rest ih =>
      cases rest with
      | nil => exact formed_empty.set fits name
      | cons next rest => exact formed_empty.set (Setting.formed_table origin ih) name

/-! ### Values below two names -/

/-- The value that a table gives a key of a section. -/
def value? (settings : Table) (part key : String) : Option Scalar :=
  match settings.find? part with
  | some (.table _ inside) => (inside.find? key).bind Setting.scalar?
  | _ => none

end Table

end BuildWarden.Settings
