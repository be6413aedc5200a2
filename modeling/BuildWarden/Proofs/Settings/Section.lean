import BuildWarden.Proofs.Settings.Leaves
import BuildWarden.Proofs.Settings.Table
/-!
# Reading a section

Settings suit a section if what they give to its keys is of the kinds of these keys. Such settings
are read without a fault, and each key then has the value that the settings give it, or the one it
had before. Layers that suit a section may be laid over each other: the upper one decides, key by
key.
-/

namespace BuildWarden.Settings.Section
variable {α : Type} {part : Section α} {leaves : α → Leaves} {settings base upper inside : Table}
  {key name : String} {setting : Setting} {value : Scalar} {target : α}

/-- The keys of a section. -/
def keys (part : Section α) : List String :=
  part.fields.map (·.name)

/-- Whether a section has the key and the value is of its kind. -/
def takes (part : Section α) (key : String) (value : Scalar) : Bool :=
  (part.fields.find? (·.name == key)).any fun field => (field.write? value).isSome

/-- What a table gives to the keys of a section is of their kinds. -/
def Fits (part : Section α) (inside : Table) : Prop :=
  ∀ key ∈ part.keys, ∀ setting, inside.find? key = some setting →
    ∃ origin value, setting = .scalar origin value ∧ part.takes key value = true

/-- What settings give to a section, if anything, is a table that fits it. -/
def Suits (part : Section α) (settings : Table) : Prop :=
  ∀ setting, settings.find? part.name = some setting →
    ∃ origin inside, setting = .table origin inside ∧ part.Fits inside

/-- Settings that give a value to each key that a section needs. -/
def Complete (part : Section α) (settings : Table) : Prop :=
  ∀ field ∈ part.fields, field.required = true →
    (settings.value? part.name field.name).isSome = true

/-! ### Layers of one section -/

private theorem Fits.tail {rest : Table} (fits : part.Fits (.place name setting rest))
    (before : ∀ other ∈ rest.names, name < other) : part.Fits rest := by
  intro key known given found
  refine fits key known given ?_
  rw [Table.find?_place, if_neg, found]
  rintro rfl
  rw [Table.find?_of_lt before] at found
  cases found

private theorem fits_empty : part.Fits .empty :=
  fun _ _ _ found => nomatch found

/-- Of two tables that fit a section, the upper one decides about its keys. -/
theorem Fits.find?_merge {outside : Table} (formed : inside.Formed) (fits : part.Fits inside)
    (known : key ∈ part.keys) :
    (outside.merge inside).find? key = (inside.find? key).or (outside.find? key) := by
  rw [Table.find?_merge outside formed]
  cases found : inside.find? key with
  | none => rfl
  | some given =>
      obtain ⟨origin, value, rfl, -⟩ := fits key known given found
      rfl

private theorem Fits.merge {outside : Table} (formed : inside.Formed) (fits : part.Fits inside)
    (below : part.Fits outside) : part.Fits (outside.merge inside) := by
  intro key known given found
  rw [fits.find?_merge formed known] at found
  rcases Option.or_eq_some_iff.mp found with found | ⟨-, found⟩
  · exact fits key known given found
  · exact below key known given found

/-- What settings give a section they suit. -/
theorem Suits.held (suits : part.Suits settings) (formed : settings.Formed) :
    (settings.find? part.name = none ∧ ∀ key, settings.value? part.name key = none) ∨
      ∃ origin inside, settings.find? part.name = some (.table origin inside) ∧ inside.Formed ∧
        part.Fits inside ∧
        ∀ key, settings.value? part.name key = (inside.find? key).bind Setting.scalar? := by
  cases found : settings.find? part.name with
  | none => exact .inl ⟨rfl, fun key => by rw [Table.value?, found]⟩
  | some setting =>
      obtain ⟨origin, inside, rfl, fits⟩ := suits setting found
      exact .inr ⟨origin, inside, rfl, formed.of_find? found, fits,
        fun key => by rw [Table.value?, found]⟩

/-- **Of two layers that suit a section, the upper one decides about each of its keys.** -/
theorem Suits.merge (suits : part.Suits upper) (formed : upper.Formed) (below : part.Suits base)
    (solid : base.Formed) :
    part.Suits (base.merge upper) ∧ ∀ key ∈ part.keys,
      (base.merge upper).value? part.name key =
        (upper.value? part.name key).or (base.value? part.name key) := by
  have merged := Table.find?_merge base formed part.name
  rcases suits.held formed with ⟨nothing, none⟩ | ⟨origin, inside, found, proper, fits, given⟩
  · rw [nothing] at merged
    have same : (base.merge upper).find? part.name = base.find? part.name := merged
    refine ⟨fun setting holds => below setting (same ▸ holds), fun key _ => ?_⟩
    rw [none key, Table.value?, same]
    rfl
  · have laid : ∃ first outside, (base.merge upper).find? part.name =
          some (.table first (outside.merge inside)) ∧ part.Fits outside ∧
        ∀ key, base.value? part.name key = (outside.find? key).bind Setting.scalar? := by
      rw [found] at merged
      rcases below.held solid with ⟨absent, none⟩ | ⟨first, outside, held, -, holds, had⟩
      · rw [absent] at merged
        exact ⟨origin, .empty, merged, fits_empty, none⟩
      · rw [held] at merged
        exact ⟨first, outside, merged, holds, had⟩
    obtain ⟨first, outside, merged, holds, had⟩ := laid
    refine ⟨fun setting same => ?_, fun key known => ?_⟩
    · obtain rfl := Option.some.inj (merged.symm.trans same)
      exact ⟨first, _, rfl, fits.merge proper holds⟩
    · rw [Table.value?, merged, given, had]
      simp only [fits.find?_merge proper known]
      cases here : inside.find? key with
      | none => rfl
      | some setting =>
          obtain ⟨origin, value, rfl, -⟩ := fits key known setting here
          rfl

/-- A section stays complete under a layer whose values go first. -/
theorem Complete.merge (complete : part.Complete base)
    (upper_first : ∀ key ∈ part.keys, (base.merge upper).value? part.name key =
      (upper.value? part.name key).or (base.value? part.name key)) :
    part.Complete (base.merge upper) := by
  intro field member needed
  rw [upper_first field.name (List.mem_map_of_mem member), Option.isSome_or,
    complete field member needed, Bool.or_true]

/-! ### Reading -/

private theorem readTable_place (part : Section α) (name : String) (setting : Setting)
    (rest : Table)
    (target : α) :
    part.readTable (.place name setting rest) target =
      match part.fields.find? (·.name == name) with
      | some field =>
        match field.read [part.name, name] setting target with
        | .ok target => part.readTable rest target
        | .error misfit => .error misfit
      | none => part.readTable rest target := by
  cases setting <;> rfl

/-- What a section takes for a key is written to a field of this name. -/
theorem exists_field_of_takes (taken : part.takes key value = true) :
    ∃ field write, part.fields.find? (·.name == key) = some field ∧ field ∈ part.fields ∧
      field.name = key ∧ field.write? value = some write := by
  obtain ⟨field, found, writes⟩ := (Option.any_eq_true _ _).mp taken
  obtain ⟨write, written⟩ := Option.isSome_iff_exists.mp writes
  have named := List.find?_some found
  exact ⟨field, write, found, List.mem_of_find?_eq_some found, eq_of_beq named, written⟩

/-- **A table that fits a section is read into the values that it holds.** -/
theorem Shows.readTable (shows : part.Shows leaves) (formed : inside.Formed)
    (fits : part.Fits inside) (target : α) :
    ∃ result, part.readTable inside target = .ok result ∧ ∀ key ∈ part.keys,
      (leaves result).value? key =
        ((inside.find? key).bind Setting.scalar?).or ((leaves target).value? key) := by
  induction inside using Table.place_induction generalizing target with
  | empty => exact ⟨target, rfl, fun _ _ => rfl⟩
  | place name setting rest ih =>
      obtain ⟨before, -, remains⟩ := Table.formed_place.mp formed
      have later := fits.tail before
      rw [readTable_place]
      by_cases known : name ∈ part.keys
      · obtain ⟨origin, value, rfl, taken⟩ :=
          fits name known setting (by rw [Table.find?_place, if_pos rfl])
        obtain ⟨field, write, found, member, rfl, written⟩ := exists_field_of_takes taken
        obtain ⟨result, read, holds⟩ := ih remains later (write target)
        have field_read : field.read [part.name, field.name] (.scalar origin value) target =
            .ok (write target) := by rw [Field.read, written]
        rw [found]
        simp only [field_read]
        refine ⟨result, read, fun key mem => ?_⟩
        rw [holds key mem, shows.written field member value write written,
          Leaves.value?_replaced (shows.keys target ▸ known), Table.find?_place]
        by_cases same : field.name = key
        · subst same
          rw [if_pos rfl, if_pos rfl, Table.find?_of_lt before]
          rfl
        · rw [if_neg same, if_neg (Ne.symm same)]
      · have unknown : part.fields.find? (·.name == name) = none := by
          refine List.find?_eq_none.mpr fun field member named => known ?_
          exact List.mem_map.mpr ⟨field, member, eq_of_beq named⟩
        obtain ⟨result, read, holds⟩ := ih remains later target
        rw [unknown]
        refine ⟨result, read, fun key mem => ?_⟩
        rw [holds key mem, Table.find?_place, if_neg (ne_of_mem_of_not_mem mem known).symm]

/-- **Settings that suit a section, and that give all it needs, are read into their values.** -/
theorem Shows.readSection (shows : part.Shows leaves) (formed : settings.Formed)
    (suits : part.Suits settings) (complete : part.Complete settings) (target : α) :
    ∃ result, Configuration.readSection part settings target = .ok result ∧ ∀ key ∈ part.keys,
      (leaves result).value? key =
        (settings.value? part.name key).or ((leaves target).value? key) := by
  unfold Configuration.readSection
  rcases suits.held formed with ⟨nothing, none⟩ | ⟨origin, inside, found, proper, fits, given⟩
  · rw [nothing]
    exact ⟨target, rfl, fun key _ => by rw [none]; rfl⟩
  · obtain ⟨result, read, holds⟩ := shows.readTable proper fits target
    have all : part.fields.find? (fun field => field.required &&
        (inside.find? field.name).isNone) = none := by
      refine List.find?_eq_none.mpr fun field member lacks => ?_
      obtain ⟨needed, absent⟩ := Bool.and_eq_true_iff.mp lacks
      have held := complete field member needed
      rw [given, Option.isNone_iff_eq_none.mp absent] at held
      cases held
    rw [found]
    simp only [Section.read, read, all]
    exact ⟨result, rfl, fun key known => by rw [holds key known, given]⟩

end BuildWarden.Settings.Section
