import BuildWarden.Proofs.Tree.Components
/-!
# Paths as they are shown

A path is shown relative to another one by whole components. Names that are joined to a path are
shown as they stand, whatever dots and slashes the path has. Where the components of a path are not
in front, nothing is cut off, even if the text of the path is in front.
-/

namespace BuildWarden.Path

/-! ### Names below a path -/

section Below
variable {name : String} {names : List String} {parts : List (List Char)}

/-- **Joining a name** puts it behind what is opened, in the place of an empty piece. -/
theorem exists_opened_join (base : String) (spelled : IsName name) :
    ∃ front, opened (join base name) = ((opened base).1, front ++ [name.toList]) ∧
      ((opened base).2 = front ∨ (opened base).2 = front ++ [[]]) := by
  have relative := Disk.isAbsolute_of_isName spelled
  by_cases nothing : base = ""
  · subst nothing
    have alone : join "" name = name := by simp [join, relative]
    refine ⟨[], ?_, .inl rfl⟩
    rw [alone, opened_of_isName spelled]
    rfl
  · obtain ⟨front, filled, joined, before⟩ := Disk.exists_pieces_join nothing relative
    obtain ⟨first, others, rfl⟩ := List.exists_cons_of_ne_nil filled
    have longer : join base name ≠ "" := by
      intro empty
      have named := components_join_name base spelled
      rw [empty] at named
      exact List.append_ne_nil_of_right_ne_nil _ (List.cons_ne_nil _ _) named.symm
    have cut : pieces name = [name.toList] := List.splitOn_eq_singleton spelled.2.2.2
    rw [cut, List.cons_append] at joined
    refine ⟨if isIdle first then others else first :: others, ?_, ?_⟩
    · rw [opened_of_pieces longer joined, start_eq nothing]
      rcases before with before | before <;> rw [before] <;> split <;> rfl
    · rcases before with before | before
      · left
        rw [opened_of_pieces nothing before]
      · right
        rw [opened_of_pieces nothing before]
        split <;> rfl

/-- Names that are joined one after the other stand behind what is opened. -/
theorem exists_opened_foldl_join (base : String) (spelled : ∀ name ∈ names, IsName name) :
    ∃ front, opened (names.foldl join base) = ((opened base).1, front ++ names.map String.toList) ∧
      front <+: (opened base).2 ∧ front.filter (!isIdle ·) = Path.names base := by
  induction names using List.reverseRecOn with
  | nil => exact ⟨(opened base).2, by simp, List.prefix_refl _, rfl⟩
  | append_singleton names name ih =>
      obtain ⟨earlier, last⟩ := List.forall_mem_append.mp spelled
      obtain ⟨front, opens, before, named⟩ := ih earlier
      obtain ⟨behind, joined, same⟩ :=
        exists_opened_join (names.foldl join base) (List.forall_mem_singleton.mp last)
      rw [opens] at joined same
      rw [List.foldl_append, List.foldl_cons, List.foldl_nil, List.map_append]
      rcases same with same | same
      · refine ⟨front, ?_, before, named⟩
        rw [joined, ← same, List.append_assoc]
        rfl
      · -- only the path itself ends in an empty piece, no name does
        rcases List.eq_nil_or_concat names with rfl | ⟨names, final, rfl⟩
        · have same : front = behind ++ [[]] := by simpa using same
          rw [same] at before named
          refine ⟨behind, joined, (List.prefix_append _ _).trans before, ?_⟩
          rw [← named, List.filter_append]
          simp [isIdle]
        · have ended : (front ++ names.map String.toList) ++ [final.toList] = behind ++ [[]] := by
            simpa using same
          have empty : final = "" := by simpa using (List.append_inj' ended rfl).2
          exact ((earlier final (by simp)).1 empty).elim

private theorem dropWhile_eq_self (proper : ∀ part ∈ parts, isIdle part = false) :
    parts.dropWhile isIdle = parts := by
  cases parts with
  | nil => rfl
  | cons part parts => exact List.dropWhile_cons_of_neg (by simp [proper part])

private theorem dropIdleEnd_eq_self (proper : ∀ part ∈ parts, isIdle part = false) :
    dropIdleEnd parts = parts := by
  refine List.rdropWhile_eq_self_iff.mpr fun some => ?_
  simpa using proper _ (List.getLast_mem some)

/-- Behind the names in front, and behind the idle pieces there, the other parts are left. -/
theorem map_dropWhile_behind? (front : List (List Char))
    (proper : ∀ part ∈ parts, isIdle part = false) :
    (behind? (front.filter (!isIdle ·)) (front ++ parts)).map (List.dropWhile isIdle) =
      some parts := by
  induction front with
  | nil =>
      rw [List.filter_nil, List.nil_append, behind?, Option.map_some, dropWhile_eq_self proper]
  | cons piece front ih =>
      by_cases idle : isIdle piece = true
      · rw [List.filter_cons_of_neg (by simp [idle]), List.cons_append]
        cases through : front.filter (!isIdle ·) with
        | nil =>
            rw [through] at ih
            simpa [behind?, List.dropWhile_cons_of_pos idle] using ih
        | cons name others =>
            rw [behind?, if_pos idle, ← through]
            exact ih
      · rw [List.filter_cons_of_pos (by simpa using idle), List.cons_append, behind?, if_neg idle,
          if_pos (beq_self_eq_true piece)]
        exact ih

/-- **The names joined to a path** are left behind its components. -/
theorem strip?_foldl_join (base : String) (spelled : ∀ name ∈ names, IsName name) :
    strip? base (names.foldl join base) = some (shown (names.map String.toList)) := by
  have proper : ∀ part ∈ names.map String.toList, isIdle part = false :=
    List.forall_mem_map.mpr fun name listed => isIdle_of_isName (spelled name listed)
  obtain ⟨front, opens, before, named⟩ := exists_opened_foldl_join base spelled
  by_cases nothing : base = ""
  · subst nothing
    obtain rfl : front = [] := List.prefix_nil.mp before
    unfold strip?
    rw [opens]
    exact congrArg (fun parts => some (shown parts)) (dropIdleEnd_eq_self proper)
  · obtain ⟨rest, behind, left⟩ := Option.map_eq_some_iff.mp (map_dropWhile_behind? front proper)
    rw [strip?_of_ne_empty nothing, opens, if_pos rfl, ← named, behind, Option.map_some, left,
      dropIdleEnd_eq_self proper]

private theorem relativeTo_foldl_join (base : String)
    (spelled : ∀ name ∈ names, IsName name ∧ '\\' ∉ name.toList) :
    relativeTo base (names.foldl join base) = Text.joined "/" names := by
  have straight : '\\' ∉ shown (names.map String.toList) := by
    intro slanted
    rcases mem_shown slanted with slash | ⟨piece, listed, inside⟩
    · exact absurd slash (by decide)
    · obtain ⟨name, member, rfl⟩ := List.mem_map.mp listed
      exact (spelled name member).2 inside
  apply String.toList_injective
  rw [toList_relativeTo, strip?_foldl_join base fun name member => (spelled name member).1,
    Option.getD_some, toList_joined, map_slash straight]

end Below

/-! ### Components that are not in front -/

section Whole
variable {base path name more : String} {kept : List Char}

/-- What a path is stripped of are its first components. -/
theorem prefix_of_strip? (left : strip? base path = some kept) :
    components base <+: components path := by
  by_cases nothing : base = ""
  · subst nothing
    exact List.nil_prefix
  rw [strip?_of_ne_empty nothing] at left
  split at left
  next starts =>
    obtain ⟨rest, behind, -⟩ := Option.map_eq_some_iff.mp left
    have further : names path = _ := filter_of_behind? behind
    rw [components, components, starts, further, ← List.append_assoc]
    exact List.prefix_append _ _
  next => cases left

private theorem strip?_eq_none_iff :
    strip? base path = none ↔ ¬components base <+: components path := by
  constructor
  · intro unstripped inside
    obtain ⟨kept, left, -⟩ := exists_strip? inside
    rw [unstripped] at left
    cases left
  · intro outside
    refine Option.eq_none_iff_forall_ne_some.mpr fun kept left => ?_
    exact outside (prefix_of_strip? left)

private theorem relativeTo_of_not_prefix (outside : ¬components base <+: components path) :
    relativeTo base path = path.map slash := by
  apply String.toList_injective
  rw [toList_relativeTo, strip?_eq_none_iff.mpr outside, Option.getD_none, String.toList_map]

/-- A text behind a name makes the name longer. -/
theorem exists_opened_longer (spelled : IsName name) (some : more ≠ "")
    (onward : isAbsolute more = false) : ∃ first ≠ [], ∃ rest,
      isIdle (name.toList ++ first) = false ∧
        opened (name ++ more) = (.inside, (name.toList ++ first) :: rest) := by
  obtain ⟨first, rest, behind⟩ := List.exists_cons_of_ne_nil (List.splitOn_ne_nil '/' more.toList)
  have filled : first ≠ [] := by
    rintro rfl
    rw [isAbsolute_eq_head some, pieces, behind] at onward
    cases onward
  have cut : pieces (name ++ more) = (name.toList ++ first) :: rest := by
    rw [pieces, String.toList_append]
    exact Text.splitOn_append_of_not_mem spelled.2.2.2 behind
  have proper := isIdle_append (isIdle_of_isName spelled) first
  refine ⟨first, filled, rest, proper, opened_of_proper ?_ cut proper⟩
  simp [spelled.1]

/-- A longer name is joined where the name is joined. -/
theorem join_append (base : String) (spelled : IsName name) (some : more ≠ "")
    (onward : isAbsolute more = false) : join base (name ++ more) = join base name ++ more := by
  have relative : ¬isAbsolute name = true := by simp [Disk.isAbsolute_of_isName spelled]
  have further : ¬isAbsolute (name ++ more) = true := by
    obtain ⟨first, -, rest, -, opens⟩ := exists_opened_longer spelled some onward
    rw [isAbsolute_iff, opens]
    nofun
  unfold join
  rw [if_neg further, if_neg relative]
  split <;> simp only [String.append_assoc]

/-- **A longer name is not below the name**. -/
theorem not_prefix_of_longer (base : String) (spelled : IsName name) (some : more ≠ "")
    (onward : isAbsolute more = false) :
    ¬components (join base name) <+: components (join base name ++ more) := by
  obtain ⟨first, filled, rest, proper, opens⟩ := exists_opened_longer spelled some onward
  rw [← join_append base spelled some onward, components_join_name base spelled,
    components_join_of_inside base (by rw [opens]), List.prefix_append_right_inj, names, opens,
    List.filter_cons_of_pos (by simp [proper]), List.cons_prefix_cons]
  rintro ⟨same, -⟩
  exact filled (List.append_right_eq_self.mp same.symm)

end Whole

/-- **A path is shown relative to another one by whole components.** What is shown of names below a
path are the names, be the path empty, absolute or written with dots and doubled slashes. A path
that does not have the components of the other one in front is shown whole, and so is a path in
which the last name of the other one goes on. -/
theorem relativeTo_by_components (base : String) :
    (∀ names : List String, (∀ name ∈ names, IsName name ∧ '\\' ∉ name.toList) →
      relativeTo base (names.foldl join base) = Text.joined "/" names) ∧
    (∀ path, ¬components base <+: components path → relativeTo base path = path.map slash) ∧
    (∀ name more, IsName name → more ≠ "" → isAbsolute more = false →
      relativeTo (join base name) (join base name ++ more) =
        (join base name ++ more).map slash) := by
  refine ⟨fun names => relativeTo_foldl_join base, fun path => relativeTo_of_not_prefix, ?_⟩
  intro name more spelled some onward
  exact relativeTo_of_not_prefix (not_prefix_of_longer base spelled some onward)

/-- A directory whose name is longer is not below the shorter one, although its text starts with
it. -/
theorem relativeTo_by_components_longer_name :
    (∀ name ∈ ["src2", "a.h"], IsName name ∧ '\\' ∉ name.toList) ∧
      relativeTo "././/" (["src2", "a.h"].foldl join "././/") = "src2/a.h" ∧
      ¬components "src" <+: components "src2\\a.h" ∧
      relativeTo "src" "src2\\a.h" = "src2/a.h" ∧
      IsName "src" ∧ "2/a.h" ≠ "" ∧ isAbsolute "2/a.h" = false ∧
      relativeTo (join "././/" "src") (join "././/" "src" ++ "2/a.h") = "././/src2/a.h" := by
  obtain ⟨below, -, longer⟩ := relativeTo_by_components "././/"
  obtain ⟨-, apart, -⟩ := relativeTo_by_components "src"
  have spelled : ∀ name ∈ ["src2", "a.h"], IsName name ∧ '\\' ∉ name.toList := by decide
  have outside : ¬components "src" <+: components "src2\\a.h" := by decide
  have name : IsName "src" := by decide
  have some : "2/a.h" ≠ "" := by decide
  have onward : isAbsolute "2/a.h" = false := by decide
  refine ⟨spelled, below _ spelled, outside, (apart _ outside).trans ?_, name, some, onward,
    (longer _ _ name some onward).trans ?_⟩
  · exact String.toList_injective (String.toList_map.trans (by decide))
  · exact String.toList_injective (String.toList_map.trans (by decide))

end BuildWarden.Path
