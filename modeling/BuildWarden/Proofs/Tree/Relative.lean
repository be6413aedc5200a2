import BuildWarden.Proofs.Tree.Target
/-!
# Paths relative to others

A path relative to another one is made of its last names, be the other one in front of it or not.
Names that a place has below another one are therefore shown, wherever the path to it starts and
whatever dots stand in it.
-/

namespace BuildWarden.Path

/-! ### Slashes for backslashes -/

/-- A slash for a backslash. -/
def slash (c : Char) : Char :=
  if c = '\\' then '/' else c

/-- A text without backslashes is shown as it is. -/
theorem map_slash {text : List Char} (straight : '\\' ∉ text) : text.map slash = text := by
  refine (List.map_congr_left fun c member => ?_).trans (List.map_id text)
  refine if_neg fun slanted : c = '\\' => straight ?_
  rwa [← slanted]

/-- What is shown is what stripping leaves, or the whole path, with slashes for backslashes. -/
theorem toList_relativeTo (base path : String) :
    (relativeTo base path).toList = ((strip? base path).getD path.toList).map slash :=
  String.toList_ofList

/-! ### Names and pieces -/

/-- The names of a path are its pieces, without those that are passed over. -/
theorem names_eq (path : String) : names path = (pieces path).filter (!isIdle ·) := by
  unfold names opened
  by_cases nothing : path.isEmpty = true
  · obtain rfl : path = "" := by simpa using nothing
    rfl
  rw [if_neg nothing]
  -- what is opened in front of the pieces is idle
  split
  next rest shape => simp [shape, isIdle]
  next rest shape => simp [shape, isIdle]
  · rfl

/-- The names in a path are its steps without dots. -/
theorem map_names (path : String) :
    (names path).map String.ofList = (Disk.stepsThrough path).filter (· != ".") := by
  rw [names_eq, Disk.stepsThrough, List.filter_filter, List.filter_map]
  refine congrArg (List.map String.ofList) (List.filter_congr fun piece _ => ?_)
  have nothing : (String.ofList piece != "") = !piece.isEmpty := by
    cases piece with
    | nil => rfl
    | cons c rest => simp
  have dot : (String.ofList piece != ".") = !piece == ['.'] := by
    rw [bne, Bool.not_inj_iff, Bool.eq_iff_iff, beq_iff_eq, beq_iff_eq, ← String.toList_inj,
      String.toList_ofList]
    rfl
  rw [Function.comp_apply, nothing, dot, isIdle, Bool.not_or, Bool.and_comm]

/-- A path that is not empty is absolute exactly if its first piece is empty. -/
theorem isAbsolute_eq_head {path : String} (something : path ≠ "") :
    isAbsolute path = ((pieces path).head? == some []) := by
  obtain ⟨first, rest, letters⟩ : ∃ first rest, path.toList = first :: rest := by
    apply List.exists_cons_of_ne_nil
    simpa using something
  unfold isAbsolute pieces
  rw [letters, List.isPrefixOf, List.isPrefixOf, Bool.and_true]
  by_cases slash : first = '/'
  · rw [slash, Text.splitOn_cons_self]
    rfl
  · obtain ⟨piece, others, shape⟩ := List.exists_cons_of_ne_nil (List.splitOn_ne_nil '/' rest)
    have inside : List.splitOn '/' (first :: rest) = (first :: piece) :: others := by
      rw [List.splitOn_cons_eq_if_modifyHead, if_neg (by simpa using slash), shape,
        List.modifyHead_cons]
    rw [inside]
    simpa using Ne.symm slash

/-- A path is absolute exactly if it starts at the root. -/
theorem isAbsolute_iff (path : String) : isAbsolute path = true ↔ (opened path).1 = .root := by
  unfold opened
  by_cases nothing : path = ""
  · subst nothing
    decide
  rw [if_neg (by simpa using nothing), isAbsolute_eq_head nothing]
  split
  next shape => simp [shape]
  next shape => simp [shape]
  next upward _ =>
    rcases shape : pieces path with _ | ⟨first, rest⟩
    · simp
    · simpa using fun slash : first = [] => upward rest (by rw [shape, slash])

/-- Pieces that are passed over can be dropped in front. -/
theorem filter_dropWhile (parts : List (List Char)) :
    (parts.dropWhile isIdle).filter (!isIdle ·) = parts.filter (!isIdle ·) := by
  induction parts with
  | nil => rfl
  | cons piece rest ih =>
      by_cases idle : isIdle piece = true
      · rw [List.dropWhile_cons_of_pos idle, List.filter_cons_of_neg (by simp [idle]), ih]
      · rw [List.dropWhile_cons_of_neg idle]

/-- They can be dropped at the end as well. -/
theorem filter_dropIdleEnd (parts : List (List Char)) :
    (dropIdleEnd parts).filter (!isIdle ·) = parts.filter (!isIdle ·) := by
  rw [dropIdleEnd, List.filter_reverse, filter_dropWhile, List.filter_reverse, List.reverse_reverse]

/-- A path that leads through names has them in front. -/
theorem filter_of_behind? {through parts rest : List (List Char)}
    (behind : behind? through parts = some rest) :
    parts.filter (!isIdle ·) = through ++ rest.filter (!isIdle ·) := by
  fun_induction behind? through parts with
  | case1 parts =>
      cases behind
      rfl
  | case2 => cases behind
  | case3 name others piece parts idle ih =>
      rw [List.filter_cons_of_neg (by simp [idle])]
      exact ih behind
  | case4 name others piece parts named same ih =>
      rw [List.filter_cons_of_pos (by simpa using named), ih behind, List.cons_append,
        eq_of_beq same]
  | case5 => cases behind

/-! ### What is shown -/

/-- What is shown of pieces, with a slash in front, has a slash in front of each. -/
theorem cons_shown (first : List Char) (rest : List (List Char)) :
    '/' :: shown (first :: rest) = (first :: rest).flatMap ('/' :: ·) := by
  induction rest generalizing first with
  | nil => simp [shown]
  | cons second rest ih =>
      have further := ih second
      rw [shown] at further ⊢
      rw [List.intercalate_cons_cons, List.append_assoc, List.singleton_append, further]
      rfl

/-- Names put together with slashes are shown like pieces. -/
theorem toList_joined (names : List String) :
    (Text.joined "/" names).toList = shown (names.map String.toList) :=
  String.toList_intercalate

private theorem shown_pieces (path : String) : shown (pieces path) = path.toList := by
  unfold pieces
  induction path.toList with
  | nil => rfl
  | cons x rest ih =>
      obtain ⟨first, others, shape⟩ := List.exists_cons_of_ne_nil (List.splitOn_ne_nil '/' rest)
      by_cases slash : (x == '/') = true
      · obtain rfl : x = '/' := by simpa using slash
        rw [Text.splitOn_cons_self, shape, shown, List.intercalate_cons_cons, List.nil_append,
          List.singleton_append, ← shown, ← shape, ih]
      · rw [shape] at ih
        rw [List.splitOn_cons_eq_if_modifyHead, if_neg slash, shape, List.modifyHead_cons, ← ih]
        cases others with
        | nil => simp [shown]
        | cons second others => simp [shown, List.intercalate_cons_cons]

/-! ### Steps that lead on -/

/-- A path that starts where another one leads to, or that does not depend on it. -/
def LeadsOn (base path : String) : Prop :=
  isAbsolute path = true ∨
    isAbsolute path = isAbsolute base ∧
      ∃ steps, Disk.stepsThrough path = Disk.stepsThrough base ++ steps

namespace LeadsOn
variable {base path : String}

/-- A path leads on from itself. -/
@[refl]
theorem refl (base : String) : LeadsOn base base :=
  .inr ⟨rfl, [], (List.append_nil _).symm⟩

/-- A path that leads on does so when more is joined to it. -/
theorem join (on : LeadsOn base path) (further : String) :
    LeadsOn base (Path.join path further) := by
  by_cases absolute : isAbsolute further = true
  · rw [Path.join, if_pos absolute]
    exact .inl absolute
  · have relative : isAbsolute further = false := by simpa using absolute
    unfold LeadsOn
    rw [Disk.isAbsolute_join path relative, Disk.stepsThrough_join path relative]
    refine on.imp_right ?_
    rintro ⟨same, steps, through⟩
    exact ⟨same, steps ++ Disk.stepsThrough further, by rw [through, List.append_assoc]⟩

/-- So it does when names are joined one after the other. -/
theorem foldl_join (on : LeadsOn base path) (names : List String) :
    LeadsOn base (names.foldl Path.join path) := by
  induction names generalizing path with
  | nil => exact on
  | cons name rest ih => exact ih (on.join name)

end LeadsOn

/-- A text that shows the pieces of a path behind a front, which is either nothing or the other
path: none of these pieces is left out. -/
def Shows (base path : String) (text : List Char) : Prop :=
  ∃ front parts : List (List Char), names path = front ++ parts.filter (!isIdle ·) ∧
    (front = [] ∨ front = names base ∧ isAbsolute base = isAbsolute path) ∧
    parts.flatMap ('/' :: ·) <:+: '/' :: text

private theorem flatMap_infix_shown (parts : List (List Char)) :
    parts.flatMap ('/' :: ·) <:+: '/' :: shown parts := by
  cases parts with
  | nil => exact List.nil_infix
  | cons first rest =>
      have same := cons_shown first rest
      exact ⟨[], [], by rw [List.nil_append, List.append_nil, same]⟩

private theorem shows_whole (base path : String) : Shows base path path.toList := by
  refine ⟨[], pieces path, names_eq path, .inl rfl, ?_⟩
  rw [← shown_pieces path]
  exact flatMap_infix_shown _

/-- What is kept of a path shows it, whether the other one is in front of it or not. -/
theorem shows_kept (base path : String) :
    Shows base path ((strip? base path).getD path.toList) := by
  have whole := shows_whole base path
  have named : names path = (opened path).2.filter (!isIdle ·) := rfl
  have absolute := isAbsolute_iff path
  have absoluteBase := isAbsolute_iff base
  unfold strip?
  generalize opened path = read at named absolute ⊢
  generalize opened base = readBase at absoluteBase ⊢
  obtain ⟨start, pieces⟩ := read
  obtain ⟨startBase, _⟩ := readBase
  dsimp only at named absolute absoluteBase ⊢
  have all : names path = [] ++ (dropIdleEnd pieces).filter (!isIdle ·) := by
    rw [filter_dropIdleEnd, named, List.nil_append]
  by_cases short : (decide (startBase = .inside) && (names base).isEmpty) = true
  · rw [if_pos short]
    cases start with
    | root =>
        refine ⟨[], dropIdleEnd pieces, all, .inl rfl, (flatMap_infix_shown _).trans ?_⟩
        exact (List.suffix_cons '/' _).isInfix
    | here => exact ⟨[], ['.'] :: dropIdleEnd pieces, all, .inl rfl, flatMap_infix_shown _⟩
    | inside => exact ⟨[], dropIdleEnd pieces, all, .inl rfl, flatMap_infix_shown _⟩
  rw [if_neg short]
  by_cases same : startBase = start
  · rw [if_pos same]
    cases behind : behind? (names base) pieces with
    | none => exact whole
    | some rest =>
        refine ⟨names base, dropIdleEnd (rest.dropWhile isIdle), ?_, .inr ⟨rfl, ?_⟩,
          flatMap_infix_shown _⟩
        · rw [filter_dropIdleEnd, filter_dropWhile, named, filter_of_behind? behind]
        · rw [Bool.eq_iff_iff, absolute, absoluteBase, same]
  · rw [if_neg same]
    exact whole

/-- **Of a path all names are kept that its place has below the other one**, in order. -/
theorem exists_names_kept {here names : Location} {base path : String} (on : LeadsOn base path)
    (lies : target here path = target here base ++ names) :
    ∃ parts : List (List Char), names.Sublist (parts.map String.ofList) ∧
      parts.flatMap ('/' :: ·) <:+: '/' :: (strip? base path).getD path.toList := by
  obtain ⟨front, parts, split, fronts, kept⟩ := shows_kept base path
  refine ⟨parts, ?_, kept⟩
  have steps : (Disk.stepsThrough path).filter (· != ".") =
      front.map String.ofList ++ (parts.filter (!isIdle ·)).map String.ofList := by
    rw [← map_names, split, List.map_append]
  have fewer : ((parts.filter (!isIdle ·)).map String.ofList).Sublist (parts.map String.ofList) :=
    List.filter_sublist.map _
  refine List.Sublist.trans ?_ fewer
  rw [target_eq, ← walk_filter, steps] at lies
  rcases fronts with rfl | ⟨rfl, same⟩
  · rcases on with absolute | ⟨same, more, further⟩
    -- the whole path is shown, and it starts at the top
    · rw [if_pos absolute, List.map_nil, List.nil_append] at lies
      exact (List.sublist_append_right _ names).trans (sublist_of_walk lies)
    -- the whole path is shown, and its steps go on behind those of the other one
    · rw [← steps, walk_filter, further, walk_append, same, ← target_eq, ← walk_filter] at lies
      refine (sublist_of_walk lies).trans ?_
      rw [← List.nil_append (List.map _ _), ← List.map_nil, ← steps, further, List.filter_append]
      exact List.sublist_append_right _ _
  -- what is shown goes on where the other path leads
  · rw [walk_append, map_names, walk_filter, ← same, ← target_eq] at lies
    exact sublist_of_walk lies

/-! ### Fragments -/

section Fragments
variable {here names : Location} {base path : String} (on : LeadsOn base path)
  (lies : target here path = target here base ++ names)

private theorem contains_relativeTo {fragment : String} (unslanted : '\\' ∉ fragment.toList)
    (inside : fragment.toList <:+: '/' :: (strip? base path).getD path.toList) :
    Text.contains fragment ("/" ++ relativeTo base path) = true := by
  have whole : ("/" ++ relativeTo base path).toList =
      ('/' :: (strip? base path).getD path.toList).map slash := by
    rw [String.toList_append, toList_relativeTo]
    rfl
  rw [Text.contains, Text.hasPart_iff, whole, ← map_slash unslanted]
  exact inside.map slash

include on lies

/-- A fragment of a name is seen. -/
theorem contains_relativeTo_of_name {name fragment : String} (member : name ∈ names)
    (unslanted : '\\' ∉ fragment.toList) (inside : Text.contains fragment name = true) :
    Text.contains fragment ("/" ++ relativeTo base path) = true := by
  obtain ⟨parts, some, kept⟩ := exists_names_kept on lies
  obtain ⟨part, known, rfl⟩ := List.mem_map.mp (some.subset member)
  rw [Text.contains, Text.hasPart_iff, String.toList_ofList] at inside
  obtain ⟨before, after, rfl⟩ := List.append_of_mem known
  refine contains_relativeTo unslanted (inside.trans (List.IsInfix.trans ?_ kept))
  exact ⟨before.flatMap ('/' :: ·) ++ ['/'], after.flatMap ('/' :: ·), by simp⟩

/-- The name of a directory on the way is seen between slashes. -/
theorem contains_relativeTo_of_directory {name : String} (member : name ∈ names.dropLast)
    (unslanted : '\\' ∉ name.toList) :
    Text.contains ("/" ++ name ++ "/") ("/" ++ relativeTo base path) = true := by
  obtain ⟨parts, some, kept⟩ := exists_names_kept on lies
  have nonempty : names ≠ [] := List.ne_nil_of_mem (List.dropLast_subset _ member)
  rw [← List.dropLast_append_getLast nonempty] at some
  obtain ⟨upper, lower, split, above, below⟩ := List.append_sublist_iff.mp some
  obtain ⟨front, back, rfl, rfl, rfl⟩ := List.map_eq_append_iff.mp split
  obtain ⟨part, known, rfl⟩ := List.mem_map.mp (above.subset member)
  obtain ⟨last, final, -⟩ := List.mem_map.mp (below.subset (List.mem_singleton_self _))
  obtain ⟨before, between, rfl⟩ := List.append_of_mem known
  -- something stands behind the directory, and a slash in front of that
  obtain ⟨next, after, shape⟩ : ∃ next after, between ++ back = next :: after := by
    apply List.exists_cons_of_ne_nil
    exact List.ne_nil_of_mem (List.mem_append_right _ final)
  have whole : before ++ part :: between ++ back = before ++ part :: next :: after := by
    rw [List.append_assoc, List.cons_append, shape]
  rw [whole] at kept
  refine contains_relativeTo (by simpa using unslanted) (List.IsInfix.trans ?_ kept)
  exact ⟨before.flatMap ('/' :: ·), next ++ after.flatMap ('/' :: ·), by simp⟩

end Fragments

end BuildWarden.Path
