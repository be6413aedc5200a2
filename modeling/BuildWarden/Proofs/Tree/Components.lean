import BuildWarden.Proofs.Tree.Relative
import Mathlib.Data.List.DropRight
/-!
# Components of paths

A path has its names as components, and in front of them a mark of where it starts. Joining a path
to another one joins their components. If the components of a directory are in front of those of a
path, what is left of the path relative to the directory leads from there to the same components.
-/

namespace BuildWarden
namespace Path

/-- The component that tells where a path starts. A path that starts inside a directory has none. -/
def Start.mark : Start → List (List Char)
  | .root => [['/']]
  | .here => [['.']]
  | .inside => []

/-- The components of a path. Doubled slashes, slashes at the end and dots behind the start count
for nothing. -/
def components (path : String) : List (List Char) :=
  (opened path).1.mark ++ names path

example : components "././/src//agrum/." = [".".toList, "src".toList, "agrum".toList] := by
  decide

/-! ### Pieces -/

section Pieces
variable {path name : String} {parts rest : List (List Char)} {first : List Char}

private theorem slash_not_mem_of_mem_pieces {piece : List Char} (member : piece ∈ pieces path) :
    '/' ∉ piece :=
  Text.not_mem_of_mem_splitOn member

private theorem isIdle_eq_false_iff : isIdle first = false ↔ first ≠ [] ∧ first ≠ ['.'] := by
  rw [isIdle, Bool.or_eq_false_iff, List.isEmpty_eq_false_iff, beq_eq_false_iff_ne]

/-- What starts with a name is no idle piece. -/
theorem isIdle_append (proper : isIdle first = false) (behind : List Char) :
    isIdle (first ++ behind) = false := by
  obtain ⟨filled, other⟩ := isIdle_eq_false_iff.mp proper
  refine isIdle_eq_false_iff.mpr ⟨List.append_ne_nil_of_left_ne_nil filled behind, fun dot => ?_⟩
  rcases List.append_eq_singleton_iff.mp dot with ⟨none, -⟩ | ⟨same, -⟩
  · exact filled none
  · exact other same

private theorem not_idle_of_mem_names {name : List Char} (member : name ∈ names path) :
    isIdle name = false ∧ '/' ∉ name := by
  rw [names_eq, List.mem_filter] at member
  exact ⟨by simpa using member.2, slash_not_mem_of_mem_pieces member.1⟩

/-- Where a path starts that has the piece in front. -/
def startOf : List Char → Start
  | [] => .root
  | ['.'] => .here
  | _ => .inside

private theorem startOf_eq_here : startOf first = .here ↔ first = ['.'] := by
  unfold startOf
  split <;> simp_all

private theorem startOf_eq_inside : startOf first = .inside ↔ isIdle first = false := by
  unfold startOf isIdle
  split <;> simp_all

/-- Where a path starts is told by its first piece. -/
theorem start_eq (something : path ≠ "") :
    (opened path).1 = startOf ((pieces path).headD []) := by
  obtain ⟨first, rest, cut⟩ := List.exists_cons_of_ne_nil (List.splitOn_ne_nil '/' path.toList)
  have cut : pieces path = first :: rest := cut
  unfold opened
  rw [if_neg (by simpa using something), cut, List.headD_cons]
  unfold startOf
  split <;> simp_all

/-- The components are the pieces that name something, behind the mark of the first piece. -/
theorem components_of_pieces (something : path ≠ "") (cut : pieces path = first :: rest) :
    components path = (startOf first).mark ++ (first :: rest).filter (!isIdle ·) := by
  rw [components, start_eq something, names_eq, cut, List.headD_cons]

/-- What is opened of a path goes by its first piece. -/
theorem opened_of_pieces (something : path ≠ "") (cut : pieces path = first :: rest) :
    opened path = (startOf first, if isIdle first then rest else first :: rest) := by
  apply Prod.ext
  · rw [start_eq something, cut, List.headD_cons]
  · unfold opened
    rw [if_neg (by simpa using something), cut]
    split
    next shape =>
      obtain ⟨rfl, rfl⟩ := List.cons.inj shape
      rfl
    next shape =>
      obtain ⟨rfl, rfl⟩ := List.cons.inj shape
      rfl
    next rooted dotted =>
      have proper : isIdle first = false := by
        apply isIdle_eq_false_iff.mpr
        exact ⟨fun none => rooted rest (by rw [none]), fun dot => dotted rest (by rw [dot])⟩
      rw [proper]
      rfl

/-- A path whose first piece is a name starts inside and keeps its pieces. -/
theorem opened_of_proper (something : path ≠ "") (cut : pieces path = first :: rest)
    (proper : isIdle first = false) : opened path = (.inside, first :: rest) := by
  rw [opened_of_pieces something cut, startOf_eq_inside.mpr proper, proper]
  rfl

/-- A name is no piece that is passed over. -/
theorem isIdle_of_isName (spelled : IsName name) : isIdle name.toList = false := by
  apply isIdle_eq_false_iff.mpr
  exact ⟨by simpa using spelled.1, fun dot => spelled.2.1 (String.toList_injective dot)⟩

/-- A name is a path of one piece. -/
theorem opened_of_isName (spelled : IsName name) : opened name = (.inside, [name.toList]) :=
  opened_of_proper spelled.1 (List.splitOn_eq_singleton spelled.2.2.2) (isIdle_of_isName spelled)

/-- Pieces that are shown are the pieces of what is shown. -/
theorem pieces_shown (some : parts ≠ []) (whole : ∀ piece ∈ parts, '/' ∉ piece) :
    pieces (String.ofList (shown parts)) = parts := by
  rw [pieces, String.toList_ofList, shown, List.splitOn_intercalate _ whole some]

private theorem names_shown (whole : ∀ piece ∈ parts, '/' ∉ piece) :
    names (String.ofList (shown parts)) = parts.filter (!isIdle ·) := by
  by_cases none : parts = []
  · subst none
    rfl
  · rw [names_eq, pieces_shown none whole]

/-- What is shown of pieces has no other letters than theirs and slashes. -/
theorem mem_shown {c : Char} (member : c ∈ shown parts) :
    c = '/' ∨ ∃ piece ∈ parts, c ∈ piece := by
  induction parts with
  | nil => cases member
  | cons piece rest ih =>
      cases rest with
      | nil => exact .inr ⟨piece, by simp, by simpa [shown] using member⟩
      | cons next rest =>
          rw [shown, List.intercalate_cons_cons, List.mem_append, List.mem_append,
            List.mem_singleton] at member
          rcases member with (inside | slash) | further
          · exact .inr ⟨piece, by simp, inside⟩
          · exact .inl slash
          · refine (ih further).imp_right ?_
            rintro ⟨other, listed, inside⟩
            exact ⟨other, List.mem_cons_of_mem _ listed, inside⟩

private theorem mem_pieces_of_mem_opened {piece : List Char} (member : piece ∈ (opened path).2) :
    piece ∈ pieces path := by
  unfold opened at member
  split at member
  · cases member
  split at member
  next cut => rw [cut]; exact List.mem_cons_of_mem _ member
  next cut => rw [cut]; exact List.mem_cons_of_mem _ member
  · exact member

/-- What is shown of the pieces of a path has no other characters than the path. -/
theorem mem_of_mem_shown {c : Char} (known : ∀ piece ∈ parts, piece ∈ pieces path)
    (member : c ∈ shown parts) : c = '/' ∨ c ∈ path.toList := by
  refine (mem_shown member).imp_right ?_
  rintro ⟨piece, listed, inside⟩
  exact Text.mem_of_mem_splitOn (known piece listed) inside

private theorem components_shown (filled : first ≠ [])
    (whole : ∀ piece ∈ first :: rest, '/' ∉ piece) :
    components (String.ofList (shown (first :: rest))) =
      (startOf first).mark ++ (first :: rest).filter (!isIdle ·) := by
  have something : String.ofList (shown (first :: rest)) ≠ "" := by
    intro nothing
    have cut := pieces_shown (List.cons_ne_nil first rest) whole
    rw [nothing] at cut
    exact filled (List.cons.inj cut).1.symm
  rw [components_of_pieces something (pieces_shown (List.cons_ne_nil _ _) whole)]

/-- What is shown does not start at the root, unless the first piece is empty. -/
theorem isAbsolute_shown (whole : ∀ piece ∈ parts, '/' ∉ piece) (filled : parts.head? ≠ some []) :
    isAbsolute (String.ofList (shown parts)) = false := by
  by_cases none : parts = []
  · subst none
    rfl
  by_cases nothing : String.ofList (shown parts) = ""
  · rw [nothing]
    rfl
  · rw [isAbsolute_eq_head nothing, pieces_shown none whole, beq_eq_false_iff_ne]
    exact filled

private theorem isPrefix_dropIdleEnd (parts : List (List Char)) : dropIdleEnd parts <+: parts :=
  List.rdropWhile_prefix isIdle parts

end Pieces

/-! ### Joining -/

section Join
variable {base path name : String}

/-- **Joining a path adds its names.** -/
theorem components_join (something : base ≠ "") (relative : isAbsolute path = false) :
    components (join base path) = components base ++ names path := by
  obtain ⟨front, filled, joined, cut⟩ := Disk.exists_pieces_join something relative
  have longer : join base path ≠ "" := by
    intro nothing
    have few := congrArg List.length joined
    have one := List.length_pos_iff.mpr filled
    have other : 0 < (pieces path).length := List.length_pos_iff.mpr (List.splitOn_ne_nil _ _)
    rw [nothing, List.length_append] at few
    have single : (pieces "").length = 1 := by decide
    omega
  have starts : (pieces (join base path)).headD [] = (pieces base).headD [] := by
    obtain ⟨first, others, rfl⟩ := List.exists_cons_of_ne_nil filled
    rcases cut with cut | cut <;> rw [joined, cut] <;> rfl
  have named : names (join base path) = names base ++ names path := by
    rw [names_eq, names_eq, names_eq, joined, List.filter_append]
    rcases cut with cut | cut
    · rw [cut]
    · rw [cut, List.filter_append, List.append_assoc]
      rfl
  rw [components, components, start_eq longer, start_eq something, starts, named,
    List.append_assoc]

/-- A path that starts with a name is joined to the empty path as well. -/
theorem components_join_of_inside (base : String) (inside : (opened path).1 = .inside) :
    components (join base path) = components base ++ names path := by
  have relative : isAbsolute path = false := by
    rw [← Bool.not_eq_true, isAbsolute_iff, inside]
    nofun
  by_cases nothing : base = ""
  · subst nothing
    have alone : join "" path = path := by simp [join, relative]
    rw [alone, components, inside]
    rfl
  · exact components_join nothing relative

/-- Joining a name adds it as the last component. -/
theorem components_join_name (base : String) {name : String} (spelled : IsName name) :
    components (join base name) = components base ++ [name.toList] := by
  have opens := opened_of_isName spelled
  have named : names name = [name.toList] := by
    rw [names, opens, List.filter_cons_of_pos (by simp [isIdle_of_isName spelled]),
      List.filter_nil]
  rw [components_join_of_inside base (by rw [opens]), named]

/-- Names that are joined one after the other are the last components. -/
theorem components_foldl_join (base : String) {names : List String}
    (spelled : ∀ name ∈ names, IsName name) :
    components (names.foldl join base) = components base ++ names.map String.toList := by
  induction names generalizing base with
  | nil => rw [List.foldl_nil, List.map_nil, List.append_nil]
  | cons name rest ih =>
      obtain ⟨first, others⟩ := List.forall_mem_cons.mp spelled
      rw [List.foldl_cons, ih _ others, components_join_name base first, List.append_assoc]
      rfl

end Join

/-! ### What is left of a path -/

section Strip
variable {base path : String} {through parts rest : List (List Char)}

/-- A path leads through the names that it has in front. -/
theorem behind?_of_prefix (proper : ∀ name ∈ through, isIdle name = false)
    (inside : through <+: parts.filter (!isIdle ·)) :
    ∃ rest, behind? through parts = some rest ∧ rest <:+ parts := by
  fun_induction behind? through parts with
  | case1 parts => exact ⟨parts, rfl, List.suffix_refl parts⟩
  | case2 name others => exact absurd (List.prefix_nil.mp inside) (List.cons_ne_nil _ _)
  | case3 name others piece parts idle ih =>
      rw [List.filter_cons_of_neg (by simp [idle])] at inside
      obtain ⟨rest, behind, ends⟩ := ih proper inside
      exact ⟨rest, behind, ends.trans (List.suffix_cons piece parts)⟩
  | case4 name others piece parts named same ih =>
      rw [List.filter_cons_of_pos (by simpa using named), List.cons_prefix_cons] at inside
      obtain ⟨rest, behind, ends⟩ := ih (List.forall_mem_cons.mp proper).2 inside.2
      exact ⟨rest, behind, ends.trans (List.suffix_cons piece parts)⟩
  | case5 name others piece parts named different =>
      rw [List.filter_cons_of_pos (by simpa using named), List.cons_prefix_cons] at inside
      exact (different (beq_iff_eq.mpr inside.1)).elim

/-- The first component tells where a path starts. -/
theorem start_iff_of_components {first : List Char} {others : List (List Char)}
    (shape : components path = first :: others) :
    ((opened path).1 = .root ↔ first = ['/']) ∧ ((opened path).1 = .here ↔ first = ['.']) := by
  unfold components at shape
  cases start : (opened path).1 with
  | root =>
      rw [start] at shape
      obtain rfl := (List.cons.inj shape).1
      decide
  | here =>
      rw [start] at shape
      obtain rfl := (List.cons.inj shape).1
      decide
  | inside =>
      rw [start, Start.mark, List.nil_append] at shape
      have named : first ∈ names path := by
        rw [shape]
        exact List.mem_cons_self
      obtain ⟨proper, whole⟩ := not_idle_of_mem_names named
      constructor
      · refine ⟨nofun, ?_⟩
        rintro rfl
        exact (whole List.mem_cons_self).elim
      · refine ⟨nofun, ?_⟩
        rintro rfl
        exact absurd proper (by decide)

/-- A path that is not empty has a component. -/
theorem components_ne_nil (something : path ≠ "") : components path ≠ [] := by
  obtain ⟨first, rest, cut⟩ := List.exists_cons_of_ne_nil (List.splitOn_ne_nil '/' path.toList)
  rw [components_of_pieces something cut]
  intro none
  obtain ⟨mark, named⟩ := List.append_eq_nil_iff.mp none
  have inside : startOf first = .inside := by
    cases start : startOf first <;> simp [start, Start.mark] at mark ⊢
  rw [List.filter_cons_of_pos (by simp [startOf_eq_inside.mp inside])] at named
  cases named

/-- A path with the components of another one in front starts where that one does. -/
theorem start_eq_of_prefix (something : base ≠ "") (inside : components base <+: components path) :
    (opened base).1 = (opened path).1 ∧ names base <+: names path := by
  obtain ⟨first, others, shape⟩ := List.exists_cons_of_ne_nil (components_ne_nil something)
  obtain ⟨more, whole⟩ := inside
  have shape' : components path = first :: (others ++ more) := by
    rw [← whole, shape, List.cons_append]
  obtain ⟨root, here⟩ := start_iff_of_components shape
  obtain ⟨root', here'⟩ := start_iff_of_components shape'
  have starts : (opened base).1 = (opened path).1 := by
    cases start : (opened base).1 with
    | root => exact (root'.mpr (root.mp start)).symm
    | here => exact (here'.mpr (here.mp start)).symm
    | inside =>
        cases start' : (opened path).1 with
        | root =>
            rw [root.mpr (root'.mp start')] at start
            cases start
        | here =>
            rw [here.mpr (here'.mp start')] at start
            cases start
        | inside => rfl
  refine ⟨starts, more, ?_⟩
  unfold components at whole
  rw [starts, List.append_assoc] at whole
  exact List.append_cancel_left whole

/-- Behind the root. -/
theorem components_rooted (whole : ∀ piece ∈ parts, '/' ∉ piece) :
    components (String.ofList ('/' :: shown parts)) = ['/'] :: parts.filter (!isIdle ·) := by
  have cut : pieces (String.ofList ('/' :: shown parts)) =
      [] :: pieces (String.ofList (shown parts)) := by
    unfold pieces
    rw [String.toList_ofList, String.toList_ofList, Text.splitOn_cons_self]
  rw [components_of_pieces (by simp) cut, List.filter_cons_of_neg (by decide), ← names_eq,
    names_shown whole]
  rfl

/-- A path that starts inside a directory starts with a name, which is not dropped. -/
theorem dropIdleEnd_of_inside {first : List Char} (inside : startOf first = .inside) :
    ∃ others, dropIdleEnd (first :: rest) = first :: others := by
  have same := filter_dropIdleEnd (first :: rest)
  rw [List.filter_cons_of_pos (by simp [startOf_eq_inside.mp inside])] at same
  obtain ⟨more, shape⟩ := isPrefix_dropIdleEnd (first :: rest)
  cases kept : dropIdleEnd (first :: rest) with
  | nil =>
      rw [kept] at same
      cases same
  | cons other others =>
      rw [kept] at shape
      rw [(List.cons.inj shape).1]
      exact ⟨others, rfl⟩

/-- Behind a directory the names of which are in front, the idle pieces are left out. -/
theorem strip?_of_ne_empty (something : base ≠ "") (path : String) :
    strip? base path =
      if (opened base).1 = (opened path).1 then
        (behind? (names base) (opened path).2).map fun rest =>
          shown (dropIdleEnd (rest.dropWhile isIdle))
      else none := by
  unfold strip?
  dsimp only
  refine if_neg fun short => components_ne_nil something ?_
  simp only [Bool.and_eq_true, decide_eq_true_eq, List.isEmpty_iff] at short
  rw [components, short.1, short.2]
  rfl

/-- Without a directory in front the whole path is left. -/
theorem strip?_empty (path : String) :
    ∃ kept, strip? "" path = some kept ∧ (∀ c ∈ kept, c = '/' ∨ c ∈ path.toList) ∧
      components (String.ofList kept) = components path := by
  by_cases nothing : path = ""
  · subst nothing
    exact ⟨[], rfl, List.forall_mem_nil _, rfl⟩
  have known : ∀ piece ∈ dropIdleEnd (opened path).2, piece ∈ pieces path :=
    fun piece member => mem_pieces_of_mem_opened ((isPrefix_dropIdleEnd _).subset member)
  have whole : ∀ piece ∈ dropIdleEnd (opened path).2, '/' ∉ piece :=
    fun piece member => slash_not_mem_of_mem_pieces (known piece member)
  have named : (dropIdleEnd (opened path).2).filter (!isIdle ·) = names path :=
    filter_dropIdleEnd _
  have short : (decide ((opened "").1 = .inside) && (names "").isEmpty) = true := by decide
  obtain ⟨first, rest, cut⟩ := List.exists_cons_of_ne_nil (List.splitOn_ne_nil '/' path.toList)
  have cut : pieces path = first :: rest := cut
  have starts := start_eq nothing
  rw [cut, List.headD_cons] at starts
  unfold strip?
  dsimp only
  rw [if_pos short]
  cases start : (opened path).1 with
  | root =>
      refine ⟨_, rfl, List.forall_mem_cons.mpr ⟨.inl rfl, fun c => mem_of_mem_shown known⟩, ?_⟩
      rw [components_rooted whole, named, components, start]
      rfl
  | here =>
      have dot : ['.'] ∈ pieces path := by
        rw [cut, startOf_eq_here.mp (starts.symm.trans start)]
        exact List.mem_cons_self
      have known : ∀ piece ∈ ['.'] :: dropIdleEnd (opened path).2, piece ∈ pieces path :=
        List.forall_mem_cons.mpr ⟨dot, known⟩
      refine ⟨_, rfl, fun c => mem_of_mem_shown known, ?_⟩
      rw [components_shown (by simp) fun piece member => slash_not_mem_of_mem_pieces
        (known piece member), List.filter_cons_of_neg (by decide), named, components, start]
      rfl
  | inside =>
      refine ⟨_, rfl, fun c => mem_of_mem_shown known, ?_⟩
      have inside : startOf first = .inside := starts.symm.trans start
      have all : (opened path).2 = first :: rest := by
        rw [opened_of_proper nothing cut (startOf_eq_inside.mp inside)]
      obtain ⟨others, kept⟩ := dropIdleEnd_of_inside inside
      rw [all, kept] at whole named ⊢
      have filled : first ≠ [] := by
        rintro rfl
        cases inside
      rw [components_shown filled whole, named, inside, components, start]

/-- What is left of a path behind the components of another one leads on from there. -/
theorem exists_strip? (inside : components base <+: components path) :
    ∃ kept, strip? base path = some kept ∧ (∀ c ∈ kept, c = '/' ∨ c ∈ path.toList) ∧
      components (join base (String.ofList kept)) = components path := by
  by_cases nothing : base = ""
  · subst nothing
    obtain ⟨kept, left, known, same⟩ := strip?_empty path
    refine ⟨kept, left, known, ?_⟩
    have alone : join "" (String.ofList kept) = String.ofList kept := by simp [join]
    rw [alone, same]
  obtain ⟨starts, front⟩ := start_eq_of_prefix nothing inside
  obtain ⟨rest, behind, ends⟩ := behind?_of_prefix
    (fun name member => (not_idle_of_mem_names member).1) front
  have stripped : strip? base path = some (shown (dropIdleEnd (rest.dropWhile isIdle))) := by
    rw [strip?_of_ne_empty nothing, if_pos starts, behind, Option.map_some]
  have fewer : dropIdleEnd (rest.dropWhile isIdle) ⊆ rest :=
    List.Subset.trans (isPrefix_dropIdleEnd _).subset (List.dropWhile_suffix _).subset
  have known : ∀ piece ∈ dropIdleEnd (rest.dropWhile isIdle), piece ∈ pieces path :=
    fun piece member => mem_pieces_of_mem_opened (ends.subset (fewer member))
  have whole : ∀ piece ∈ dropIdleEnd (rest.dropWhile isIdle), '/' ∉ piece :=
    fun piece member => slash_not_mem_of_mem_pieces (known piece member)
  have filled : (dropIdleEnd (rest.dropWhile isIdle)).head? ≠ some [] := by
    intro first
    obtain ⟨more, shape⟩ := isPrefix_dropIdleEnd (rest.dropWhile isIdle)
    have idle := List.head?_dropWhile_not isIdle rest
    rw [← shape, List.head?_append, first] at idle
    cases idle
  refine ⟨_, stripped, fun c => mem_of_mem_shown known, ?_⟩
  rw [components_join nothing (isAbsolute_shown whole filled), names_shown whole,
    filter_dropIdleEnd, filter_dropWhile, components, components, starts, List.append_assoc,
    ← filter_of_behind? behind]
  rfl

/-- **A path relative to a directory that it lies in leads from there to the same components.** -/
theorem components_join_relativeTo (inside : components base <+: components path)
    (straight : '\\' ∉ path.toList) :
    components (join base (relativeTo base path)) = components path ∧
      ∀ c ∈ (relativeTo base path).toList, c = '/' ∨ c ∈ path.toList := by
  obtain ⟨kept, found, known, same⟩ := exists_strip? inside
  have whole : relativeTo base path = String.ofList kept := by
    apply String.toList_injective
    rw [toList_relativeTo, found, Option.getD_some, String.toList_ofList]
    exact map_slash fun slanted => (known _ slanted).elim (by decide) straight
  rw [whole, String.toList_ofList]
  exact ⟨same, known⟩

end Strip
end Path

/-- The path of what a walk lists has the components of its start in front. -/
theorem Disk.components_prefix_of_mem_enumerate {disk : Disk} {listing : Listing} {start : String}
    {accepted : String → Bool} {file : SourceFile} (plain : disk.tree.Plain)
    (faithful : listing.Faithful) (member : file ∈ disk.enumerate listing start accepted) :
    Path.components start <+: Path.components file.path := by
  rcases (mem_enumerate plain faithful).mp member with
    ⟨location, inside, names, content, executable, leads, stands, -, rfl⟩ |
    ⟨location, content, executable, leads, -, rfl⟩
  · rw [← at?_inside leads] at stands
    have spelled : ∀ name ∈ names, IsName name := fun name listed =>
      (plain.of_at? stands).1 name (List.mem_append_right _ listed)
    rw [SourceFile.below, Path.components_foldl_join start spelled]
    exact List.prefix_append _ _
  · exact List.prefix_refl _

end BuildWarden
