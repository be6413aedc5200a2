import BuildWarden.Proofs.Text.Search
import BuildWarden.Proofs.Tree.Formed
import BuildWarden.Tree.Disk
/-!
# Steps of paths

What stands between the slashes of a path are its steps, and joining two paths joins their steps.
The one exception is a slash at the end, which asks for a directory only while nothing follows it.
-/

namespace BuildWarden.Disk

/-- The steps of a path behind which something follows. -/
def stepsThrough (path : String) : List String :=
  ((Path.pieces path).map String.ofList).filter (· != "")

/-- The steps of a path, with a dot for a slash at the end. -/
theorem steps_eq (path : String) :
    steps path =
      stepsThrough path ++ if (Path.pieces path).getLast? = some [] then ["."] else [] := by
  unfold steps stepsThrough
  rcases List.eq_nil_or_concat (Path.pieces path) with none | ⟨front, last, shape⟩
  · exact (List.splitOn_ne_nil _ _ none).elim
  · by_cases blank : last = []
    · simp [shape, blank]
    · have named : String.ofList last ≠ "" := by simpa using blank
      simp [shape, blank, named]

/-- A path has a first step, if only a dot. -/
theorem steps_ne_nil (path : String) : steps path ≠ [] := by
  rw [steps_eq]
  split
  · simp
  next named =>
    rcases List.eq_nil_or_concat (Path.pieces path) with none | ⟨front, last, shape⟩
    · exact (List.splitOn_ne_nil _ _ none).elim
    · simp_all [stepsThrough]

/-- A name is one step. -/
theorem steps_of_isName {name : String} (spelled : IsName name) : steps name = [name] := by
  obtain ⟨something, -, -, whole⟩ := spelled
  have alone : Path.pieces name = [name.toList] := List.splitOn_eq_singleton whole
  rw [steps_eq, stepsThrough, alone]
  simp [something]

/-- A name is a relative path. -/
theorem isAbsolute_of_isName {name : String} (spelled : IsName name) :
    Path.isAbsolute name = false := by
  obtain ⟨-, -, -, whole⟩ := spelled
  unfold Path.isAbsolute
  cases letters : name.toList with
  | nil => rfl
  | cons c rest =>
      rw [letters, List.mem_cons, not_or] at whole
      simpa [List.isPrefixOf] using whole.1

private theorem pieces_join_slash (base path : String) :
    Path.pieces (base ++ "/" ++ path) = Path.pieces base ++ Path.pieces path := by
  unfold Path.pieces
  rw [String.toList_append, String.toList_append, List.append_assoc]
  exact List.splitOn_append_cons_self base.toList path.toList

/-- What is joined to a path stands behind its pieces, in the place of an empty last one. -/
theorem exists_pieces_join {base path : String} (something : base ≠ "")
    (relative : Path.isAbsolute path = false) :
    ∃ front ≠ [], Path.pieces (Path.join base path) = front ++ Path.pieces path ∧
      (Path.pieces base = front ∨ Path.pieces base = front ++ [[]]) := by
  unfold Path.join
  rw [if_neg (by simp [relative])]
  by_cases slash : ['/'].isSuffixOf base.toList = true
  · obtain ⟨front, ended⟩ := List.isSuffixOf_iff_suffix.mp slash
    obtain rfl : base = String.ofList front ++ "/" := by
      apply String.toList_injective
      simp [← ended]
    have behind := pieces_join_slash (String.ofList front) ""
    rw [String.append_empty] at behind
    refine ⟨Path.pieces (String.ofList front), List.splitOn_ne_nil _ _, ?_, .inr behind⟩
    rw [if_pos (by rw [slash, Bool.or_true]), pieces_join_slash]
  · refine ⟨Path.pieces base, List.splitOn_ne_nil _ _, ?_, .inl rfl⟩
    rw [if_neg (by simp [something, slash]), pieces_join_slash]

/-- **Joining paths joins their steps**, if something follows. -/
theorem stepsThrough_join (base : String) {path : String}
    (relative : Path.isAbsolute path = false) :
    stepsThrough (Path.join base path) = stepsThrough base ++ stepsThrough path := by
  by_cases nothing : base = ""
  · subst nothing
    simp [Path.join, relative, stepsThrough, Path.pieces]
  · obtain ⟨front, -, joined, cut⟩ := exists_pieces_join nothing relative
    unfold stepsThrough
    rw [joined]
    rcases cut with cut | cut <;> simp [cut]

/-- **Joining paths joins their steps**, also at the end. -/
theorem steps_join (base : String) {path : String} (relative : Path.isAbsolute path = false) :
    steps (Path.join base path) = stepsThrough base ++ steps path := by
  have last : (Path.pieces (Path.join base path)).getLast? = (Path.pieces path).getLast? := by
    by_cases nothing : base = ""
    · subst nothing
      simp [Path.join, relative]
    · obtain ⟨front, -, joined, -⟩ := exists_pieces_join nothing relative
      have some : Path.pieces path ≠ [] := List.splitOn_ne_nil _ _
      rw [joined, List.getLast?_append_of_ne_nil _ some]
  rw [steps_eq, steps_eq path, stepsThrough_join base relative, last, List.append_assoc]

/-- Joining a relative path does not change whether a path is absolute. -/
theorem isAbsolute_join (base : String) {path : String} (relative : Path.isAbsolute path = false) :
    Path.isAbsolute (Path.join base path) = Path.isAbsolute base := by
  unfold Path.join
  rw [if_neg (by simp [relative])]
  by_cases nothing : base.toList = []
  · obtain rfl : base = "" := by simpa using nothing
    simpa [show Path.isAbsolute "" = false by decide] using relative
  · obtain ⟨first, rest, letters⟩ := List.exists_cons_of_ne_nil nothing
    unfold Path.isAbsolute
    split <;> simp [letters, List.isPrefixOf]

/-- A name that is joined to a path is its last step. -/
theorem steps_join_name (base : String) {name : String} (spelled : IsName name) :
    steps (Path.join base name) = stepsThrough base ++ [name] := by
  rw [steps_join base (isAbsolute_of_isName spelled), steps_of_isName spelled]

/-- A name is looked for in the directory itself. -/
theorem locateFrom_name (disk : Disk) (last : Bool) (location : Location) {name : String}
    (spelled : IsName name) :
    disk.locateFrom last location name = disk.follow last mostLinks location [name] := by
  unfold locateFrom
  rw [if_neg (by simpa using spelled.1), isAbsolute_of_isName spelled, steps_of_isName spelled]
  rfl

/-- A path that ends in a name is not empty. -/
theorem ne_empty_of_steps {path name : String} {front : List String} (spelled : IsName name)
    (ends : steps path = front ++ [name]) : path ≠ "" := by
  rintro rfl
  obtain ⟨-, same⟩ := List.append_inj' (show [] ++ ["."] = _ from ends) rfl
  exact spelled.2.1 (List.singleton_injective same).symm

private theorem stepsThrough_of_isName {name : String} (spelled : IsName name) :
    stepsThrough name = [name] := by
  have alone : Path.pieces name = [name.toList] := List.splitOn_eq_singleton spelled.2.2.2
  rw [stepsThrough, alone]
  simp [spelled.1]

/-- Names that are joined to a path one after the other are its last steps. -/
theorem steps_foldl_join (base : String) {names : List String}
    (spelled : ∀ name ∈ names, IsName name) (some : names ≠ []) :
    steps (names.foldl Path.join base) = stepsThrough base ++ names := by
  induction names generalizing base with
  | nil => exact (some rfl).elim
  | cons name rest ih =>
      obtain ⟨first, others⟩ := List.forall_mem_cons.mp spelled
      rw [List.foldl_cons]
      by_cases last : rest = []
      · subst last
        exact steps_join_name base first
      · rw [ih _ others last, stepsThrough_join base (isAbsolute_of_isName first),
          stepsThrough_of_isName first, List.append_assoc]
        rfl

/-- Joining names does not change whether a path is absolute. -/
theorem isAbsolute_foldl_join (base : String) {names : List String}
    (spelled : ∀ name ∈ names, IsName name) :
    Path.isAbsolute (names.foldl Path.join base) = Path.isAbsolute base := by
  induction names generalizing base with
  | nil => rfl
  | cons name rest ih =>
      obtain ⟨first, others⟩ := List.forall_mem_cons.mp spelled
      rw [List.foldl_cons, ih _ others, isAbsolute_join base (isAbsolute_of_isName first)]

end BuildWarden.Disk
