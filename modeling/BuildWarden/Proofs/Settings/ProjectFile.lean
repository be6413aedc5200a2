import BuildWarden.Proofs.Settings.JobsVariable
import BuildWarden.Proofs.Text.Utf8
import BuildWarden.Proofs.Tree.Follow
/-!
# The file of the project

A relative file is looked for in the working directory and then in each directory above it, and the
nearest one is read. So a project without a file of its own takes that of a directory above.
-/

namespace BuildWarden

/-- What a file holds that a path leads to from a directory; nothing if it leads to no file. -/
def Disk.fileText? (disk : Disk) (location : Location) (path : String) : Option Bytes :=
  match disk.locateFrom true location path with
  | .ok (.taken _ (.leaf (.file content _))) => some content
  | _ => none

/-- A text is read from a file exactly if the path leads to one with this content. -/
theorem Disk.fileText?_eq_some {disk : Disk} {location : Location} {path : String}
    {content : Bytes} : disk.fileText? location path = some content ↔
      ∃ place executable, disk.locateFrom true location path =
        .ok (.taken place (.leaf (.file content executable))) := by
  unfold fileText?
  constructor
  · intro found
    split at found
    next place content executable same =>
      cases found
      exact ⟨place, executable, same⟩
    next => cases found
  · rintro ⟨place, executable, same⟩
    rw [same]

private theorem Disk.isFileIn_eq (disk : Disk) (location : Location) (path : String) :
    disk.isFileIn location path = (disk.fileText? location path).isSome := by
  unfold isFileIn fileText?
  cases disk.locateFrom true location path with
  | error fault => rfl
  | ok place =>
      cases place with
      | vacant place => rfl
      | taken place item =>
          cases item with
          | dir inside => rfl
          | leaf found => cases found <;> rfl

namespace Configuration
variable {disk other : Disk} {path : String} {location here : Location} {content : Bytes}

private theorem ancestors_nil : ancestors [] = [[]] :=
  rfl

private theorem ancestors_concat (front : Location) (name : String) :
    ancestors (front ++ [name]) = (front ++ [name]) :: ancestors front := by
  simp only [ancestors, List.length_append, List.length_singleton]
  rw [List.range_succ_eq_map, List.map_cons, List.map_map]
  congr 1
  · exact List.take_of_length_le (by simp)
  · refine List.map_congr_left fun above _ => ?_
    exact List.take_append_of_le_length (by omega) |>.trans (by congr 1; omega)

/-- The nearest file at or above a directory, and the directory it was found from. -/
def nearestFrom? (disk : Disk) (path : String) (location : Location) : Option (Location × Bytes) :=
  (ancestors location).findSome? fun directory =>
    (disk.fileText? directory path).map (directory, ·)

private theorem nearestFrom?_of_some (found : disk.fileText? location path = some content) :
    nearestFrom? disk path location = some (location, content) := by
  induction location using List.reverseRecOn with
  | nil => simp [nearestFrom?, ancestors_nil, found]
  | append_singleton front name _ =>
      rw [nearestFrom?, ancestors_concat, List.findSome?_cons, found]
      rfl

private theorem nearestFrom?_concat {front : Location} {name : String}
    (absent : disk.fileText? (front ++ [name]) path = none) :
    nearestFrom? disk path (front ++ [name]) = nearestFrom? disk path front := by
  rw [nearestFrom?, ancestors_concat, List.findSome?_cons, absent]
  rfl

/-- Directories without the file do not matter. -/
theorem nearestFrom?_append (front : Location) {back : Location}
    (absent : ∀ names, names <+: back → names ≠ [] → disk.fileText? (front ++ names) path = none) :
    nearestFrom? disk path (front ++ back) = nearestFrom? disk path front := by
  induction back using List.reverseRecOn with
  | nil => rw [List.append_nil]
  | append_singleton back name ih =>
      have last := absent (back ++ [name]) List.prefix_rfl (by simp)
      rw [← List.append_assoc] at last ⊢
      rw [nearestFrom?_concat last]
      exact ih fun names starts => absent names (starts.trans (List.prefix_append _ _))

private theorem nearestFrom?_eq_none
    (absent : ∀ names, names <+: here → disk.fileText? names path = none) :
    nearestFrom? disk path here = none := by
  have top : nearestFrom? disk path ([] ++ here) = nearestFrom? disk path [] :=
    nearestFrom?_append [] fun names starts _ => absent names starts
  rw [List.nil_append] at top
  rw [top, nearestFrom?, ancestors_nil]
  simp [absent [] List.nil_prefix]

private theorem searchFrom?_eq (relative : Path.isAbsolute path = false) :
    searchFrom? disk path = (nearestFrom? disk path disk.here).map Prod.fst := by
  simp only [searchFrom?, relative, Bool.false_eq_true, ↓reduceIte, Disk.isFileIn_eq,
    nearestFrom?]
  induction ancestors disk.here with
  | nil => rfl
  | cons directory above ih =>
      rw [List.find?_cons, List.findSome?_cons]
      cases disk.fileText? directory path with
      | none => exact ih
      | some content => rfl

/-- The settings in a relative file are those of the nearest one. -/
theorem fileSettings_eq (relative : Path.isAbsolute path = false) :
    fileSettings disk path =
      match nearestFrom? disk path disk.here with
      | none => .ok .empty
      | some (location, content) =>
        match Toml.parseBytes? content with
        | some document => .ok (document.settings (.file (shownFile disk location path)))
        | none => .error (.malformed (shownFile disk location path)) := by
  rw [fileSettings, searchFrom?_eq relative]
  cases nearest : nearestFrom? disk path disk.here with
  | none => rfl
  | some found =>
      obtain ⟨location, content⟩ := found
      obtain ⟨directory, -, here⟩ := List.exists_of_findSome?_eq_some nearest
      obtain ⟨_, text, same⟩ := Option.map_eq_some_iff.mp here
      obtain ⟨rfl, rfl⟩ := Prod.mk.inj same
      obtain ⟨place, executable, leads⟩ := Disk.fileText?_eq_some.mp text
      simp only [Option.map_some, leads]
      rfl

/-- A relative file in the working directory is read as its text says. -/
theorem fileSettings_of_text {document : Toml.Document} (relative : Path.isAbsolute path = false)
    (found : disk.fileText? disk.here path = some content)
    (parsed : Toml.parseBytes? content = some document) :
    fileSettings disk path = .ok (document.settings (.file (shownFile disk disk.here path))) := by
  rw [fileSettings_eq relative, nearestFrom?_of_some found]
  simp only [parsed]

/-! ### The file of the project -/

/-- What the file of the project holds in a directory; nothing where there is no such file. -/
def projectText? (disk : Disk) (directory : Location) : Option Bytes :=
  disk.fileText? directory (Path.join "." projectFile)

private theorem locate_projectFile (disk : Disk) (directory : Location) :
    disk.locateFrom true directory (Path.join "." projectFile) =
      disk.follow true Disk.mostLinks directory [projectFile] := by
  have named : (Path.join "." projectFile).isEmpty = false := by decide
  have relative : Path.isAbsolute (Path.join "." projectFile) = false := by decide
  have steps : Disk.steps (Path.join "." projectFile) = [".", projectFile] := by decide
  rw [Disk.locateFrom, named, relative, steps]
  exact Disk.follow_dot disk true Disk.mostLinks directory [projectFile]

private theorem isStep_projectFile : Disk.IsStep projectFile :=
  ⟨by decide, by decide⟩

/-- A project file in the directory itself is the one that is read. -/
theorem projectText?_file {executable : Bool}
    (stands : disk.tree.at? (location ++ [projectFile]) =
      some (.leaf (.file content executable))) :
    projectText? disk location = some content := by
  refine Disk.fileText?_eq_some.mpr ⟨location ++ [projectFile], executable, ?_⟩
  rw [locate_projectFile, Disk.follow_file isStep_projectFile stands]
  rfl

private theorem projectText?_eq_none
    (bare : ∀ leaf, disk.tree.at? (location ++ [projectFile]) ≠ some (.leaf leaf)) :
    projectText? disk location = none := by
  refine Option.eq_none_iff_forall_not_mem.mpr fun content found => ?_
  obtain ⟨place, executable, leads⟩ := Disk.fileText?_eq_some.mp found
  rw [locate_projectFile] at leads
  cases stands : disk.tree.at? (location ++ [projectFile]) with
  | none =>
      rw [Disk.follow_none isStep_projectFile stands] at leads
      split at leads <;> cases leads
  | some item =>
      cases item with
      | leaf leaf => exact bare leaf stands
      | dir inside =>
          rw [Disk.follow_dir isStep_projectFile stands, Disk.follow_nil stands] at leads
          cases leads

/-- The nearest file of the project at or above a directory, and the directory that it is in. -/
def nearestProject? (disk : Disk) : Option (Location × Bytes) :=
  nearestFrom? disk (Path.join "." projectFile) disk.here

/-- The configuration is that of the nearest file of the project. -/
theorem load_congr (same : disk.here = other.here)
    (nearest : nearestProject? disk = nearestProject? other)
    (environment : List (String × String)) :
    load disk environment "." none = load other environment "." none := by
  have relative : Path.isAbsolute (Path.join "." projectFile) = false := by decide
  have shown (location : Location) (path : String) :
      shownFile disk location path = shownFile other location path := by
    simp only [shownFile, same]
  have files : fileSettings disk (Path.join "." projectFile) =
      fileSettings other (Path.join "." projectFile) := by
    unfold nearestProject? at nearest
    rw [fileSettings_eq relative, fileSettings_eq relative, nearest]
    simp only [shown]
  simp only [load, layers, files]

/-- Whether the file of the project in a working directory, or that there is none, decides alone
what configuration is loaded there. -/
def OwnFileDecides (here : Location) (text : Option Bytes) : Prop :=
  ∀ (disk other : Disk) (environment : List (String × String)),
    disk.here = here → other.here = here →
    disk.tree.hasDirAt here = true → other.tree.hasDirAt here = true →
    projectText? disk here = text → projectText? other here = text →
    load disk environment "." none = load other environment "." none

/-- A file in the working directory hides those above it. -/
theorem ownFileDecides_some (here : Location) (content : Bytes) :
    OwnFileDecides here (some content) := by
  rintro disk other environment rfl there - - found held
  refine load_congr there.symm ?_ environment
  rw [nearestProject?, nearestProject?, nearestFrom?_of_some found, there,
    nearestFrom?_of_some held]

/-- The way down to a working directory leaves no room for a file of the project if every directory
on it has its name. -/
theorem nearestProject?_eq_none (there : disk.tree.hasDirAt disk.here = true)
    (named : ∀ name ∈ disk.here, name = projectFile) (absent : projectText? disk disk.here = none) :
    nearestProject? disk = none := by
  refine nearestFrom?_eq_none fun names starts => ?_
  obtain ⟨back, whole⟩ := starts
  cases back with
  | nil =>
      rw [List.append_nil] at whole
      exact whole ▸ absent
  | cons name back =>
      obtain rfl : name = projectFile := named name (whole ▸ by simp)
      refine projectText?_eq_none fun leaf stands => ?_
      rw [← whole, ← List.singleton_append, ← List.append_assoc, Tree.hasDirAt, Tree.at?_append,
        stands] at there
      cases back <;> simp [Item.at?] at there

/-- Directories inside each other, and what the last one holds. -/
def nested : Location → Tree → Tree
  | [], inside => inside
  | name :: rest, inside => .dir name (nested rest inside) .empty

private theorem at?_nested (front back : Location) (inside : Tree) :
    (nested front inside).at? (front ++ back) = inside.at? back := by
  induction front with
  | nil => rfl
  | cons name front ih =>
      rw [List.cons_append, Tree.at?_cons, nested, Tree.find?, if_pos rfl]
      exact ih

/-- Nothing but directories stands in directories that hold nothing else. -/
theorem at?_nested_empty (names location : Location) (leaf : Leaf) :
    (nested names .empty).at? location ≠ some (.leaf leaf) := by
  induction names generalizing location with
  | nil => cases location <;> simp [nested, Tree.at?_cons, Tree.find?]
  | cons name rest ih =>
      cases location with
      | nil => simp
      | cons first location =>
          rw [Tree.at?_cons, nested, Tree.find?]
          split
          · exact ih location
          · simp [Tree.find?]

/-- A file that asks for three jobs. -/
def threeJobs : Bytes :=
  Text.Utf8.encode "build.jobs = '3'"

/-- Whether a document is one text under a dotted key. -/
def isDottedText (name key text : String) : Option Toml.Document → Bool
  | some (.table name' .dotted (.value key' (.text text') .empty) .empty) =>
    name' == name && key' == key && text' == text
  | _ => false

/-- A document that is one text under a dotted key is known by these three. -/
theorem eq_of_isDottedText {name key text : String} {document : Option Toml.Document}
    (shape : isDottedText name key text document = true) :
    document = some (.table name .dotted (.value key (.text text) .empty) .empty) := by
  unfold isDottedText at shape
  split at shape
  next name' key' text' =>
    simp only [Bool.and_eq_true, beq_iff_eq] at shape
    obtain ⟨⟨rfl, rfl⟩, rfl⟩ := shape
    rfl
  next => cases shape

/-- What the project file of the example says. -/
theorem parse_threeJobs : Toml.parseBytes? threeJobs =
    some (.table "build" .dotted (.value "jobs" (.text "3") .empty) .empty) :=
  eq_of_isDottedText (by decide +kernel)

/-- Without any file of the project, the usual configuration is loaded. -/
theorem load_of_nearestProject?_none (absent : nearestProject? disk = none) :
    load disk [] "." none = .ok { layout.root := "./." } := by
  have relative : Path.isAbsolute (Path.join "." projectFile) = false := by decide
  rw [nearestProject?] at absent
  simp only [load, layers, fileSettings_eq relative, absent]
  rfl

private theorem load_of_threeJobs (nearest : nearestProject? disk = some (location, threeJobs)) :
    load disk [] "." none = .ok { build.jobs := "3", layout.root := "./." } := by
  have relative : Path.isAbsolute (Path.join "." projectFile) = false := by decide
  rw [nearestProject?] at nearest
  simp only [load, layers, fileSettings_eq relative, nearest, parse_threeJobs]
  rfl

/-- A directory on the way down without the name of the file has room beside it for a file
of the project, which a working directory without one takes. -/
theorem not_ownFileDecides_none {front back : Location} {name : String}
    (room : name ≠ projectFile) : ¬OwnFileDecides (front ++ name :: back) none := by
  let below : Tree := .dir name (nested back .empty) .empty
  let bare : Disk :=
    { tree := nested (front ++ name :: back) .empty
      here := front ++ name :: back }
  let ruled : Disk :=
    { tree := nested front (.leaf projectFile (.file threeJobs false) below)
      here := front ++ name :: back }
  have within (names : Location) : ruled.tree.at? (front ++ name :: names) =
      (nested back .empty).at? names := by
    rw [at?_nested, Tree.at?_cons, Tree.find?, if_neg (Ne.symm room), Tree.find?, if_pos rfl]
    rfl
  have bare_there : bare.tree.hasDirAt (front ++ name :: back) = true := by
    have top := at?_nested (front ++ name :: back) [] .empty
    rw [List.append_nil] at top
    rw [Tree.hasDirAt, top, Tree.at?_nil]
  have ruled_there : ruled.tree.hasDirAt (front ++ name :: back) = true := by
    have top := at?_nested back [] .empty
    rw [List.append_nil] at top
    rw [Tree.hasDirAt, within, top, Tree.at?_nil]
  have nowhere (directory : Location) : projectText? bare directory = none :=
    projectText?_eq_none fun leaf => at?_nested_empty _ _ leaf
  have not_below (names : Location) : projectText? ruled (front ++ name :: names) = none := by
    refine projectText?_eq_none fun leaf => ?_
    rw [List.append_assoc, List.cons_append, within]
    exact at?_nested_empty back _ leaf
  have stands : ruled.tree.at? (front ++ [projectFile]) =
      some (.leaf (.file threeJobs false)) := by
    rw [at?_nested, Tree.at?_singleton, Tree.find?, if_pos rfl]
  have nearest : nearestProject? ruled = some (front, threeJobs) := by
    refine (nearestFrom?_append front fun names starts something => ?_).trans
      (nearestFrom?_of_some (projectText?_file stands))
    obtain ⟨first, names, rfl⟩ := List.exists_cons_of_ne_nil something
    obtain rfl : first = name := (List.cons_prefix_cons.mp starts).1
    exact not_below names
  have usual : load bare [] "." none = .ok { layout.root := "./." } :=
    load_of_nearestProject?_none (nearestFrom?_eq_none fun names _ => nowhere names)
  have taken : load ruled [] "." none = .ok { build.jobs := "3", layout.root := "./." } :=
    load_of_threeJobs nearest
  intro decides
  have same := decides bare ruled [] rfl rfl bare_there ruled_there (nowhere _) (not_below back)
  rw [usual, taken] at same
  exact absurd (congrArg (·.build.jobs) (Except.ok.inj same)) (by decide)

/-- **What the file of the project decides.** The configuration is that of the nearest file at or
above the working directory. So a file in the working directory decides alone; that there is none
decides nothing, unless no directory above has room for such a file. -/
theorem load_reads_nearest (here : Location) :
    (∀ (disk other : Disk) (environment : List (String × String)),
      disk.here = here → other.here = here → nearestProject? disk = nearestProject? other →
      load disk environment "." none = load other environment "." none) ∧
    ∀ text, OwnFileDecides here text ↔
      text.isSome = true ∨ ∀ name ∈ here, name = projectFile := by
  refine ⟨fun disk other environment there same nearest =>
    load_congr (there.trans same.symm) nearest environment, fun text => ⟨fun decides => ?_, ?_⟩⟩
  · cases text with
    | some content => exact .inl rfl
    | none =>
        refine .inr fun name member => ?_
        obtain ⟨front, back, rfl⟩ := List.append_of_mem member
        by_contra room
        exact not_ownFileDecides_none room decides
  · cases text with
    | some content => exact fun _ => ownFileDecides_some here content
    | none =>
        rintro (something | named)
        · cases something
        rintro disk other environment rfl there disk_there other_there absent lacking
        rw [← there] at other_there lacking
        refine load_congr there.symm ?_ environment
        rw [nearestProject?_eq_none disk_there named absent,
          nearestProject?_eq_none other_there (there ▸ named) lacking]

/-- Below the top of a disk, a file in the working directory decides, and its absence does not. -/
theorem load_reads_nearest_below_top :
    OwnFileDecides ["work"] (some threeJobs) ∧ ¬OwnFileDecides ["work"] none := by
  obtain ⟨-, decides⟩ := load_reads_nearest ["work"]
  refine ⟨(decides _).mpr (.inl rfl), fun none => ?_⟩
  rcases (decides _).mp none with something | named
  · cases something
  · exact absurd (named "work" (by simp)) (by decide)

end Configuration
end BuildWarden
