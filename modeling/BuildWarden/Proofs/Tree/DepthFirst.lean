import BuildWarden.Proofs.Pattern.Suffix
import BuildWarden.Proofs.Tree.Listed
import Mathlib.Data.List.Flatten
/-!
# Depth-first walks

A walk goes through a directory depth first: it sorts the entries stably, with the subdirectories in
front of everything else, and comes by each entry before what is in it. Out of all it comes by, the
regular files are kept whose names match. `files_eq_visited` says that the files of a tree are what
such a walk keeps, and `enumerate_suffix` what follows for the pattern of a star and a suffix.
-/

namespace BuildWarden

/-- A directory itself; a link to one does not count. -/
def Item.isDirectory : Item → Bool
  | .dir _ => true
  | .leaf _ => false

/-- A regular file itself. -/
def Item.isRegular : Item → Bool
  | .leaf (.file _ _) => true
  | _ => false

namespace Tree
variable {allowed : Leaf → Prop} {tree before after : Tree}

/-! ### The walk -/

/-- Directories are less than other entries; beyond that, all entries are equal. -/
def directoriesFirst (one other : String × Item) : Ordering :=
  compare other.2.isDirectory one.2.isDirectory

/-- The entries of a directory, stably sorted. -/
def sortedEntries (tree : Tree) : List (String × Item) :=
  tree.entries.mergeSort fun one other => (directoriesFirst one other).isLE

private theorem mem_entries_lt {name : String} {inside : Tree}
    (member : (name, .dir inside) ∈ tree.entries) : sizeOf inside < sizeOf tree := by
  induction tree with
  | empty => cases member
  | leaf first found rest ih =>
      have later := ih (by simpa [entries] using member)
      rw [leaf.sizeOf_spec]
      omega
  | dir first below rest _ ih =>
      rw [entries, List.mem_cons, Prod.mk.injEq, Item.dir.injEq] at member
      rw [dir.sizeOf_spec]
      rcases member with ⟨-, rfl⟩ | member
      · omega
      · have later := ih member
        omega

/-- What a walk comes by below a directory, in order: each entry, and then what is in it. -/
def visited (tree : Tree) : List (Location × Item) :=
  tree.sortedEntries.attach.flatMap fun
    | ⟨(name, .leaf found), _⟩ => [([name], .leaf found)]
    | ⟨(name, .dir inside), _⟩ =>
      ([name], .dir inside) :: inside.visited.map fun (below, item) => (name :: below, item)
termination_by tree
decreasing_by
  rename_i member
  exact mem_entries_lt ((List.mergeSort_perm _ _).mem_iff.mp member)

/-- What a walk comes by at one entry. -/
def visitedAt : String × Item → List (Location × Item)
  | (name, .leaf found) => [([name], .leaf found)]
  | (name, .dir inside) =>
    ([name], .dir inside) :: inside.visited.map fun (below, item) => (name :: below, item)

private theorem visited_eq (tree : Tree) : tree.visited = tree.sortedEntries.flatMap visitedAt := by
  rw [visited, @List.flatMap_subtype _ _ _ _ _ visitedAt, List.unattach_attach]
  rintro ⟨name, found | inside⟩ - <;> rfl

/-! ### Sorted entries -/

private theorem directoriesFirst_isLE (one other : String × Item) :
    (directoriesFirst one other).isLE = (one.2.isDirectory || !other.2.isDirectory) := by
  unfold directoriesFirst
  cases one.2.isDirectory <;> cases other.2.isDirectory <;> rfl

/-- In a list that is sorted, what comes first stands in front. -/
theorem filter_append_of_sorted {α : Type*} {first : α → Bool} {sorted : List α}
    (ascends : sorted.Pairwise fun one other => (first one || !first other) = true) :
    sorted.filter first ++ sorted.filter (!first ·) = sorted := by
  induction sorted with
  | nil => rfl
  | cons one rest ih =>
      obtain ⟨below, ascends⟩ := List.pairwise_cons.mp ascends
      by_cases leads : first one = true
      · rw [List.filter_cons_of_pos leads, List.filter_cons_of_neg (by simp [leads]),
          List.cons_append, ih ascends]
      · have none : rest.filter first = [] := by
          refine List.filter_eq_nil_iff.mpr fun other member => ?_
          simpa [leads] using below other member
        have all : rest.filter (!first ·) = rest := by
          simpa [none] using ih ascends
        rw [List.filter_cons_of_neg leads, List.filter_cons_of_pos (by simpa using leads), none,
          all, List.nil_append]

/-- **The subdirectories stand in front**, and both kinds of entries in listing order. -/
theorem sortedEntries_eq (tree : Tree) :
    tree.sortedEntries = tree.entries.filter (·.2.isDirectory) ++
      tree.entries.filter (!·.2.isDirectory) := by
  have whole : tree.sortedEntries = tree.entries.mergeSort fun one other =>
      one.2.isDirectory || !other.2.isDirectory := by
    unfold sortedEntries
    simp only [directoriesFirst_isLE]
  have transitive (a b c : String × Item) :
      (a.2.isDirectory || !b.2.isDirectory) = true → (b.2.isDirectory || !c.2.isDirectory) = true →
        (a.2.isDirectory || !c.2.isDirectory) = true := by
    grind
  have total (a b : String × Item) :
      ((a.2.isDirectory || !b.2.isDirectory) || (b.2.isDirectory || !a.2.isDirectory)) = true := by
    grind
  have ascends := List.pairwise_mergeSort transitive total tree.entries
  have permuted := List.mergeSort_perm tree.entries fun one other =>
    one.2.isDirectory || !other.2.isDirectory
  rw [← whole] at ascends permuted
  -- entries of one kind are in order already, so a stable sort keeps them as they are
  have kept (kind : String × Item → Bool)
      (alike : (tree.entries.filter kind).Pairwise fun one other =>
        (one.2.isDirectory || !other.2.isDirectory) = true) :
      tree.entries.filter kind = tree.sortedEntries.filter kind := by
    have within :=
      (List.sublist_mergeSort transitive total alike List.filter_sublist).filter kind
    rw [← whole, List.filter_filter] at within
    simp only [Bool.and_self] at within
    exact within.eq_of_length (permuted.filter kind).length_eq.symm
  have split := filter_append_of_sorted ascends
  rw [kept (·.2.isDirectory), kept (!·.2.isDirectory)]
  · exact split.symm
  · refine List.pairwise_filter.mpr (List.pairwise_of_forall fun one other _ last => ?_)
    rw [last, Bool.or_true]
  · refine List.pairwise_filter.mpr (List.pairwise_of_forall fun one other leads _ => ?_)
    rw [leads, Bool.true_or]

/-! ### The files of a tree are what the walk keeps -/

private theorem filesInside_eq (tree : Tree) :
    tree.filesInside = (tree.entries.filter (·.2.isDirectory)).flatMap fun
      | (name, .dir inside) => inside.files.map (name :: ·)
      | (_, .leaf _) => [] := by
  induction tree with
  | empty => rfl
  | leaf name found rest ih => exact ih
  | dir name inside rest _ ih =>
      rw [filesInside, ih]
      rfl

private theorem ownFiles_eq (tree : Tree) :
    tree.ownFiles.map ([·]) = (tree.entries.filter (!·.2.isDirectory)).flatMap fun entry =>
      ((visitedAt entry).filter (·.2.isRegular)).map Prod.fst := by
  induction tree with
  | empty => rfl
  | leaf name found rest ih =>
      cases found with
      | file content executable =>
          rw [ownFiles, List.map_cons, ih]
          rfl
      | link target => exact ih
  | dir name inside rest _ ih => exact ih

/-- **The files of a tree are the regular files that a depth-first walk comes by**, in its
order. -/
theorem files_eq_visited (tree : Tree) :
    tree.files = (tree.visited.filter (·.2.isRegular)).map Prod.fst := by
  rw [files, visited_eq, sortedEntries_eq, List.flatMap_append, List.filter_append,
    List.map_append, List.filter_flatMap, List.filter_flatMap, List.map_flatMap, List.map_flatMap,
    filesInside_eq, ownFiles_eq]
  congr 1
  refine List.flatMap_congr fun entry member => ?_
  obtain ⟨listed, isDirectory⟩ := List.mem_filter.mp member
  obtain ⟨name, item⟩ := entry
  cases item with
  | leaf found => cases isDirectory
  | dir inside =>
    have smaller := mem_entries_lt listed
    change inside.files.map (name :: ·) = _
    rw [files_eq_visited inside, visitedAt, List.filter_cons_of_neg (by simp [Item.isRegular]),
      List.filter_map, List.map_map, List.map_map]
    rfl
termination_by tree

/-! ### Subdirectories first -/

/-- A file that lies deeper than another one, in a subdirectory of the directory of that. -/
def Deeper (names others : Location) : Prop :=
  ∃ further, further ≠ [] ∧ names.dropLast = others.dropLast ++ further

private theorem not_deeper_singleton (name : String) (others : Location) : ¬ Deeper
    [name] others := by
  rintro ⟨further, some, lies⟩
  exact some (List.append_eq_nil_iff.mp lies.symm).2

private theorem deeper_cons {names others : Location} (some : names ≠ []) (someOther : others ≠ [])
    (name other : String) :
    Deeper (name :: names) (other :: others) ↔ name = other ∧ Deeper names others := by
  unfold Deeper
  rw [List.dropLast_cons_of_ne_nil some, List.dropLast_cons_of_ne_nil someOther]
  constructor
  · rintro ⟨further, more, lies⟩
    obtain ⟨same, lies⟩ := List.cons.inj lies
    exact ⟨same, further, more, lies⟩
  · rintro ⟨rfl, further, more, lies⟩
    exact ⟨further, more, by rw [lies, List.cons_append]⟩

/-- Nothing that lies deeper than a file comes after it, if this is so in the subdirectories. -/
private theorem pairwise_files_of_filesInside
    (ascends : tree.filesInside.Pairwise fun names others => ¬ Deeper others names) :
    tree.files.Pairwise fun names others => ¬ Deeper others names := by
  refine List.pairwise_append.mpr ⟨ascends, ?_, fun names _ others own => ?_⟩
  · exact List.pairwise_map.mpr (List.pairwise_of_forall fun one other =>
      not_deeper_singleton other [one])
  · obtain ⟨name, -, rfl⟩ := List.mem_map.mp own
    exact not_deeper_singleton name names

private theorem pairwise_filesInside (formed : tree.Formed allowed) :
    tree.filesInside.Pairwise fun names others => ¬ Deeper others names := by
  induction tree with
  | empty => exact .nil
  | leaf name found rest ih => exact ih formed.2.2.2
  | dir name inside rest within ih =>
      obtain ⟨-, formedInside, fresh, formed⟩ := formed
      have below := pairwise_files_of_filesInside (within formedInside)
      have some {names : Location} (member : names ∈ inside.files) : names ≠ [] := by
        rintro rfl
        exact nil_not_mem_files formedInside member
      refine List.pairwise_append.mpr ⟨?_, ih formed, fun names here others there => ?_⟩
      · refine List.pairwise_map.mpr (below.imp_of_mem fun member memberOther shallow => ?_)
        rw [deeper_cons (some memberOther) (some member)]
        exact fun deeper => shallow deeper.2
      · obtain ⟨front, member, rfl⟩ := List.mem_map.mp here
        obtain ⟨other, found, back, rfl, present, listed⟩ :=
          (mem_filesInside formed others).mp there
        have someOther : back ≠ [] := by
          rintro rfl
          exact nil_not_mem_files (formed.of_find? present).2 listed
        rw [deeper_cons someOther (some member)]
        rintro ⟨rfl, -⟩
        rw [fresh] at present
        cases present

/-- **No file comes after those of a directory further up.** -/
theorem pairwise_files (formed : tree.Formed allowed) :
    tree.files.Pairwise fun names others => ¬ Deeper others names :=
  pairwise_files_of_filesInside (pairwise_filesInside formed)

/-! ### Reordered trees -/

private theorem Reordered.find?_eq_none (reordered : before.Reordered after) {name : String}
    (fresh : before.find? name = none) : after.find? name = none := by
  induction reordered with
  | empty => rfl
  | leaf first found _ ih =>
      rw [find?] at fresh ⊢
      by_cases same : first = name
      · simp [same] at fresh
      · rw [if_neg same] at fresh ⊢
        exact ih fresh
  | dir first _ _ _ ih =>
      rw [find?] at fresh ⊢
      by_cases same : first = name
      · simp [same] at fresh
      · rw [if_neg same] at fresh ⊢
        exact ih fresh
  | swap first second one other rest =>
      rw [find?_place, find?_place] at fresh ⊢
      by_cases isFirst : first = name
      · simp [isFirst] at fresh
      · by_cases isSecond : second = name
        · simp [isFirst, isSecond] at fresh
        · rw [if_neg isFirst, if_neg isSecond] at fresh
          rw [if_neg isFirst, if_neg isSecond, fresh]
  | trans _ _ first second => exact second (first fresh)

/-- A well-formed tree stays so in another order. -/
theorem Reordered.formed (reordered : before.Reordered after) (formed : before.Formed allowed) :
    after.Formed allowed := by
  induction reordered with
  | empty => exact formed
  | leaf name found inOrder ih =>
      obtain ⟨spelled, allows, fresh, formed⟩ := formed
      exact ⟨spelled, allows, inOrder.find?_eq_none fresh, ih formed⟩
  | dir name _ inOrder within ih =>
      obtain ⟨spelled, formedInside, fresh, formed⟩ := formed
      exact ⟨spelled, within formedInside, inOrder.find?_eq_none fresh, ih formed⟩
  | swap first second one other rest =>
      rw [formed_place_some, formed_place_some] at formed ⊢
      obtain ⟨spelledFirst, allowsOne, fresh, spelledSecond, allowsOther, freshSecond, formed⟩ :=
        formed
      rw [find?_place] at fresh ⊢
      have different : second ≠ first := by
        rintro rfl
        simp at fresh
      rw [if_neg different] at fresh
      rw [if_neg different.symm]
      exact ⟨spelledSecond, allowsOther, freshSecond, spelledFirst, allowsOne, fresh, formed⟩
  | trans _ _ first second => exact second (first formed)

end Tree

/-! ### What a walk yields -/

namespace Disk
variable {disk : Disk} {listing : Listing} {allowed : Leaf → Prop} {start suffix : String}

/-- The path of a file below the start tells which file it is. -/
theorem below_injective (start : String) (place : Location) {names others : Location}
    (spelled : ∀ name ∈ names, IsName name) (spelledOthers : ∀ name ∈ others, IsName name)
    (some : names ≠ []) (someOther : others ≠ [])
    (same : (SourceFile.below start place names).path =
      (SourceFile.below start place others).path) : names = others := by
  have steps := congrArg Disk.steps same
  rw [SourceFile.below, SourceFile.below, steps_foldl_join start spelled some,
    steps_foldl_join start spelledOthers someOther] at steps
  exact List.append_cancel_left steps

section Below
variable {place : Location} {inside : Tree} {accepted : String → Bool}
  (formed : disk.tree.Formed allowed) (faithful : listing.Faithful)
  (leads : disk.open? start = .ok (place, .dir inside))

include leads in
private theorem enumerate_eq_visited :
    disk.enumerate listing start accepted =
      ((listing inside).visited.filter fun found =>
        found.2.isRegular && accepted (found.1.getLastD "")).map fun found =>
          .below start place found.1 := by
  rw [enumerate_dir leads, Tree.files_eq_visited, List.filter_map, List.filter_filter, List.map_map]
  simp only [Function.comp_def, Bool.and_comm]

include formed leads in
private theorem formed_inside : inside.Formed allowed :=
  (formed.of_at? (at?_of_locate (open?_eq_ok.mp leads))).2

include formed faithful leads

/-- A walk yields no path twice. -/
theorem nodup_enumerate_paths :
    ((disk.enumerate listing start accepted).map SourceFile.path).Nodup := by
  have within := formed_inside formed leads
  have once : (listing inside).files.Nodup :=
    (faithful inside).files_perm.nodup_iff.mp (Tree.nodup_files within)
  have spelled {names : Location} (member : names ∈ (listing inside).files) :
      names ≠ [] ∧ ∀ name ∈ names, IsName name := by
    rw [← (faithful inside).files_perm.mem_iff, Tree.mem_files within] at member
    obtain ⟨content, executable, stands⟩ := member
    exact ⟨Tree.file_ne_nil stands, (within.of_at? stands).1⟩
  rw [enumerate_dir leads, List.map_map]
  refine (once.filter _).map_on fun names member others memberOther same => ?_
  obtain ⟨some, named⟩ := spelled (List.mem_filter.mp member).1
  obtain ⟨someOther, namedOther⟩ := spelled (List.mem_filter.mp memberOther).1
  exact below_injective start place named namedOther some someOther same

/-- **A walk yields the files of the subdirectories first.** -/
theorem subdirectories_first {front back : List SourceFile} {file other : SourceFile}
    (found : disk.enumerate listing start accepted = front ++ file :: back)
    (member : other ∈ disk.enumerate listing start accepted) {further : Location}
    (some : further ≠ []) (deeper : other.directory = file.directory ++ further) :
    other ∈ front := by
  have within := (faithful inside).formed (formed_inside formed leads)
  have ascends : (disk.enumerate listing start accepted).Pairwise fun one other =>
      ¬ ∃ further, further ≠ [] ∧ other.directory = one.directory ++ further := by
    rw [enumerate_dir leads]
    refine List.pairwise_map.mpr (((Tree.pairwise_files within).filter _).imp ?_)
    rintro one other shallow ⟨further, some, lies⟩
    rw [SourceFile.below, SourceFile.below, List.append_assoc] at lies
    exact shallow ⟨further, some, List.append_cancel_left lies⟩
  rw [found] at ascends member
  obtain ⟨-, later, -⟩ := List.pairwise_append.mp ascends
  rcases List.mem_append.mp member with before | same | ⟨_, after⟩
  · exact before
  · exact (some (List.append_right_eq_self.mp deeper.symm)).elim
  · exact ((List.pairwise_cons.mp later).1 other after ⟨further, some, deeper⟩).elim

end Below

/-- **Enumeration is exact and goes through subdirectories first.** For a star and a suffix, a walk
that starts nowhere yields nothing. One that starts in a directory keeps, from what it comes by
depth first, each regular file whose name ends in the suffix: no other file, none twice, and none of
a directory in front of those in its subdirectories. -/
theorem enumerate_suffix (formed : disk.tree.Formed allowed) (faithful : listing.Faithful)
    (literal : ∀ c ∈ suffix.toList, Pattern.isSpecial c = false) :
    ∃ pattern, Pattern.parse ("*" ++ suffix) = .ok pattern ∧ ∀ start,
      let found := disk.enumerate listing start pattern.accepts
      (disk.isThere start = false → found = []) ∧
      ∀ place inside, disk.open? start = .ok (place, .dir inside) →
        (found = ((listing inside).visited.filter fun (names, item) =>
          item.isRegular && pattern.accepts (names.getLastD "")).map fun (names, _) =>
            .below start place names) ∧
        (∀ file, file ∈ found ↔ ∃ names content executable,
          inside.at? names = some (.leaf (.file content executable)) ∧
            suffix.toList <:+ (names.getLastD "").toList ∧ file = .below start place names) ∧
        (found.map SourceFile.path).Nodup ∧
        ∀ front file back, found = front ++ file :: back →
          ∀ other ∈ found, ∀ further ≠ [],
            other.directory = file.directory ++ further → other ∈ front := by
  refine ⟨.endingIn suffix, Pattern.parse_star literal, fun start => ⟨fun missing =>
    enumerate_missing missing _, fun place inside leads => ⟨enumerate_eq_visited leads, fun file =>
      ?_, nodup_enumerate_paths formed faithful leads, fun front file back shape other member
        further some => subdirectories_first formed faithful leads shape member some⟩⟩⟩
  rw [mem_enumerate_iff formed faithful]
  constructor
  · rintro ⟨lists, takes⟩
    cases lists with
    | @below place names inside content executable leads' stands =>
        rw [leads] at leads'
        cases leads'
        exact ⟨names, content, executable, stands, (Pattern.accepts_endingIn_iff _ _).mp takes, rfl⟩
    | alone leads' =>
        rw [open?_of_locate leads' (by simp)] at leads
        cases leads
  · rintro ⟨names, content, executable, stands, ends, rfl⟩
    exact ⟨.below leads stands, (Pattern.accepts_endingIn_iff _ _).mpr ends⟩

/-- Headers on two levels, next to a link and to a directory that are named like one. -/
def nestedHeaders : Disk where
  tree :=
    .dir "src" (.leaf "a.h" (.file [] false) (.leaf "l.h" (.link "a.h") (.dir "d.h" .empty
      (.dir "sub" (.leaf "b.h" (.file [] false) .empty) .empty)))) .empty

/-- The link and the directory are passed over, and the header further down comes first. -/
theorem enumerate_suffix_nested :
    ∃ pattern, Pattern.parse "*.h" = .ok pattern ∧
      nestedHeaders.enumerate id "nope" pattern.accepts = [] ∧
      let found := nestedHeaders.enumerate id "src" pattern.accepts
      (∀ file, file ∈ found ↔
        file = .below "src" ["src"] ["a.h"] ∨ file = .below "src" ["src"] ["sub", "b.h"]) ∧
      ∀ front back, found = front ++ .below "src" ["src"] ["a.h"] :: back →
        .below "src" ["src"] ["sub", "b.h"] ∈ front := by
  have formed : nestedHeaders.tree.Formed fun _ => True := by decide
  have steps : steps "src" = ["src"] ∧ steps "nope" = ["nope"] := by decide
  have relative : Path.isAbsolute "src" = false ∧ Path.isAbsolute "nope" = false := by decide
  have missing : nestedHeaders.isThere "nope" = false := by
    simp [nestedHeaders, isThere, open?, locate, locateFrom, steps, relative, follow, Tree.at?,
      Tree.find?, Tree.hasDirAt, Except.isOk, Except.toBool]
  have leads : nestedHeaders.open? "src" = .ok (["src"], .dir (.leaf "a.h" (.file [] false)
      (.leaf "l.h" (.link "a.h") (.dir "d.h" .empty
        (.dir "sub" (.leaf "b.h" (.file [] false) .empty) .empty))))) := by
    simp [nestedHeaders, open?, locate, locateFrom, steps, relative, follow, Tree.at?, Tree.find?]
  have faithful : Listing.Faithful id := Tree.Reordered.refl
  have literal : ∀ c ∈ ".h".toList, Pattern.isSpecial c = false := by simp [Pattern.isSpecial]
  obtain ⟨pattern, read, yields⟩ := enumerate_suffix formed faithful literal
  obtain ⟨-, only, -, first⟩ := (yields "src").2 _ _ leads
  have found (file : SourceFile) : file ∈ nestedHeaders.enumerate id "src" pattern.accepts ↔
      file = .below "src" ["src"] ["a.h"] ∨ file = .below "src" ["src"] ["sub", "b.h"] := by
    rw [only file]
    constructor
    · rintro ⟨names, content, executable, stands, -, rfl⟩
      have within : names ∈ [["sub", "b.h"], ["a.h"]] :=
        (Tree.mem_files (formed_inside formed leads) names).mpr ⟨content, executable, stands⟩
      simp only [List.mem_cons, List.not_mem_nil, or_false] at within
      rcases within with rfl | rfl
      · exact .inr rfl
      · exact .inl rfl
    · rintro (rfl | rfl)
      · exact ⟨["a.h"], [], false, rfl, by decide, rfl⟩
      · exact ⟨["sub", "b.h"], [], false, rfl, by decide, rfl⟩
  refine ⟨pattern, read, (yields "nope").1 missing, found, fun front back shape => ?_⟩
  exact first front _ back shape _ ((found _).mpr (.inr rfl)) ["sub"] (by simp) rfl

end Disk
end BuildWarden
