import BuildWarden.Proofs.Tree.Formed
import BuildWarden.Tree.Walk
import Mathlib.Data.List.Nodup
import Mathlib.Data.List.Perm.Basic
/-!
# What a walk finds

A walk over a well-formed tree finds each regular file once and nothing else, in whatever order the
entries of the directories are listed. `Reordered` says that two trees have the same entries, each
directory in an order of its own.
-/

namespace BuildWarden
namespace Tree
variable {allowed : Leaf → Prop} {tree before after : Tree}

/-- The same entries in another order, in every directory. -/
inductive Reordered : Tree → Tree → Prop
  | empty : Reordered empty empty
  | leaf (name : String) (found : Leaf) {rest rest' : Tree} :
      Reordered rest rest' → Reordered (leaf name found rest) (leaf name found rest')
  | dir (name : String) {inside inside' rest rest' : Tree} :
      Reordered inside inside' → Reordered rest rest' →
        Reordered (dir name inside rest) (dir name inside' rest')
  | swap (first second : String) (one other : Item) (rest : Tree) :
      Reordered (place first (some one) (place second (some other) rest))
        (place second (some other) (place first (some one) rest))
  | trans {first second third : Tree} :
      Reordered first second → Reordered second third → Reordered first third

/-- A tree is one of its own reorderings. -/
@[refl]
theorem Reordered.refl (tree : Tree) : Reordered tree tree := by
  induction tree with
  | empty => exact .empty
  | leaf name found rest ih => exact .leaf name found ih
  | dir name inside rest within ih => exact .dir name within ih

private theorem mem_ownFiles (formed : tree.Formed allowed) (name : String) :
    name ∈ tree.ownFiles ↔ ∃ content executable,
      tree.find? name = some (.leaf (.file content executable)) := by
  induction tree with
  | empty => simp [ownFiles, find?]
  | leaf first found rest ih =>
      obtain ⟨-, -, fresh, formed⟩ := formed
      cases found with
      | file content executable =>
          rw [ownFiles, List.mem_cons, ih formed, find?]
          by_cases same : first = name
          · simp [same]
          · simp [same, Ne.symm same]
      | link target =>
          rw [ownFiles, ih formed, find?]
          by_cases same : first = name
          · subst same
            simp [fresh]
          · simp [same]
  | dir first inside rest _ ih =>
      obtain ⟨-, -, fresh, formed⟩ := formed
      rw [ownFiles, ih formed, find?]
      by_cases same : first = name
      · subst same
        simp [fresh]
      · simp [same]

private theorem nodup_ownFiles (formed : tree.Formed allowed) : tree.ownFiles.Nodup := by
  induction tree with
  | empty => exact List.nodup_nil
  | leaf first found rest ih =>
      obtain ⟨-, -, fresh, formed⟩ := formed
      cases found with
      | file content executable =>
          refine List.nodup_cons.mpr ⟨fun member => ?_, ih formed⟩
          obtain ⟨_, _, there⟩ := (mem_ownFiles formed first).mp member
          rw [fresh] at there
          cases there
      | link target => exact ih formed
  | dir first inside rest _ ih => exact ih formed.2.2.2

/-- The files inside are those of the subdirectories. -/
theorem mem_filesInside (formed : tree.Formed allowed) (names : Location) :
    names ∈ tree.filesInside ↔ ∃ name inside rest, names = name :: rest ∧
      tree.find? name = some (.dir inside) ∧ rest ∈ inside.files := by
  induction tree with
  | empty => simp [filesInside, find?]
  | leaf first found rest ih =>
      obtain ⟨-, -, fresh, formed⟩ := formed
      rw [filesInside, ih formed]
      refine exists_congr fun name => ?_
      rw [find?]
      by_cases same : first = name
      · subst same
        simp [fresh]
      · simp [same]
  | dir first inside rest _ ih =>
      obtain ⟨-, -, fresh, formed⟩ := formed
      rw [filesInside, List.mem_append, ih formed, List.mem_map]
      constructor
      · rintro (⟨below, member, rfl⟩ | ⟨name, found, below, rfl, there, member⟩)
        · exact ⟨first, inside, below, rfl, by simp [find?], member⟩
        · refine ⟨name, found, below, rfl, ?_, member⟩
          have different : first ≠ name := fun same => by simp [← same, fresh] at there
          simpa [find?, different] using there
      · rintro ⟨name, found, below, rfl, there, member⟩
        by_cases same : first = name
        · subst same
          simp only [find?, ↓reduceIte, Option.some.injEq, Item.dir.injEq] at there
          exact .inl ⟨below, there ▸ member, rfl⟩
        · exact .inr ⟨name, found, below, rfl, by simpa [find?, same] using there, member⟩

private theorem cons_mem_filesInside (formed : tree.Formed allowed) (name : String)
    (rest : Location) :
    name :: rest ∈ tree.filesInside ↔
      ∃ inside, tree.find? name = some (.dir inside) ∧ rest ∈ inside.files := by
  rw [mem_filesInside formed]
  constructor
  · rintro ⟨_, inside, _, same, there, member⟩
    cases same
    exact ⟨inside, there, member⟩
  · rintro ⟨inside, there, member⟩
    exact ⟨name, inside, rest, rfl, there, member⟩

/-- No file of a formed tree is without a name. -/
theorem nil_not_mem_files (formed : tree.Formed allowed) : [] ∉ tree.files := by
  simp [files, mem_filesInside formed]

/-- A file of a walk lies in the directory itself or in one of its subdirectories. -/
theorem cons_mem_files (formed : tree.Formed allowed) (name : String) (rest : Location) :
    name :: rest ∈ tree.files ↔
      (∃ inside, tree.find? name = some (.dir inside) ∧ rest ∈ inside.files) ∨
        rest = [] ∧ name ∈ tree.ownFiles := by
  rw [files, List.mem_append, cons_mem_filesInside formed, List.mem_map]
  refine or_congr_right ⟨?_, ?_⟩
  · rintro ⟨own, member, same⟩
    cases same
    exact ⟨rfl, member⟩
  · rintro ⟨rfl, member⟩
    exact ⟨name, member, rfl⟩

/-- **A walk finds exactly the regular files.** -/
theorem mem_files (formed : tree.Formed allowed) (names : Location) :
    names ∈ tree.files ↔ ∃ content executable,
      tree.at? names = some (.leaf (.file content executable)) := by
  induction names generalizing tree with
  | nil => simp [nil_not_mem_files formed]
  | cons name rest ih =>
      rw [cons_mem_files formed, mem_ownFiles formed, at?_cons]
      cases entry : tree.find? name with
      | none => simp
      | some item =>
          cases item with
          | leaf found => cases rest <;> simp [Item.at?]
          | dir inside => simpa [Item.at?] using ih (formed.of_find? entry).2

/-- The files of the subdirectories and those of the directory itself have different lengths. -/
private theorem nodup_files_of_filesInside (formed : tree.Formed allowed)
    (inside : tree.filesInside.Nodup) : tree.files.Nodup := by
  have own : (tree.ownFiles.map ([·] : String → Location)).Nodup :=
    (nodup_ownFiles formed).map fun _ _ same => by simpa using same
  refine inside.append own fun names below here => ?_
  obtain ⟨name, _, rfl⟩ := List.mem_map.mp here
  obtain ⟨found, there, member⟩ := (cons_mem_filesInside formed name []).mp below
  exact nil_not_mem_files (formed.of_find? there).2 member

private theorem nodup_filesInside (formed : tree.Formed allowed) : tree.filesInside.Nodup := by
  induction tree with
  | empty => exact List.nodup_nil
  | leaf first found rest ih => exact ih formed.2.2.2
  | dir first inside rest within ih =>
      obtain ⟨-, formedInside, fresh, formed⟩ := formed
      have below : (inside.files.map (first :: ·)).Nodup :=
        (nodup_files_of_filesInside formedInside (within formedInside)).map
          (List.cons_injective (a := first))
      refine below.append (ih formed) fun names here there => ?_
      obtain ⟨_, _, rfl⟩ := List.mem_map.mp here
      obtain ⟨found, present, _⟩ := (cons_mem_filesInside formed _ _).mp there
      rw [fresh] at present
      cases present

/-- **A walk finds nothing twice.** -/
theorem nodup_files (formed : tree.Formed allowed) : tree.files.Nodup :=
  nodup_files_of_filesInside formed (nodup_filesInside formed)

private theorem Reordered.ownFiles_perm (reordered : before.Reordered after) :
    before.ownFiles.Perm after.ownFiles := by
  induction reordered with
  | empty => exact .nil
  | leaf name found _ ih => cases found with
    | file content executable => exact ih.cons name
    | link target => exact ih
  | dir name _ _ _ ih => exact ih
  | swap first second one other rest =>
      rcases one with ((⟨content, executable⟩ | target) | inside) <;>
        rcases other with ((⟨content', executable'⟩ | target') | inside') <;>
        first | exact .refl _ | exact .swap second first _
  | trans _ _ ih ih' => exact ih.trans ih'

/-- The files of reordered trees are the same, in another order. -/
theorem Reordered.files_perm (reordered : before.Reordered after) :
    before.files.Perm after.files := by
  refine List.Perm.append ?_ (reordered.ownFiles_perm.map _)
  induction reordered with
  | empty => exact .nil
  | leaf name found _ ih => exact ih
  | dir name inside _ within ih =>
      exact ((within.append (inside.ownFiles_perm.map _)).map _).append ih
  | swap first second one other rest =>
      cases one with
      | leaf found => cases other <;> exact .refl _
      | dir inside => cases other with
        | leaf found => exact .refl _
        | dir inside' =>
            simp only [place, filesInside, ← List.append_assoc]
            exact List.perm_append_comm.append_right _
  | trans _ _ ih ih' => exact ih.trans ih'

end Tree
end BuildWarden
