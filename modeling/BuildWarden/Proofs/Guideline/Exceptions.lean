import BuildWarden.Guideline.Check
import BuildWarden.Proofs.Text.Parts
import BuildWarden.Proofs.Tree.Display
/-!
# Directories and names that are excepted

A fragment is looked for in the whole text of a path, but what it says is about components: between
slashes it is the name of a directory on the way, and without a slash it stands in one of the names.
-/

namespace BuildWarden.Guideline
variable {parts : List String} {name path : String} {fragments : List String}

private theorem isExcepted_iff :
    isExcepted path fragments = true ↔
      ∃ fragment ∈ fragments, fragment.toList <:+: '/' :: path.toList := by
  rw [isExcepted, List.any_eq_true]
  refine exists_congr fun fragment => and_congr_right fun _ => ?_
  rw [Text.contains, Text.hasPart_iff, String.toList_append]
  rfl

section Parts
variable (bare : '/' ∉ name.toList)
include bare

/-- **Between slashes a fragment is a component**, and not the last one. -/
theorem directory_infix_iff (some : parts ≠ []) (whole : ∀ part ∈ parts, '/' ∉ part.toList) :
    ("/" ++ name ++ "/").toList <:+: '/' :: (Text.joined "/" parts).toList ↔
      name ∈ parts.dropLast := by
  obtain ⟨first, rest, rfl⟩ := List.exists_cons_of_ne_nil some
  have wholes : ∀ piece ∈ (first :: rest).map String.toList, '/' ∉ piece :=
    List.forall_mem_map.mpr whole
  have begun : '/' :: (Text.joined "/" (first :: rest)).toList =
      ((first :: rest).map String.toList).flatMap ('/' :: ·) := by
    rw [Path.toList_joined, List.map_cons, Path.cons_shown]
  have fragment : ("/" ++ name ++ "/").toList = '/' :: (name.toList ++ ['/']) := by simp
  rw [begun, fragment, Text.infix_flatMap_begun_iff bare wholes, ← List.map_dropLast,
    List.mem_map_of_injective fun _ _ => String.toList_injective]

/-- **Without a slash a fragment stands in one component.** -/
theorem name_infix_iff (named : name ≠ "") :
    name.toList <:+: '/' :: (Text.joined "/" parts).toList ↔
      ∃ part ∈ parts, name.toList <:+: part.toList := by
  have letters : name.toList ≠ [] := by simpa using named
  change name.toList <:+: [] ++ '/' :: (Text.joined "/" parts).toList ↔ _
  rw [Text.infix_append_cons_iff letters bare, Path.toList_joined, Path.shown,
    Text.infix_intercalate_iff letters bare]
  simp [letters]

end Parts

/-- **A fragment is matched with whole components.** Between slashes it is the name of a directory
on the way to the last component, at the top as well as deeper. Without them it stands in a single
component. -/
theorem isExcepted_components_iff {parts : List String} (some : parts ≠ [])
    (whole : ∀ part ∈ parts, '/' ∉ part.toList) {name : String} (named : name ≠ "")
    (bare : '/' ∉ name.toList) :
    (isExcepted (Text.joined "/" parts) ["/" ++ name ++ "/"] = true ↔ name ∈ parts.dropLast) ∧
      (isExcepted (Text.joined "/" parts) [name] = true ↔
        ∃ part ∈ parts, name.toList <:+: part.toList) := by
  simp only [isExcepted_iff, List.mem_singleton, exists_eq_left]
  exact ⟨directory_infix_iff bare some whole, name_infix_iff bare named⟩

/-- At the top a directory is excepted. A file is not, nor is a directory with a longer name. -/
theorem isExcepted_components_iff_external :
    (∀ part ∈ ["src", "externals", "external"], '/' ∉ part.toList) ∧
      (∀ part ∈ ["external", "lib", "a.h"], '/' ∉ part.toList) ∧
      isExcepted "external/lib/a.h" ["/external/"] = true ∧
      isExcepted "src/externals/external" ["/external/"] = false ∧
      isExcepted "src/externals/external" ["external"] = true := by
  have whole : ∀ part ∈ ["src", "externals", "external"], '/' ∉ part.toList := by decide
  have wholeToo : ∀ part ∈ ["external", "lib", "a.h"], '/' ∉ part.toList := by decide
  have named : "external" ≠ "" := by decide
  have bare : '/' ∉ "external".toList := by decide
  have top := isExcepted_components_iff (List.cons_ne_nil _ _) wholeToo named bare
  have other := isExcepted_components_iff (List.cons_ne_nil _ _) whole named bare
  refine ⟨whole, wholeToo, top.1.mpr (by decide), ?_, other.2.mpr ?_⟩
  · rw [← Bool.not_eq_true]
    exact other.1.not.mpr (by decide)
  · exact ⟨"external", by decide, List.infix_refl _⟩

end BuildWarden.Guideline
