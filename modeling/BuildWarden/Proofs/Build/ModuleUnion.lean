import BuildWarden.Proofs.Build.ModuleSet
import BuildWarden.Proofs.Text.ByteOrder
import Mathlib.Data.Finset.Dedup
import Mathlib.Data.Finset.Lattice.Basic
import Mathlib.Data.List.Sort
/-!
# Modules of several texts

Texts with the separator between them name the modules of each of them. What a set holds depends on
which tokens there are, not on their order and number, and its names stand in the order of their
bytes.
-/

namespace BuildWarden.ModuleSet

section Tokens
variable {text : String}

private theorem tokens_append (front back : String) :
    tokens (front ++ "+" ++ back) = tokens front ++ tokens back := by
  have letters : (front ++ "+" ++ back).toList = front.toList ++ '+' :: back.toList := by
    simp [String.toList_append]
  rw [tokens, letters, List.splitOn_append_cons_self, List.filterMap_append, ← tokens, ← tokens]

private theorem tokens_joined_eq (parts : List String) :
    tokens (Text.joined "+" parts) = parts.flatMap tokens := by
  by_cases none : parts = []
  · rw [none]
    decide
  · have plus : "+".toList = ['+'] := by decide
    rw [tokens, Text.joined, String.toList_intercalate, plus,
      Text.splitOn_intercalate_eq (by simpa using none), List.flatMap_map, List.filterMap_flatMap]
    rfl

/-- A blank text has no tokens. -/
theorem tokens_blank (blank : Text.trim text = "") : tokens text = [] := by
  obtain ⟨front, back, whole, blanks, blanks'⟩ := Text.exists_blanks text.toList
  have nothing : Text.trimChars text.toList = [] := by
    simpa [Text.trim] using congrArg String.toList blank
  have plain : '+' ∉ text.toList := by
    rw [whole, nothing, List.append_nil, List.mem_append, not_or]
    exact ⟨fun plus => absurd (blanks _ plus) (by decide),
      fun plus => absurd (blanks' _ plus) (by decide)⟩
  rw [tokens, List.splitOn_eq_singleton plain, List.filterMap_cons, String.ofList_toList,
    Text.nonBlank?_eq_none.mpr blank]
  rfl

end Tokens

section Parse
variable {text other name : String}

private theorem mem_parse :
    name ∈ (parse text).names ↔ ∃ token ∈ tokens text, canonicalName token = name := by
  rw [parse, mem_ofNames, List.mem_map]

/-- Sets with their names in order are the same if they hold the same names. -/
theorem parse_eq_of_mem (same : ∀ token, token ∈ tokens text ↔ token ∈ tokens other) :
    parse text = parse other := by
  have members (name : String) : name ∈ (parse text).names ↔ name ∈ (parse other).names := by
    simp only [mem_parse, same]
  exact congrArg ModuleSet.mk
    (List.Pairwise.eq_of_mem_iff (pairwise_ofNames _) (pairwise_ofNames _) members)

/-- What several parts name depends on which parts there are that are not blank. -/
theorem parse_joined_eq {parts others : List String}
    (same : ∀ part, Text.trim part ≠ "" → (part ∈ parts ↔ part ∈ others)) :
    parse (Text.joined "+" parts) = parse (Text.joined "+" others) := by
  refine parse_eq_of_mem fun token => ?_
  have kept {part : String} (listed : token ∈ tokens part) : Text.trim part ≠ "" := by
    intro blank
    rw [tokens_blank blank] at listed
    cases listed
  simp only [tokens_joined_eq, List.mem_flatMap]
  constructor
  · rintro ⟨part, member, listed⟩
    exact ⟨part, (same part (kept listed)).mp member, listed⟩
  · rintro ⟨part, member, listed⟩
    exact ⟨part, (same part (kept listed)).mpr member, listed⟩

/-- A name in another spelling of the umbrella's is none of a set that was read. -/
theorem eq_umbrella_of_mem (member : name ∈ (parse text).names)
    (spelled : Text.sameIgnoringCase name umbrella = true) : name = umbrella := by
  have fixed := (canonical_parse text).fixed name member
  rwa [canonicalName, if_pos spelled, eq_comm] at fixed

/-- **Reading module sets turns joined texts into unions**, whatever the order and the number of the
tokens is. The names of a set are in the order of their bytes, the umbrella is spelled in one way,
and the set is read back from its text. -/
theorem parse_union (a b : String) :
    (parse (a ++ "+" ++ b)).names.toFinset = (parse a).names.toFinset ∪ (parse b).names.toFinset ∧
      (∀ parts others : List String,
        (∀ part, Text.trim part ≠ "" → (part ∈ parts ↔ part ∈ others)) →
          parse (Text.joined "+" parts) = parse (Text.joined "+" others)) ∧
      (parse a).names.Pairwise
        (fun name later => Text.Utf8.encode name < Text.Utf8.encode later) ∧
      (∀ name ∈ (parse a).names,
        Text.sameIgnoringCase name umbrella = true → name = umbrella) ∧
      parse (Text.joined "+" (parse a).names) = parse a := by
  refine ⟨?_, fun _ _ => parse_joined_eq, (pairwise_ofNames _).imp Text.Utf8.encode_lt,
    fun _ => eq_umbrella_of_mem, (canonical_parse a).parse_shown⟩
  ext name
  simp only [List.mem_toFinset, Finset.mem_union, mem_parse, tokens_append, List.mem_append,
    or_and_right, exists_or]

/-- Three spellings of two modules name the two. -/
theorem parse_union_respelled :
    (parse ("lrn + " ++ "+" ++ "AGRUM+LRN")).names = ["LRN", "aGrUM"] ∧
      (parse ("lrn + " ++ "+" ++ "AGRUM+LRN")).names.toFinset =
        (parse "lrn + ").names.toFinset ∪ (parse "AGRUM+LRN").names.toFinset ∧
      parse (Text.joined "+" ["LRN", "", "AGRUM", "LRN"]) =
        parse (Text.joined "+" [" ", "AGRUM", "LRN"]) := by
  have same (part : String) (filled : Text.trim part ≠ "") :
      part ∈ ["LRN", "", "AGRUM", "LRN"] ↔ part ∈ [" ", "AGRUM", "LRN"] := by
    have blank : part ≠ "" ∧ part ≠ " " := by
      constructor <;> rintro rfl <;> exact filled (by decide)
    simp only [List.mem_cons, List.not_mem_nil, or_false, blank, false_or]
    grind
  obtain ⟨union, order, -⟩ := parse_union "lrn + " "AGRUM+LRN"
  exact ⟨by decide +kernel, union, order _ _ same⟩

end Parse
end BuildWarden.ModuleSet
