import BuildWarden.Build.ModuleSet
import BuildWarden.Proofs.Text.Search
import BuildWarden.Proofs.Text.UpperCase
import Mathlib.Data.String.Basic
/-!
# Canonical module sets

A set that was read holds canonical names in increasing order. So it can be written and read back,
which gives the same set.
-/

namespace BuildWarden.ModuleSet

/-! ### Names in order -/

section Insert
variable {name other : String} {names : List String}

private theorem mem_insertName : other ∈ insertName name names ↔ other = name ∨ other ∈ names := by
  induction names with
  | nil => simp [insertName]
  | cons first rest ih =>
      unfold insertName
      split
      · simp
      split
      next same => simp [same]
      next =>
        rw [List.mem_cons, ih, List.mem_cons]
        exact or_left_comm

/-- Inserting a name keeps names in increasing order. -/
theorem pairwise_insertName (name : String) (increasing : names.Pairwise (· < ·)) :
    (insertName name names).Pairwise (· < ·) := by
  induction names with
  | nil => simp [insertName]
  | cons first rest ih =>
      obtain ⟨least, increasing⟩ := List.pairwise_cons.mp increasing
      unfold insertName
      split
      next before =>
        refine .cons (fun later member => ?_) (.cons least increasing)
        rcases List.mem_cons.mp member with rfl | member
        · exact before
        · exact before.trans (least later member)
      split
      next => exact .cons least increasing
      next notBefore notSame =>
        refine .cons (fun later member => ?_) (ih increasing)
        rcases mem_insertName.mp member with rfl | member
        · exact lt_of_le_of_ne (not_lt.mp notBefore) (Ne.symm notSame)
        · exact least later member

/-- A name behind all others is put at the end. -/
theorem insertName_of_greatest (greatest : ∀ first ∈ names, first < name) :
    insertName name names = names ++ [name] := by
  induction names with
  | nil => rfl
  | cons first rest ih =>
      obtain ⟨before, greatest⟩ := List.forall_mem_cons.mp greatest
      rw [insertName, if_neg before.asymm, if_neg before.ne', ih greatest, List.cons_append]

end Insert

section OfNames
variable {names : List String} {name : String}

/-- What the names are put into stays in order, and holds what it held and the names. -/
theorem foldl_insertName (names front : List String) (increasing : front.Pairwise (· < ·)) :
    (names.foldl (fun set name => insertName name set) front).Pairwise (· < ·) ∧
      ∀ name, name ∈ names.foldl (fun set name => insertName name set) front ↔
        name ∈ front ∨ name ∈ names := by
  induction names generalizing front with
  | nil => exact ⟨increasing, fun name => by simp⟩
  | cons first rest ih =>
      obtain ⟨ordered, members⟩ := ih _ (pairwise_insertName first increasing)
      refine ⟨ordered, fun name => ?_⟩
      rw [List.foldl_cons, members, mem_insertName, List.mem_cons, or_assoc, or_left_comm]

/-- The names of a set increase. -/
theorem pairwise_ofNames (names : List String) : (ofNames names).names.Pairwise (· < ·) :=
  (foldl_insertName names [] .nil).1

/-- A set holds the names that it is made of. -/
theorem mem_ofNames : name ∈ (ofNames names).names ↔ name ∈ names := by
  have members := (foldl_insertName names [] .nil).2 name
  simpa [ofNames] using members

/-- Names in increasing order are kept as they are. -/
theorem names_ofNames (increasing : names.Pairwise (· < ·)) : (ofNames names).names = names := by
  suffices further : ∀ front : List String, (front ++ names).Pairwise (· < ·) →
      names.foldl (fun set name => insertName name set) front = front ++ names from
    further [] increasing
  clear increasing
  induction names with
  | nil => simp
  | cons first rest ih =>
      intro front increasing
      have greatest : ∀ other ∈ front, other < first := fun other member =>
        (List.pairwise_append.mp increasing).2.2 other member first List.mem_cons_self
      rw [List.foldl_cons, insertName_of_greatest greatest, ih (front ++ [first])]
      · rw [List.append_cons front first rest]
      · rwa [← List.append_cons front first rest]

end OfNames

/-! ### Canonical names -/

/-- A text that is listed as it is: it is not blank nor has it blanks around it, and no separator
is inside. -/
structure IsToken (name : String) : Prop where
  kept : Text.nonBlank? name = some name
  whole : '+' ∉ name.toList

private theorem toLower_wide {c : Char} (wide : 0x80 ≤ c.toNat) : c.toLower = c := by
  refine dif_neg ?_
  rintro ⟨-, high⟩
  have below : c.toNat ≤ 'Z'.toNat := UInt32.le_iff_toNat_le.mp high
  exact absurd (wide.trans below) (by decide)

private theorem umbrella_letters : umbrella.toList.map Char.toLower = ['a', 'g', 'r', 'u', 'm'] :=
  rfl

/-- A letter beyond ASCII is none of the umbrella's letters, and does not become one. -/
theorem exists_other_letter {c : Char} (wide : 0x80 ≤ c.toNat) :
    c.toLower ∉ umbrella.toList.map Char.toLower ∧
      ∃ u ∈ Text.upperChar c, u.toLower ∉ umbrella.toList.map Char.toLower := by
  rw [umbrella_letters]
  have outside : c.toLower ∉ ['a', 'g', 'r', 'u', 'm'] := by
    intro member
    have small : ∀ letter ∈ ['a', 'g', 'r', 'u', 'm'], letter.toNat < 0x80 := by simp
    have below := small _ member
    rw [toLower_wide wide] at below
    omega
  refine ⟨outside, ?_⟩
  rcases Text.upperChar_wide wide with same | ⟨image, known, moved⟩
  · exact ⟨c, by simp [same], outside⟩
  · have others : ∀ image ∈ Text.images, ∃ point ∈ image,
        (Char.ofNat point).toLower ∉ ['a', 'g', 'r', 'u', 'm'] := by decide +kernel
    obtain ⟨point, inside, other⟩ := others image known
    exact ⟨Char.ofNat point, moved ▸ List.mem_map_of_mem inside, other⟩

private theorem toLower_upperCase {text : String} (small : ∀ c ∈ text.toList, c.toNat < 0x80) :
    (Text.upperCase text).toList.map Char.toLower = text.toList.map Char.toLower := by
  unfold Text.upperCase
  rw [String.toList_ofList, List.map_flatMap, List.map_eq_flatMap]
  refine List.flatMap_congr fun c member => ?_
  have ascii := small c member
  rw [Text.upperChar_ascii ascii, List.map_singleton]
  exact Text.forall_ascii (fun c => [c.toUpper.toLower] = [c.toLower]) (by decide) ascii

/-- **A text in upper case is an alias of the umbrella** if and only if the text is one. -/
theorem sameIgnoringCase_upperCase (text : String) :
    Text.sameIgnoringCase (Text.upperCase text) umbrella = Text.sameIgnoringCase text umbrella := by
  unfold Text.sameIgnoringCase
  by_cases small : ∀ c ∈ text.toList, c.toNat < 0x80
  · rw [toLower_upperCase small]
  -- with a letter beyond ASCII neither is one
  · push Not at small
    obtain ⟨c, member, wide⟩ := small
    obtain ⟨outside, u, inside, other⟩ := exists_other_letter wide
    have differs : (text.toList.map Char.toLower == umbrella.toList.map Char.toLower) = false := by
      rw [beq_eq_false_iff_ne]
      exact fun same => outside (same ▸ List.mem_map_of_mem member)
    have differsToo : ((Text.upperCase text).toList.map Char.toLower ==
        umbrella.toList.map Char.toLower) = false := by
      rw [beq_eq_false_iff_ne]
      refine fun same => other (same ▸ List.mem_map_of_mem ?_)
      unfold Text.upperCase
      rw [String.toList_ofList]
      exact List.mem_flatMap.mpr ⟨c, member, inside⟩
    rw [differs, differsToo]

/-- The name that a token stands for is a token, and stands for itself. -/
theorem IsToken.canonicalName {token : String} (listed : IsToken token) :
    IsToken (canonicalName token) ∧
      ModuleSet.canonicalName (ModuleSet.canonicalName token) = ModuleSet.canonicalName token := by
  obtain ⟨trimmed, some⟩ := Text.nonBlank?_eq_some.mp listed.kept
  by_cases spelled : Text.sameIgnoringCase token umbrella = true
  · have named : ModuleSet.canonicalName token = umbrella := if_pos spelled
    rw [named]
    exact ⟨⟨by decide, by decide⟩, if_pos (by decide)⟩
  · have named : ModuleSet.canonicalName token = Text.upperCase token := if_neg spelled
    rw [named]
    refine ⟨⟨?_, Text.plus_not_mem_upperCase listed.whole⟩, ?_⟩
    · exact Text.nonBlank?_eq_some.mpr ⟨Text.trim_upperCase trimmed, Text.upperCase_ne_empty some⟩
    · unfold ModuleSet.canonicalName
      rw [sameIgnoringCase_upperCase, if_neg spelled, Text.upperCase_upperCase]

/-! ### Sets as text -/

private theorem isToken_of_mem_tokens {text token : String} (listed : token ∈ tokens text) :
    IsToken token := by
  obtain ⟨piece, cut, left⟩ := List.mem_filterMap.mp listed
  refine ⟨Text.nonBlank?_nonBlank? left, fun plus => ?_⟩
  obtain ⟨rfl, -⟩ := Text.nonBlank?_eq_some.mp left
  rw [Text.trim, String.toList_ofList, String.toList_ofList] at plus
  exact Text.not_mem_of_mem_splitOn cut (Text.mem_of_mem_trimChars plus)

/-- A set of canonical names in increasing order. -/
structure Canonical (set : ModuleSet) : Prop where
  increasing : set.names.Pairwise (· < ·)
  listed : ∀ name ∈ set.names, IsToken name
  fixed : ∀ name ∈ set.names, canonicalName name = name

/-- What is read from a text is canonical. -/
theorem canonical_parse (text : String) : (parse text).Canonical := by
  have known : ∀ name ∈ (parse text).names,
      ∃ token, IsToken token ∧ canonicalName token = name := by
    intro name member
    obtain ⟨token, listed, named⟩ := List.mem_map.mp (mem_ofNames.mp member)
    exact ⟨token, isToken_of_mem_tokens listed, named⟩
  refine ⟨pairwise_ofNames _, fun name member => ?_, fun name member => ?_⟩
  · obtain ⟨token, listed, rfl⟩ := known name member
    exact listed.canonicalName.1
  · obtain ⟨token, listed, rfl⟩ := known name member
    exact listed.canonicalName.2

/-- Names with the separator between them are listed as they are. -/
theorem tokens_joined {names : List String} (listed : ∀ name ∈ names, IsToken name) :
    tokens (Text.joined "+" names) = names := by
  by_cases none : names = []
  · rw [none]
    decide
  · have split : List.splitOn '+' (Text.joined "+" names).toList = names.map String.toList := by
      rw [Text.joined, String.toList_intercalate]
      refine List.splitOn_intercalate _ (fun piece member => ?_) (by simpa using none)
      obtain ⟨name, inside, rfl⟩ := List.mem_map.mp member
      exact (listed name inside).whole
    rw [tokens, split, List.filterMap_map]
    refine (List.filterMap_congr fun name member => ?_).trans List.filterMap_some
    rw [Function.comp_apply, String.ofList_toList, (listed name member).kept]

/-- **A canonical set is read back** from its text. -/
theorem Canonical.parse_shown {set : ModuleSet} (canonical : set.Canonical) :
    parse set.shown = set := by
  unfold parse shown
  rw [tokens_joined canonical.listed, List.map_congr_left canonical.fixed, List.map_id']
  exact congrArg ModuleSet.mk (names_ofNames canonical.increasing)

end BuildWarden.ModuleSet
