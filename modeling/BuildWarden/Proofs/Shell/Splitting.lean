import BuildWarden.Proofs.Shell.Reading
import BuildWarden.Shell.Expansion
import Mathlib.Data.List.Forall2
/-!
# Lines without parameters and patterns

Words in which nothing is put in and nothing is a pattern become one text each, in whatever state a
line of them is run.
-/

namespace BuildWarden.Shell

/-- A piece that stands for itself. -/
def Piece.Fixed : Piece → Prop
  | .bare c => c ∉ ['*', '?', '[']
  | .quoted _ => True
  | .parameter .. | .script .. | .formula .. => False

/-- What a piece that stands for itself adds to a field. -/
def Piece.field : Piece → Field
  | .bare c => [(c, false)]
  | .quoted text => text.toList.map fun c => (c, true)
  | .parameter .. | .script .. | .formula .. => []

/-- What a piece that stands for itself is expanded to. -/
def Piece.glyphs : Piece → List Glyph
  | .bare c => [.char c false]
  | .quoted text => .mark :: Shell.glyphs true text
  | .parameter .. | .script .. | .formula .. => []

/-- The text of a word that stands for itself. -/
def textOf (word : Word) : String :=
  Field.text (word.flatMap Piece.field)

section Expansion
variable {capture : Capture} {state : State} {word : Word} {piece : Piece} {fuel : Nat}

private theorem expandPiece_fixed (fixed : piece.Fixed) :
    expandPiece capture (fuel + 1) piece state = .ok (piece.glyphs, state) := by
  cases piece with
  | bare c => rw [expandPiece, Piece.glyphs]
  | quoted text => rw [expandPiece, Piece.glyphs]
  | parameter | script | formula => cases fixed

private theorem expandPieces_fixed (fixed : ∀ piece ∈ word, piece.Fixed)
    (enough : word.length < fuel) :
    expandPieces capture fuel word state = .ok (word.flatMap Piece.glyphs, state) := by
  induction word generalizing fuel with
  | nil =>
      obtain ⟨fuel, rfl⟩ := Nat.exists_eq_add_of_lt enough
      rw [expandPieces]
      rfl
  | cons piece word ih =>
      obtain ⟨first, fixed⟩ := List.forall_mem_cons.mp fixed
      rw [List.length_cons] at enough
      obtain ⟨deeper, rfl⟩ : ∃ deeper, fuel = deeper + 2 := ⟨fuel - 2, by omega⟩
      rw [expandPieces, expandPiece_fixed first]
      simp only [bind, Except.bind, ih fixed (Nat.lt_of_succ_lt_succ enough)]
      rfl

private theorem any_fixed (fixed : ∀ piece ∈ word, piece.Fixed) {holds : Piece → Bool}
    (absent : ∀ piece : Piece, piece.Fixed → holds piece = false) : word.any holds = false := by
  rw [List.any_eq_false]
  intro piece member
  rw [absent piece (fixed piece member)]
  exact Bool.false_ne_true

private theorem expandWord_fixed (fixed : ∀ piece ∈ word, piece.Fixed) :
    expandWord capture word state = .ok (word.flatMap Piece.glyphs, state) := by
  have enough : word.length < deepest + word.length := Nat.lt_add_of_pos_left (by decide)
  rw [expandWord, expandPieces_fixed fixed enough]
  simp only [bind, Except.bind]
  rw [any_fixed fixed, Bool.and_false]
  · rfl
  · intro piece kind
    cases piece with
    | parameter => cases kind
    | bare | quoted | script | formula => rfl

/-! ### Fields -/

private theorem splitFields_quoted (separates : Char → Bool) (current : Field) (text : List Char)
    (rest : List Glyph) :
    splitFields separates (some current) (text.map (Glyph.char · true) ++ rest) =
      splitFields separates (some ((text.map fun c => (c, true)).reverse ++ current)) rest := by
  induction text generalizing current with
  | nil => rfl
  | cons c text ih =>
      rw [List.map_cons, List.cons_append, splitFields, Option.getD_some, ih, List.map_cons,
        List.reverse_cons, List.append_assoc, List.singleton_append]

private theorem splitFields_piece (separates : Char → Bool) (current : Option Field)
    (fixed : piece.Fixed)
    (rest : List Glyph) :
    splitFields separates current (piece.glyphs ++ rest) =
      splitFields separates (some (piece.field.reverse ++ current.getD [])) rest := by
  cases piece with
  | bare c => rfl
  | quoted text => exact splitFields_quoted separates _ text.toList rest
  | parameter | script | formula => cases fixed

private theorem splitFields_word (separates : Char → Bool) (current : Option Field)
    (some : word ≠ [])
    (fixed : ∀ piece ∈ word, piece.Fixed) :
    splitFields separates current (word.flatMap Piece.glyphs) =
      [(current.getD []).reverse ++ word.flatMap Piece.field] := by
  induction word generalizing current with
  | nil => exact absurd rfl some
  | cons piece word ih =>
      obtain ⟨first, fixed⟩ := List.forall_mem_cons.mp fixed
      rw [List.flatMap_cons, splitFields_piece separates current first, List.flatMap_cons]
      by_cases last : word = []
      · simp [last, splitFields]
      · simp [ih _ last fixed]

private theorem isPattern_fixed (fixed : ∀ piece ∈ word, piece.Fixed) :
    Field.isPattern (word.flatMap Piece.field) = false := by
  rw [Field.isPattern, List.any_eq_false]
  intro letter member
  obtain ⟨piece, inside, part⟩ := List.mem_flatMap.mp member
  have kind := fixed piece inside
  cases piece with
  | bare c =>
      obtain rfl := List.mem_singleton.mp part
      simpa [Piece.Fixed] using kind
  | quoted text =>
      obtain ⟨c, -, rfl⟩ := List.mem_map.mp part
      exact Bool.false_ne_true
  | parameter | script | formula => cases kind

/-- **Fixed words become one text each**, and nothing happens. -/
theorem expandFields_fixed {words : List Word}
    (fixed : ∀ word ∈ words, word ≠ [] ∧ ∀ piece ∈ word, piece.Fixed) :
    expandFields capture words state = .ok (words.map textOf, state) := by
  induction words with
  | nil => rfl
  | cons word words ih =>
      obtain ⟨⟨some, first⟩, fixed⟩ := List.forall_mem_cons.mp fixed
      rw [expandFields, expandWord_fixed first]
      simp only [bind, Except.bind, splitFields_word _ none some first, ih fixed,
        Option.getD_none, List.reverse_nil, List.nil_append, List.flatMap_singleton, Field.texts,
        isPattern_fixed first]
      rfl

/-- A word in front is expanded on its own. -/
theorem expandFields_cons {words : List Word} {texts more : List String} {between after : State}
    (first : expandFields capture [word] state = .ok (texts, between))
    (others : expandFields capture words between = .ok (more, after)) :
    expandFields capture (word :: words) state = .ok (texts ++ more, after) := by
  rw [expandFields] at first ⊢
  cases expanded : expandWord capture word state with
  | error message => simp [expanded, bind, Except.bind] at first
  | ok found =>
      simp only [expanded, expandFields, bind, Except.bind, pure, Except.pure, List.append_nil,
        Except.ok.injEq, Prod.mk.injEq] at first
      obtain ⟨rfl, rfl⟩ := first
      simp only [bind, Except.bind, others]
      rfl

private theorem Written.fixed {source : List Char} (written : Written source word) :
    ∀ piece ∈ word, piece.Fixed := by
  induction written with
  | nothing => exact List.forall_mem_nil _
  | bare plain behind ih =>
      have among : ['*', '?', '['] ⊆ signs := by decide
      refine List.forall_mem_cons.mpr ⟨fun pattern => ?_, ih⟩
      exact (isPlain_iff.mp plain).2 (among pattern)
  | quoted inert behind ih =>
      refine List.forall_mem_append.mpr ⟨List.forall_mem_cons.mpr ⟨trivial, ?_⟩, ih⟩
      intro piece member
      obtain ⟨c, -, rfl⟩ := List.mem_map.mp member
      trivial

private theorem Written.ne_nil {source : List Char} (written : Written source word)
    (some : source ≠ []) : word ≠ [] := by
  cases written with
  | nothing => exact absurd rfl some
  | bare | quoted => exact List.cons_ne_nil _ _

end Expansion

/-! ### Lines -/

/-- The shell splits a line into the texts, in whatever state it runs the line. -/
def Splits (line : String) (texts : List String) : Prop :=
  ∃ words, (tokens (line.length + 1) 1 line.toList).map Prod.snd = words.map Token.word ∧
    ∀ capture state, expandFields capture words state = .ok (texts, state)

/-- The shell takes what is written in front of a blank for one word, whatever follows, and the word
becomes the text. -/
def IsOneWord (written text : String) : Prop :=
  ∃ word,
    (∀ rest more, ReadsAs (' ' :: rest) more →
      ReadsAs (written.toList ++ ' ' :: rest) (word :: more)) ∧
    ∀ capture state, expandFields capture [word] state = .ok ([text], state)

section Lines
variable {line written text : String} {texts others : List String}

/-- A line is split in one way. -/
theorem Splits.unique (splits : Splits line texts) (again : Splits line others) :
    texts = others := by
  obtain ⟨words, read, expanded⟩ := splits
  obtain ⟨words', read', expanded'⟩ := again
  have same : words = words' := by
    have words := read.symm.trans read'
    exact (List.map_injective_iff.mpr fun _ _ => Token.word.inj) words
  subst same
  let state : State := { disk := { tree := .empty } }
  let capture : Capture := fun _ state => ("", state)
  have both := (expanded capture state).symm.trans (expanded' capture state)
  exact congrArg Prod.fst (Except.ok.inj both)

private theorem textOf_append (word more : Word) : textOf
    (word ++ more) = textOf word ++ textOf more := by
  simp [textOf, Field.text, List.flatMap_append]

private theorem textOf_plain (source : List Char) :
    textOf (source.map Piece.bare) = String.ofList source := by
  simp [textOf, Field.text, Piece.field, List.flatMap_map, List.map_flatMap]

private theorem textOf_quoted (inside : List Char) :
    textOf (.quoted "" :: inside.map fun c => Piece.quoted c.toString) = String.ofList inside := by
  simp [textOf, Field.text, Piece.field, List.flatMap_map, List.map_flatMap, Char.toString]

private theorem Written.isOneWord {word : Word} (writes : Written written.toList word)
    (some : written ≠ "") : IsOneWord written (textOf word) := by
  have filled : written.toList ≠ [] := by simpa using some
  refine ⟨word, fun rest more reads => writes.lexes filled _ _ (.inr ⟨rest, rfl⟩) reads, ?_⟩
  intro capture state
  exact expandFields_fixed (List.forall_mem_singleton.mpr ⟨writes.ne_nil filled, writes.fixed⟩)

/-- A plain text is one word, namely itself. -/
theorem isOneWord_plain (some : text ≠ "") (plain : Plain text) :
    IsOneWord text text := by
  have word := (written_plain plain).isOneWord some
  rwa [textOf_plain, String.ofList_toList] at word

end Lines

/-! ### Parts of a line -/

/-- The texts between the blanks of a text. -/
def blankWords (text : String) : List String :=
  (filledPieces text.toList).map String.ofList

/-- A part of a line is read on its own, and becomes the texts. -/
def HandsOver (part : String) (texts : List String) : Prop :=
  ∃ words, Lexes part.toList words ∧ (∀ word ∈ words, word ≠ [] ∧ ∀ piece ∈ word, piece.Fixed) ∧
    words.map textOf = texts

section Parts
variable {front inside part written text : String}

private theorem mem_of_mem_filledPieces {value piece : List Char}
    (filled : piece ∈ filledPieces value) :
    piece ≠ [] ∧ ∀ c ∈ piece, c ∈ value ∧ c ≠ ' ' := by
  obtain ⟨cut, some⟩ := List.mem_filter.mp filled
  refine ⟨of_decide_eq_true some, fun c member => ?_⟩
  have other : c ≠ ' ' := fun same => Text.not_mem_of_mem_splitOn cut (same ▸ member)
  have inside : c ∈ value ++ [' '] := by
    rw [← Text.flatMap_splitOn]
    exact List.mem_flatMap.mpr ⟨piece, cut, List.mem_append_left _ member⟩
  rcases List.mem_append.mp inside with inside | blank
  · exact ⟨inside, other⟩
  · exact absurd (List.mem_singleton.mp blank) other

/-- A value without quotes becomes a text between each two of its blanks. -/
theorem handsOver_unquoted (plain : Unquoted part) : HandsOver part (blankWords part) := by
  refine ⟨_, lexes_value plain, fun word member => ?_, ?_⟩
  · obtain ⟨piece, filled, rfl⟩ := List.mem_map.mp member
    obtain ⟨some, inside⟩ := mem_of_mem_filledPieces filled
    have plain : ∀ c ∈ piece, isPlain c = true := fun c member =>
      (plain c (inside c member).1).resolve_right (inside c member).2
    exact ⟨(written_plain plain).ne_nil some, (written_plain plain).fixed⟩
  · rw [List.map_map, blankWords]
    exact List.map_congr_left fun piece _ => textOf_plain piece

/-- A quoted value becomes one text, its blanks included. -/
theorem handsOver_quoted (plain : Plain front) (inert : Inert inside) :
    HandsOver (front ++ ("\"" ++ inside ++ "\"")) [front ++ inside] := by
  have source : (front ++ ("\"" ++ inside ++ "\"")).toList =
      front.toList ++ '"' :: (inside.toList ++ ['"']) := by
    simp [String.toList_append]
  have written := (Written.quoted inert .nothing).plain_append plain
  rw [List.append_nil] at written
  have some : front.toList ++ '"' :: (inside.toList ++ ['"']) ≠ [] :=
    List.append_ne_nil_of_right_ne_nil _ (List.cons_ne_nil _ _)
  rw [HandsOver, source]
  refine ⟨_, written.lexes some, List.forall_mem_singleton.mpr ⟨written.ne_nil some, written.fixed⟩,
    ?_⟩
  rw [List.map_singleton, textOf_append, textOf_plain, textOf_quoted, String.ofList_toList,
    String.ofList_toList]

private theorem exists_words {parts : List String} {texts : List (List String)}
    (hands : List.Forall₂ HandsOver parts texts) :
    ∃ words : List (List Word), List.Forall₂ Lexes (parts.map String.toList) words ∧
      (∀ word ∈ words.flatten, word ≠ [] ∧ ∀ piece ∈ word, piece.Fixed) ∧
      words.flatten.map textOf = texts.flatten := by
  induction hands with
  | nil => exact ⟨[], .nil, List.forall_mem_nil _, rfl⟩
  | cons first _ ih =>
      obtain ⟨word, lexes, fixed, rfl⟩ := first
      obtain ⟨words, others, fixedOthers, same⟩ := ih
      refine ⟨word :: words, .cons lexes others, ?_, ?_⟩
      · rw [List.flatten_cons]
        exact List.forall_mem_append.mpr ⟨fixed, fixedOthers⟩
      · rw [List.flatten_cons, List.map_append, same, List.flatten_cons]

/-- **A line of parts** is split into what each of them hands over, behind the tool. -/
theorem IsOneWord.splits (tool : IsOneWord written text) {parts : List String}
    {texts : List (List String)} (some : parts ≠ [])
    (hands : List.Forall₂ HandsOver parts texts) :
    Splits (Text.joined " " (written :: parts)) (text :: texts.flatten) := by
  obtain ⟨word, read, expanded⟩ := tool
  obtain ⟨words, lexes, fixed, same⟩ := exists_words hands
  have whole : (Text.joined " " (written :: parts)).toList =
      written.toList ++ ' ' :: [' '].intercalate (parts.map String.toList) := by
    obtain ⟨next, others, rfl⟩ := List.exists_cons_of_ne_nil some
    have blank : " ".toList = [' '] := by decide
    rw [Text.joined, String.toList_intercalate, blank, List.map_cons, List.map_cons,
      List.intercalate_cons_cons, List.append_assoc, List.singleton_append]
  refine ⟨word :: words.flatten, ?_, fun capture state => ?_⟩
  · rw [whole]
    refine read _ _ (lexes_joined lexes).readsAs.blank _ _ ?_
    rw [← whole, String.length_toList]
    exact Nat.lt_succ_self _
  · rw [← same]
    exact expandFields_cons (expanded capture state) (expandFields_fixed fixed)

/-- **A line with one quoted value**: the value stays whole, whatever blanks it has, and all the
other parts fall apart at theirs. -/
theorem IsOneWord.splits_quoted (tool : IsOneWord written text) {before behind : List String}
    (unquotedBefore : ∀ part ∈ before, Unquoted part) (plain : Plain front) (inert : Inert inside)
    (unquotedBehind : ∀ part ∈ behind, Unquoted part) :
    Splits
      (Text.joined " " (written :: (before ++ (front ++ ("\"" ++ inside ++ "\"")) :: behind)))
      (text :: (before.flatMap blankWords ++ (front ++ inside) :: behind.flatMap blankWords)) := by
  have hands {parts : List String} (unquoted : ∀ part ∈ parts, Unquoted part) :
      List.Forall₂ HandsOver parts (parts.map blankWords) :=
    List.forall₂_map_right_iff.mpr (List.forall₂_same.mpr fun part member =>
      handsOver_unquoted (unquoted part member))
  have all := List.rel_append (hands unquotedBefore)
    (.cons (handsOver_quoted plain inert) (hands unquotedBehind))
  have some : before ++ (front ++ ("\"" ++ inside ++ "\"")) :: behind ≠ [] :=
    List.append_ne_nil_of_right_ne_nil _ (List.cons_ne_nil _ _)
  have splits := tool.splits some all
  rwa [List.flatten_append, List.flatten_cons, ← List.flatMap_def, ← List.flatMap_def,
    List.singleton_append] at splits

private theorem blankWords_of_whole (some : part ≠ "") (whole : ' ' ∉ part.toList) :
    blankWords part = [part] := by
  have kept : [part.toList].filter (· ≠ []) = [part.toList] := by simp [some]
  rw [blankWords, filledPieces, List.splitOn_eq_singleton whole, kept, List.map_singleton,
    String.ofList_toList]

/-- Parts stay as they are exactly if none of them has a blank. -/
theorem flatMap_blankWords_eq_self_iff {parts : List String} (some : ∀ part ∈ parts, part ≠ "") :
    parts.flatMap blankWords = parts ↔ ∀ part ∈ parts, ' ' ∉ part.toList := by
  constructor
  · intro same part member blank
    rw [← same] at member
    obtain ⟨origin, -, word⟩ := List.mem_flatMap.mp member
    obtain ⟨piece, filled, rfl⟩ := List.mem_map.mp word
    rw [String.toList_ofList] at blank
    exact ((mem_of_mem_filledPieces filled).2 ' ' blank).2 rfl
  · intro whole
    have alone : ∀ part ∈ parts, blankWords part = [part] := fun part member =>
      blankWords_of_whole (some part member) (whole part member)
    rw [List.flatMap_congr alone, List.flatMap_singleton']

end Parts
end BuildWarden.Shell
