import BuildWarden.Shell.Script
import BuildWarden.Proofs.Text.Search
/-!
# Words as they are read

A line of words with blanks between them is read as these words: characters that mean nothing to the
shell stand for themselves, and so does a text between double quotes, its blanks included. How a
part of a line is read does not depend on what stands behind it, if a blank or nothing does.
-/

namespace BuildWarden.Shell

/-- Characters that mean something to the shell in the middle of a word, or at its start. -/
def signs : List Char :=
  ['"', '\'', '\\', '$', '\x60', '*', '?', '[', '#', '~']

/-- Characters that mean nothing to the shell. -/
def isPlain (c : Char) : Bool :=
  !endsWord c && !signs.contains c

/-- Characters that mean something between double quotes. -/
def quotedSigns : List Char :=
  ['"', '\\', '$', '\x60']

/-- Characters that mean nothing between double quotes. -/
def isInert (c : Char) : Bool :=
  !quotedSigns.contains c

/-- A text of characters that mean nothing to the shell. -/
def Plain (text : String) : Prop :=
  ∀ c ∈ text.toList, isPlain c = true

instance (text : String) : Decidable (Plain text) :=
  List.decidableBAll _ text.toList

/-- A text of characters that mean nothing between double quotes. -/
def Inert (text : String) : Prop :=
  ∀ c ∈ text.toList, isInert c = true

instance (text : String) : Decidable (Inert text) :=
  List.decidableBAll _ text.toList

/-- A text without quotes, of plain characters and blanks. -/
def Unquoted (text : String) : Prop :=
  ∀ c ∈ text.toList, isPlain c = true ∨ c = ' '

instance (text : String) : Decidable (Unquoted text) :=
  List.decidableBAll _ text.toList

/-- What stands behind a word: nothing, or a blank and whatever follows. -/
def Ends (rest : List Char) : Prop :=
  rest = [] ∨ ∃ more, rest = ' ' :: more

/-! ### Characters -/

section Characters
variable {c : Char} {rest inside : List Char} {fuel : Nat}

/-- A plain character neither ends a word nor is a sign of the shell. -/
theorem isPlain_iff : isPlain c = true ↔ endsWord c = false ∧ c ∉ signs := by
  simp [isPlain]

/-- Letters and digits mean nothing to the shell. -/
theorem isPlain_of_isAlphanum (word : c.isAlphanum = true) : isPlain c = true := by
  have others : (signs.all fun c => !c.isAlphanum) = true := by decide
  have separators : ([' ', '\t', '\n', ';', '&', '|', '<', '>', '(', ')'].all
      fun c => !c.isAlphanum) = true := by decide
  refine isPlain_iff.mpr ⟨Bool.eq_false_iff.mpr fun ends => ?_, fun sign => ?_⟩
  · have other := List.all_eq_true.mp separators c (List.contains_iff_mem.mp ends)
    rw [word] at other
    cases other
  · have other := List.all_eq_true.mp others c sign
    rw [word] at other
    cases other

private theorem readQuoted_cons (inert : isInert c = true) :
    readQuoted (fuel + 1) (c :: rest) = do
      let (pieces, rest) ← readQuoted fuel rest
      return (.quoted c.toString :: pieces, rest) := by
  have other {special : Char} (means : isInert special = false) : c ≠ special := by
    intro same
    rw [same, means] at inert
    cases inert
  have backslash : c ≠ '\\' := other (by decide)
  rw [readQuoted]
  · exact other (by decide)
  · exact fun _ same _ => backslash same
  · exact fun _ _ same _ => backslash same
  · exact other (by decide)
  · exact other (by decide)

/-- A text between double quotes is read character by character. -/
theorem readQuoted_text (inert : ∀ c ∈ inside, isInert c = true) (enough : inside.length < fuel) :
    readQuoted fuel (inside ++ '"' :: rest) =
      .ok (inside.map fun c => Piece.quoted c.toString, rest) := by
  induction inside generalizing fuel with
  | nil =>
      obtain ⟨fuel, rfl⟩ := Nat.exists_eq_add_of_lt enough
      rfl
  | cons c inside ih =>
      obtain ⟨first, inert⟩ := List.forall_mem_cons.mp inert
      cases fuel with
      | zero => cases enough
      | succ fuel =>
          rw [List.cons_append, readQuoted_cons first, ih inert (Nat.lt_of_succ_lt_succ enough)]
          rfl

private theorem readWord_cons (plain : isPlain c = true) :
    readWord (fuel + 1) (c :: rest) = do
      let (pieces, rest) ← readWord fuel rest
      return (.bare c :: pieces, rest) := by
  have other {special : Char} (means : isPlain special = false) : c ≠ special := by
    intro same
    rw [same, means] at plain
    cases plain
  have backslash : c ≠ '\\' := other (by decide)
  rw [readWord, (isPlain_iff.mp plain).1]
  · rfl
  · exact fun _ same _ => backslash same
  · exact fun _ _ same _ => backslash same
  · exact fun same _ => backslash same
  · exact other (by decide)
  · exact other (by decide)
  · exact other (by decide)
  · exact other (by decide)

private theorem readWord_ends (ends : Ends rest) : readWord (fuel + 1) rest = .ok ([], rest) := by
  obtain rfl | ⟨more, rfl⟩ := ends
  · rfl
  · rfl

end Characters

/-! ### Words -/

/-- How a word is written: plain characters, and inert ones between double quotes. -/
inductive Written : List Char → Word → Prop where
  | nothing : Written [] []
  | bare {c : Char} {source : List Char} {word : Word} (plain : isPlain c = true)
      (behind : Written source word) : Written (c :: source) (.bare c :: word)
  | quoted {inside source : List Char} {word : Word} (inert : ∀ c ∈ inside, isInert c = true)
      (behind : Written source word) :
      Written ('"' :: (inside ++ '"' :: source))
        (.quoted "" :: (inside.map fun c => Piece.quoted c.toString) ++ word)

section Words
variable {source rest : List Char} {word : Word} {fuel : Nat}

private theorem Written.readWord (written : Written source word) (ends : Ends rest)
    (enough : source.length < fuel) : readWord fuel (source ++ rest) = .ok (word, rest) := by
  induction written generalizing fuel with
  | nothing =>
      obtain ⟨fuel, rfl⟩ := Nat.exists_eq_add_of_lt enough
      exact readWord_ends ends
  | bare plain behind ih =>
      cases fuel with
      | zero => cases enough
      | succ fuel =>
          rw [List.cons_append, readWord_cons plain, ih (Nat.lt_of_succ_lt_succ enough)]
          rfl
  | @quoted inside source word inert behind ih =>
      cases fuel with
      | zero => cases enough
      | succ fuel =>
          have shorter : source.length < fuel := by
            simp only [List.length_cons, List.length_append] at enough
            omega
          have within : inside.length < (inside ++ '"' :: (source ++ rest)).length + 1 := by
            simp only [List.length_append]
            omega
          rw [List.cons_append, List.append_assoc, List.cons_append, Shell.readWord,
            readQuoted_text inert within]
          simp only [bind, Except.bind, ih shorter]
          rfl

/-- Plain characters in front of a written word belong to the word. -/
theorem Written.plain_append (written : Written source word) {front : List Char}
    (plain : ∀ c ∈ front, isPlain c = true) :
    Written (front ++ source) (front.map Piece.bare ++ word) := by
  induction front with
  | nil => exact written
  | cons c front ih =>
      obtain ⟨first, plain⟩ := List.forall_mem_cons.mp plain
      exact .bare first (ih plain)

/-- Plain characters are a word as they stand. -/
theorem written_plain (plain : ∀ c ∈ source, isPlain c = true) :
    Written source (source.map Piece.bare) := by
  have whole := Written.nothing.plain_append plain
  rwa [List.append_nil, List.append_nil] at whole

end Words

/-! ### Lines -/

/-- The text is read as the words, whatever number of steps beyond its length is allowed. -/
def ReadsAs (text : List Char) (words : List Word) : Prop :=
  ∀ fuel line, text.length < fuel → (tokens fuel line text).map Prod.snd = words.map Token.word

/-- A part of a line is read as the words, and what stands behind it on its own. -/
def Lexes (part : List Char) (words : List Word) : Prop :=
  ∀ rest more, Ends rest → ReadsAs rest more → ReadsAs (part ++ rest) (words ++ more)

section Lines
variable {source rest : List Char} {word : Word} {words : List Word}

private theorem readsAs_nil : ReadsAs [] [] := by
  intro fuel line enough
  cases fuel with
  | zero => cases enough
  | succ fuel => rfl

/-- A blank in front of words is skipped. -/
theorem ReadsAs.blank (reads : ReadsAs rest words) : ReadsAs (' ' :: rest) words := by
  intro fuel line enough
  cases fuel with
  | zero => cases enough
  | succ fuel => exact reads fuel line (Nat.lt_of_succ_lt_succ enough)

private theorem operator?_eq_none {c : Char} (inside : endsWord c = false) :
    operator? (c :: rest) = none := by
  have marked : ∀ operator ∈ operators, operator.toList.head?.any endsWord = true := by decide
  refine List.findSome?_eq_none_iff.mpr fun operator member => ?_
  have starts := marked operator member
  cases whole : operator.toList with
  | nil =>
      rw [whole] at starts
      cases starts
  | cons first others =>
      rw [whole] at starts
      have ends : endsWord first = true := starts
      have other : (first == c) = false := by
        rw [beq_eq_false_iff_ne]
        rintro rfl
        rw [inside] at ends
        cases ends
      rw [List.isPrefixOf?, other]
      rfl

/-- A word starts with a character that is neither an operator nor left out in front of words. -/
theorem tokens_word {c : Char} {behind : List Char} {fuel line : Nat} (inside : endsWord c = false)
    (kept : c ∉ ['\\', '#']) (ends : Ends rest)
    (read : readWord ((c :: behind).length + 1) (c :: behind) = .ok (word, rest)) :
    tokens (fuel + 1) line (c :: behind) =
      (line, .word word) :: tokens fuel (line + linesBetween (c :: behind) rest) rest := by
  have other {blank : Char} (ending : endsWord blank = true) : c ≠ blank := by
    intro same
    rw [same, ending] at inside
    cases inside
  rw [tokens, operator?_eq_none inside, read]
  · obtain rfl | ⟨more, rfl⟩ := ends
    · rfl
    · rfl
  · exact List.cons_ne_nil c behind
  · intro rest same
    exact other (by decide) (List.cons.inj same).1
  · intro rest same
    exact other (by decide) (List.cons.inj same).1
  · intro rest same
    obtain ⟨rfl, -⟩ := List.cons.inj same
    exact kept (by decide)
  · intro rest same
    obtain ⟨rfl, -⟩ := List.cons.inj same
    exact kept (by decide)
  · intro rest same
    exact other (by decide) (List.cons.inj same).1

private theorem Written.starts (written : Written source word) (some : source ≠ []) :
    ∃ c behind, source = c :: behind ∧ endsWord c = false ∧ c ∉ ['\\', '#'] := by
  cases written with
  | nothing => exact absurd rfl some
  | bare plain behind =>
      obtain ⟨inside, other⟩ := isPlain_iff.mp plain
      have among : ['\\', '#'] ⊆ signs := by decide
      exact ⟨_, _, rfl, inside, fun sign => other (among sign)⟩
  | quoted inert behind => exact ⟨_, _, rfl, by decide, by decide⟩

/-- **A written word is read on its own**, whatever follows behind a blank. -/
theorem Written.lexes (written : Written source word) (some : source ≠ []) :
    Lexes source [word] := by
  intro rest more ends reads fuel line enough
  have within : source.length < (source ++ rest).length + 1 := by
    rw [List.length_append]
    omega
  have read := written.readWord ends within
  obtain ⟨c, behind, rfl, inside, kept⟩ := written.starts some
  cases fuel with
  | zero => cases enough
  | succ fuel =>
      have shorter : rest.length < fuel := by
        simp only [List.length_append, List.length_cons] at enough
        omega
      rw [List.cons_append] at read ⊢
      rw [tokens_word inside kept ends read, List.map_cons, reads fuel _ shorter]
      rfl

private theorem lexes_nil : Lexes [] [] :=
  fun _ _ _ reads => reads

/-- Parts with a blank between them are read one after the other. -/
theorem Lexes.blank {part next : List Char} {words others : List Word} (first : Lexes part words)
    (second : Lexes next others) : Lexes (part ++ ' ' :: next) (words ++ others) := by
  intro rest more ends reads
  rw [List.append_assoc, List.cons_append, List.append_assoc]
  exact first _ _ (.inr ⟨_, rfl⟩) (second rest more ends reads).blank

/-- Parts with blanks between them are read as the words of the parts. -/
theorem lexes_joined {parts : List (List Char)} {words : List (List Word)}
    (lexes : List.Forall₂ Lexes parts words) :
    Lexes ([' '].intercalate parts) words.flatten := by
  induction lexes with
  | nil => exact lexes_nil
  | @cons part words parts others first others' ih =>
      cases parts with
      | nil =>
          cases others'
          simpa using first
      | cons next parts =>
          rw [List.intercalate_cons_cons, List.append_assoc, List.flatten_cons]
          exact first.blank ih

/-- A part that is read as words on its own is a line of these words. -/
theorem Lexes.readsAs {part : List Char} {words : List Word} (lexes : Lexes part words) :
    ReadsAs part words := by
  have whole := lexes [] [] (.inl rfl) readsAs_nil
  rwa [List.append_nil, List.append_nil] at whole

/-! ### Values without quotes -/

/-- The pieces of a text between blanks that have a character. -/
def filledPieces (text : List Char) : List (List Char) :=
  (List.splitOn ' ' text).filter (· ≠ [])

private theorem lexes_plain (plain : ∀ c ∈ source, isPlain c = true) :
    Lexes source ((filledPieces source).map (·.map Piece.bare)) := by
  have blank : ' ' ∉ source := fun member => absurd (plain ' ' member) (by decide)
  rw [filledPieces, List.splitOn_eq_singleton blank]
  by_cases some : source = []
  · rw [some]
    exact lexes_nil
  · have kept : [source].filter (· ≠ []) = [source] := by simp [some]
    rw [kept]
    exact (written_plain plain).lexes some

/-- **A value that is not quoted falls apart at its blanks.** -/
theorem lexes_value {value : List Char} (plain : ∀ c ∈ value, isPlain c = true ∨ c = ' ') :
    Lexes value ((filledPieces value).map (·.map Piece.bare)) := by
  -- what is in front of the next blank is one piece
  suffices further : ∀ front : List Char, (∀ c ∈ front, isPlain c = true) →
      Lexes (front ++ value) ((filledPieces (front ++ value)).map (·.map Piece.bare)) from
    further [] (List.forall_mem_nil _)
  induction value with
  | nil =>
      intro front plainFront
      rw [List.append_nil]
      exact lexes_plain plainFront
  | cons c value ih =>
      intro front plainFront
      obtain ⟨first, later⟩ := List.forall_mem_cons.mp plain
      rcases first with first | rfl
      · rw [List.append_cons]
        refine ih later _ (List.forall_mem_append.mpr ⟨plainFront, ?_⟩)
        exact List.forall_mem_singleton.mpr first
      · have split : filledPieces (front ++ ' ' :: value) =
            filledPieces front ++ filledPieces value := by
          rw [filledPieces, List.splitOn_append_cons_self, List.filter_append]
          rfl
        rw [split, List.map_append]
        exact (lexes_plain plainFront).blank (ih later [] (List.forall_mem_nil _))

end Lines

end BuildWarden.Shell
