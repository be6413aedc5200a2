import BuildWarden.Console.Scan
import BuildWarden.Proofs.Text.Slice
/-!
# What highlighting makes of a text

Brackets are matched from the left, and the one that closes is the first behind the one that opens:
`Unwraps` says what a text reads like without them. The scan over the bytes of a text finds the same
values and never fails. Colours add sequences of codes and nothing else, so deleting these gives the
text without colours, in which only brackets are missing.
-/

namespace BuildWarden.Console

open Text.Utf8

/-- What a text reads like without the brackets around its values. -/
inductive Unwraps : List Char → List Char → Prop
  /-- No bracket opens -/
  | unopened {text : List Char} : '[' ∉ text → Unwraps text text
  /-- No bracket closes behind the first one that opens -/
  | unclosed {before rest : List Char} :
      '[' ∉ before → ']' ∉ rest → Unwraps (before ++ '[' :: rest) (before ++ '[' :: rest)
  | closed {before value after result : List Char} :
      '[' ∉ before → ']' ∉ value → Unwraps after result →
        Unwraps (before ++ '[' :: (value ++ ']' :: after)) (before ++ value ++ result)

/-- What stands behind a sequence of codes, if the text starts with one. -/
def behindSequence? : List Char → Option (List Char)
  | '\x1b' :: '[' :: rest =>
    match rest.dropWhile fun c => c.isDigit || c == ';' with
    | 'm' :: behind => some behind
    | _ => none
  | _ => none

private theorem length_of_behindSequence? {text behind : List Char}
    (starts : behindSequence? text = some behind) : behind.length < text.length := by
  unfold behindSequence? at starts
  split at starts
  next rest =>
    have kept : (rest.dropWhile fun c => c.isDigit || c == ';').length ≤ rest.length :=
      (List.dropWhile_suffix _).length_le
    split at starts
    next found same =>
      rw [same, List.length_cons] at kept
      obtain rfl := Option.some.inj starts
      simp only [List.length_cons]
      omega
    next => cases starts
  next => cases starts

/-- The text without the sequences of codes in it. -/
def withoutSequences : List Char → List Char
  | [] => []
  | c :: rest =>
    match _starts : behindSequence? (c :: rest) with
    | some behind => withoutSequences behind
    | none => c :: withoutSequences rest
termination_by text => text.length
decreasing_by
  · exact length_of_behindSequence? _starts
  · exact Nat.lt_succ_self _

variable {color : Bool} {text before rest value after : List Char}

/-! ### The three kinds of texts -/

private theorem highlightChars_unopened (unopened : '[' ∉ text) :
    highlightChars color text = text := by
  rw [highlightChars]
  split
  next => rfl
  next opened =>
    rw [Text.cutAt?_eq_none.mpr unopened] at opened
    cases opened

private theorem highlightChars_unclosed (first : '[' ∉ before) (unclosed : ']' ∉ rest) :
    highlightChars color (before ++ '[' :: rest) = before ++ '[' :: rest := by
  rw [highlightChars]
  split
  next => rfl
  next opened =>
    rw [Text.cutAt?_append first] at opened
    cases opened
    split
    next => rfl
    next closed =>
      rw [Text.cutAt?_eq_none.mpr unclosed] at closed
      cases closed

private theorem highlightChars_closed (first : '[' ∉ before) (within : ']' ∉ value)
    (after : List Char) :
    highlightChars color (before ++ '[' :: (value ++ ']' :: after)) =
      before ++ styled color [.yellow, .bold] value ++ highlightChars color after := by
  rw [highlightChars]
  split
  next unopened =>
    rw [Text.cutAt?_append first] at unopened
    cases unopened
  next opened =>
    rw [Text.cutAt?_append first] at opened
    cases opened
    split
    next unclosed =>
      rw [Text.cutAt?_append within] at unclosed
      cases unclosed
    next closed =>
      rw [Text.cutAt?_append within] at closed
      cases closed
      rfl

/-- **Without colours a text is unwrapped**, in the one way there is. -/
theorem unwraps_iff {result : List Char} :
    Unwraps text result ↔ result = highlightChars false text := by
  constructor
  · intro unwraps
    induction unwraps with
    | unopened unopened => rw [highlightChars_unopened unopened]
    | unclosed first unclosed => rw [highlightChars_unclosed first unclosed]
    | closed first within _ ih =>
        rw [highlightChars_closed first within, ih]
        rfl
  · rintro rfl
    fun_induction highlightChars false text with
    | case1 text unopened => exact .unopened (Text.cutAt?_eq_none.mp unopened)
    | case2 text before rest opened unclosed =>
        rw [Text.eq_of_cutAt? opened]
        exact .unclosed (Text.not_mem_of_cutAt? opened) (Text.cutAt?_eq_none.mp unclosed)
    | case3 text before rest opened value after closed ih =>
        rw [Text.eq_of_cutAt? opened, Text.eq_of_cutAt? closed]
        exact .closed (Text.not_mem_of_cutAt? opened) (Text.not_mem_of_cutAt? closed) ih

/-- Whether a character is one of the brackets. -/
def isBracket (c : Char) : Bool :=
  c == '[' || c == ']'

private theorem Unwraps.sublist {result : List Char} (unwraps : Unwraps text result) :
    result.Sublist text := by
  induction unwraps with
  | unopened => exact .refl _
  | unclosed => exact .refl _
  | closed _ _ _ ih =>
      rw [List.append_assoc]
      exact List.Sublist.append_left (.cons _ (List.Sublist.append_left (.cons _ ih) _)) _

/-- Only brackets are left out. -/
theorem Unwraps.filter {result : List Char} (unwraps : Unwraps text result) :
    result.filter (!isBracket ·) = text.filter (!isBracket ·) := by
  have opening : isBracket '[' = true := rfl
  have closing : isBracket ']' = true := rfl
  induction unwraps with
  | unopened => rfl
  | unclosed => rfl
  | closed _ _ _ ih => simp [opening, closing, ih]

/-! ### Colours -/

private theorem withoutSequences_append (absent : '\x1b' ∉ text) (behind : List Char) :
    withoutSequences (text ++ behind) = text ++ withoutSequences behind := by
  induction text with
  | nil => rfl
  | cons c text ih =>
      obtain ⟨other, absent⟩ := List.ne_and_not_mem_of_not_mem_cons absent
      have none : behindSequence? (c :: (text ++ behind)) = none := by
        unfold behindSequence?
        split
        next same => exact (other (List.cons.inj same).1.symm).elim
        next => rfl
      rw [List.cons_append, withoutSequences]
      split
      next some =>
        rw [none] at some
        cases some
      next => rw [ih absent, List.cons_append]

/-- A sequence of codes is left out. -/
theorem withoutSequences_sequence (code : Nat) (behind : List Char) :
    withoutSequences (sequence code ++ behind) = withoutSequences behind := by
  have digits : ∀ c ∈ Nat.toDigits 10 code, (c.isDigit || c == ';') = true := by
    intro c member
    rw [Nat.isDigit_of_mem_toDigits (by decide) (by decide) member, Bool.true_or]
  have shape : sequence code ++ behind =
      '\x1b' :: '[' :: (Nat.toDigits 10 code ++ 'm' :: behind) := by
    simp [sequence]
  have starts : behindSequence? ('\x1b' :: '[' :: (Nat.toDigits 10 code ++ 'm' :: behind)) =
      some behind := by
    rw [behindSequence?, List.dropWhile_append_of_pos digits]
    rfl
  rw [shape, withoutSequences]
  split
  next found same =>
    rw [starts] at same
    rw [Option.some.inj same]
  next none =>
    rw [starts] at none
    cases none

private theorem withoutSequences_styled (styles : List Style) (absent : '\x1b' ∉ text)
    (behind : List Char) :
    withoutSequences (styled true styles text ++ behind) = text ++ withoutSequences behind := by
  rw [styled, if_pos rfl]
  induction styles with
  | nil =>
      rw [List.flatMap_nil, List.nil_append, List.append_assoc, withoutSequences_append absent,
        withoutSequences_sequence]
  | cons style styles ih =>
      rw [List.flatMap_cons, List.append_assoc, List.append_assoc, List.append_assoc,
        withoutSequences_sequence, ← List.append_assoc, ← List.append_assoc, ih]

/-- **Colours only add sequences of codes.** -/
theorem withoutSequences_highlightChars (absent : '\x1b' ∉ text) :
    withoutSequences (highlightChars true text) = highlightChars false text := by
  have plain {text : List Char} (absent : '\x1b' ∉ text) : withoutSequences text = text := by
    have whole := withoutSequences_append absent []
    rwa [List.append_nil, withoutSequences, List.append_nil] at whole
  fun_induction highlightChars true text with
  | case1 text unopened =>
      rw [highlightChars_unopened (Text.cutAt?_eq_none.mp unopened), plain absent]
  | case2 text before rest opened unclosed =>
      have whole := Text.eq_of_cutAt? opened
      rw [plain absent, whole, highlightChars_unclosed (Text.not_mem_of_cutAt? opened)
        (Text.cutAt?_eq_none.mp unclosed)]
  | case3 text before rest opened value after closed ih =>
      have whole : text = before ++ '[' :: (value ++ ']' :: after) := by
        rw [Text.eq_of_cutAt? opened, Text.eq_of_cutAt? closed]
      simp only [whole, List.mem_append, List.mem_cons, not_or] at absent
      obtain ⟨clear, -, clearValue, -, clearRest⟩ := absent
      rw [whole, highlightChars_closed (Text.not_mem_of_cutAt? opened)
        (Text.not_mem_of_cutAt? closed), List.append_assoc, withoutSequences_append clear,
        withoutSequences_styled _ clearValue, ih clearRest, List.append_assoc]
      rfl

/-! ### The scan -/

private theorem styledBytes_encodeChars (color : Bool) (styles : List Style) (text : List Char) :
    styledBytes color styles (encodeChars text) = encodeChars (styled color styles text) := by
  cases color with
  | false => rfl
  | true => simp only [styledBytes, styled, ↓reduceIte, encodeChars_append]

/-- The scan goes on behind the bracket that closes. -/
theorem scan?_of_slices {bytes inside before value after : Bytes}
    {start length : Nat} (opened : bytes.idxOf? openingByte = some start)
    (further : sliceFrom? bytes (start + 1) = some inside)
    (closed : inside.idxOf? closingByte = some length)
    (front : slice? bytes 0 start = some before)
    (between : slice? bytes (start + 1) (start + 1 + length) = some value)
    (behind : sliceFrom? bytes (start + length + 2) = some after) :
    scan? color bytes = (scan? color after).map fun rest =>
      before ++ styledBytes color [.yellow, .bold] value ++ rest := by
  rw [scan?]
  simp only [opened, further, closed, front, between]
  split
  next none =>
    rw [behind] at none
    cases none
  next found same =>
    rw [behind] at same
    rw [Option.some.inj same]

/-- **A scan never fails**: its offsets lie between characters, and what it makes of the bytes of a
text are the bytes of the highlighted text. -/
theorem scan?_encodeChars (color : Bool) (text : List Char) :
    scan? color (encodeChars text) = some (encodeChars (highlightChars color text)) := by
  have opening : String.utf8EncodeChar '[' = [openingByte] := by decide
  have closing : String.utf8EncodeChar ']' = [closingByte] := by decide
  have opens (text : List Char) : (encodeChars text).idxOf? openingByte = _ :=
    idxOf?_encodeChars (by decide) opening text
  have closes (text : List Char) : (encodeChars text).idxOf? closingByte = _ :=
    idxOf?_encodeChars (by decide) closing text
  fun_induction highlightChars color text with
  | case1 text unopened =>
      rw [scan?, opens, unopened]
      rfl
  | case2 text before rest opened unclosed =>
      have split : text = (before ++ ['[']) ++ rest := by simp [Text.eq_of_cutAt? opened]
      have further : sliceFrom? (encodeChars text) _ = some (encodeChars rest) :=
        sliceFrom?_encodeChars split (length_encodeChars_concat opening before)
      rw [scan?, opens, opened]
      simp only [Option.map_some, further, closes, unclosed, Option.map_none]
  | case3 text before rest opened value after closed ih =>
      have whole : text = before ++ ['['] ++ value ++ [']'] ++ after := by
        simp [Text.eq_of_cutAt? opened, Text.eq_of_cutAt? closed]
      have upToOpening : text = [] ++ before ++ '[' :: rest := Text.eq_of_cutAt? opened
      have fromOpening : text = (before ++ ['[']) ++ rest := by simp [Text.eq_of_cutAt? opened]
      have upToClosing : text = (before ++ ['[']) ++ value ++ ']' :: after := by simp [whole]
      have first := length_encodeChars_concat opening before
      have second : (encodeChars (before ++ ['['] ++ value)).length =
          (encodeChars before).length + 1 + (encodeChars value).length := by
        rw [encodeChars_append, List.length_append, first]
      have third : (encodeChars (before ++ ['['] ++ value ++ [']'])).length =
          (encodeChars before).length + (encodeChars value).length + 2 := by
        rw [length_encodeChars_concat closing, second]
        omega
      have scanned : scan? color (encodeChars text) = _ :=
        scan?_of_slices (by rw [opens, opened]; rfl)
          (sliceFrom?_encodeChars fromOpening first)
          (by rw [closes, closed]; rfl)
          (slice?_encodeChars upToOpening rfl rfl)
          (slice?_encodeChars upToClosing first second)
          (sliceFrom?_encodeChars whole third)
      rw [scanned, ih, Option.map_some, styledBytes_encodeChars, encodeChars_append,
        encodeChars_append]

/-- **Highlighting is the scan for brackets from the left.** On every text the scan over its bytes
ends without a slice that fails. Without colours, what is left is the text without the brackets
around its values: only brackets are missing, and everything else keeps its order. Colours add
sequences of codes to that and nothing else. -/
theorem highlight_unwraps (message : String) :
    (∀ color, scan? color (encode message) = some (encode (highlight color message))) ∧
      (∀ result, Unwraps message.toList result ↔ result = (highlight false message).toList) ∧
      (highlight false message).toList.Sublist message.toList ∧
      (highlight false message).toList.filter (!isBracket ·) =
        message.toList.filter (!isBracket ·) ∧
      ('\x1b' ∉ message.toList →
        withoutSequences (highlight true message).toList = (highlight false message).toList) := by
  have chars (color : Bool) :
      (highlight color message).toList = highlightChars color message.toList :=
    String.toList_ofList
  have unwraps : Unwraps message.toList (highlightChars false message.toList) :=
    unwraps_iff.mpr rfl
  simp only [chars]
  refine ⟨fun color => ?_, fun result => unwraps_iff, unwraps.sublist, unwraps.filter,
    withoutSequences_highlightChars⟩
  rw [encode, encode, chars]
  exact scan?_encodeChars color message.toList

/-- A bracket within brackets is part of a value, and one that closes nothing stays. -/
theorem highlight_unwraps_nested :
    '\x1b' ∉ "é[日[]本[]]".toList ∧
      withoutSequences (highlight true "é[日[]本[]]").toList = "é日[本]".toList := by
  obtain ⟨-, read, -, -, plain⟩ := highlight_unwraps "é[日[]本[]]"
  have absent : '\x1b' ∉ "é[日[]本[]]".toList := by decide
  have unwraps : Unwraps "é[日[]本[]]".toList "é日[本]".toList :=
    @Unwraps.closed ['é'] ['日', '['] "本[]]".toList _ (by decide) (by decide)
      (@Unwraps.closed ['本'] [] [']'] _ (by decide) (by decide) (.unopened (by decide)))
  exact ⟨absent, (plain absent).trans ((read _).mp unwraps).symm⟩

end BuildWarden.Console
