import BuildWarden.Pattern.Basic
import BuildWarden.Fault
/-!
# Reading patterns

The written form of patterns. `?` is any byte, `*` any bytes, `[…]` one byte of a class, `{…,…}` one
of several patterns, `\` takes the special meaning from a character, and `**` between slashes stands
for directories.
-/

namespace BuildWarden.Pattern

/-- Why a text is no pattern. -/
inductive Malformed where
  | openClass
  | emptyRange (first last : Char)
  | openGroup
  | strayGroupEnd
  | strayEscape
  deriving DecidableEq, Repr

/-- The wording of the reason. -/
def Malformed.message : Malformed → String
  | openClass => "unclosed character class; missing ']'"
  | emptyRange first last =>
    "invalid range; '" ++ first.toString ++ "' > '" ++ last.toString ++ "'"
  | openGroup => "unclosed alternate group; missing '\x7d' (maybe escape '\x7b' with '[\x7b]'?)"
  | strayGroupEnd =>
    "unopened alternate group; missing '\x7b' (maybe escape '\x7d' with '[\x7d]'?)"
  | strayEscape => "dangling '\\'"

/-- A part of a pattern as it is written. -/
inductive Part where
  | literal (c : Char)
  | any
  | star
  | set (negated : Bool) (ranges : List (Char × Char))
  /-- `**` in front of a slash, at the end, and between slashes -/
  | leading
  | trailing
  | inner
  | group (branches : List Pattern)
  deriving DecidableEq

/-- One of the patterns; of none, the empty one. -/
def choice : List Pattern → Pattern → Pattern
  | [], rest => rest
  | [branch], rest => either branch branch rest
  | first :: others, rest => either first (choice others done) rest

/-- The bytes of a range of characters: all bytes of the two ends, and what lies between the last
byte of the first end and the first byte of the second. -/
def rangeBytes (range : Char × Char) : List (UInt8 × UInt8) :=
  if range.1 = range.2 then (String.utf8EncodeChar range.1).map fun b => (b, b)
  else
    match (String.utf8EncodeChar range.1).reverse, String.utf8EncodeChar range.2 with
    | first :: front, last :: back => (first, last) :: (front ++ back).map fun b => (b, b)
    | _, _ => []

/-- A slash, then the rest. -/
def slash (rest : Pattern) : Pattern :=
  one (only 0x2F) rest

/-- The pattern that a part and the rest stand for. -/
def ofPart (part : Part) (rest : Pattern) : Pattern :=
  match part with
  | .literal c => bytes (String.utf8EncodeChar c) rest
  | .any => one ⟨true, []⟩ rest
  | .star => many rest
  | .set negated ranges => one ⟨negated, ranges.flatMap rangeBytes⟩ rest
  | .leading => either (either (slash done) done done) (many (slash done)) rest
  | .trailing => slash (many rest)
  | .inner => either (slash done) (slash (many (slash done))) rest
  | .group branches => choice (branches.filter (· != done)) rest

/-- The pattern of a sequence of parts. -/
def ofParts (parts : List Part) : Pattern :=
  parts.foldr ofPart done

/-- The pattern of a whole text. Directories alone describe everything. -/
def ofAllParts (parts : List Part) : Pattern :=
  if parts = [.leading] then many done else ofParts parts

/-- A sequence of branches being read; the parts and branches stand in reverse. -/
structure Branches where
  parts : List Part := []
  earlier : List (List Part) := []

/-- What has been read: the innermost group, and the groups around it. -/
structure Progress where
  current : Branches := {}
  around : List Branches := []

namespace Progress

/-- Adds a part to the branch that is being read. -/
def push (progress : Progress) (part : Part) : Progress :=
  { progress with current.parts := part :: progress.current.parts }

/-- Whether a group is open. -/
def inGroup (progress : Progress) : Bool :=
  !progress.around.isEmpty

/-- Begins a group. -/
def openGroup (progress : Progress) : Progress :=
  ⟨{}, progress.current :: progress.around⟩

/-- Begins the next branch of a group. -/
def nextBranch (progress : Progress) : Progress :=
  { progress with current := ⟨[], progress.current.parts :: progress.current.earlier⟩ }

/-- Ends a group, which becomes a part of the branch around it. -/
def closeGroup (progress : Progress) : Except Malformed Progress :=
  match progress.around with
  | [] => .error .strayGroupEnd
  | outer :: around =>
    let branches := (progress.current.parts :: progress.current.earlier).reverse
    .ok ((⟨outer, around⟩ : Progress).push
      (.group (branches.map fun parts => ofParts parts.reverse)))

/-- Reads `**`, given the characters on both sides: what is read, and whether the slash behind
belongs to it. -/
def twoStars (progress : Progress) (before after : Option Char) : Progress × Bool :=
  let stars := ((progress.push .star).push .star, false)
  let replaceLast (part : Part) : Progress :=
    match progress.current.parts with
    | .leading :: _ | .trailing :: _ => progress
    | _ :: front => { progress with current.parts := part :: front }
    | [] => progress
  if progress.current.parts.isEmpty then
    match after with
    | none => (progress.push .leading, false)
    | some '/' => (progress.push .leading, true)
    | some _ => stars
  else if before != some '/'
      && (!progress.inGroup || (before != some ',' && before != some '\x7b')) then stars
  else
    match after with
    | none => (replaceLast .trailing, false)
    | some '/' => (replaceLast .inner, true)
    | some c =>
      if progress.inGroup && (c = ',' || c = '\x7d') then (replaceLast .trailing, false) else stars

end Progress

/-- A range with another end. -/
def endRange (last : Char) : List (Char × Char) → Except Malformed (List (Char × Char))
  | [] => .ok []
  | (first, _) :: others =>
    if last < first then .error (.emptyRange first last) else .ok ((first, last) :: others)

/-- Reads the ranges of a class up to its end; they stand in reverse. `start` holds in front of the
first character, and `range` behind a dash that may form a range. -/
def readRanges (ranges : List (Char × Char)) (start range : Bool) :
    List Char → Except Malformed (List (Char × Char) × List Char)
  | [] => .error .openClass
  | ']' :: rest =>
    if start then readRanges ((']', ']') :: ranges) false false rest
    else .ok (if range then ('-', '-') :: ranges else ranges, rest)
  | c :: rest =>
    if c = '-' && start then readRanges (('-', '-') :: ranges) false false rest
    else if c = '-' && !range then readRanges ranges false true rest
    else if range then
      match endRange c ranges with
      | .ok ranges => readRanges ranges false false rest
      | .error fault => .error fault
    else readRanges ((c, c) :: ranges) false false rest

/-- A class ends behind where it starts. -/
theorem length_of_readRanges {ranges found : List (Char × Char)} {start range : Bool}
    {text rest : List Char} (h : readRanges ranges start range text = .ok (found, rest)) :
    rest.length < text.length := by
  induction text generalizing ranges start range with
  | nil => simp [readRanges] at h
  | cons c text ih =>
    unfold readRanges at h
    split at h
    · contradiction
    · next same =>
      obtain ⟨rfl, rfl⟩ := List.cons.inj same
      split at h
      · exact Nat.lt_succ_of_lt (ih h)
      · simp only [Except.ok.injEq, Prod.mk.injEq] at h
        simp [h.2]
    · next _ same =>
      obtain ⟨rfl, rfl⟩ := List.cons.inj same
      split at h
      · exact Nat.lt_succ_of_lt (ih h)
      · split at h
        · exact Nat.lt_succ_of_lt (ih h)
        · split at h
          · split at h
            · exact Nat.lt_succ_of_lt (ih h)
            · contradiction
          · exact Nat.lt_succ_of_lt (ih h)

/-- Reads a class behind its opening bracket. -/
def readClass (text : List Char) : Except Malformed (Part × List Char) :=
  let (negated, inside) := match text with
    | '!' :: rest | '^' :: rest => (true, rest)
    | _ => (false, text)
  match readRanges [] true false inside with
  | .ok (ranges, rest) => .ok (.set negated ranges.reverse, rest)
  | .error fault => .error fault

private theorem length_of_readClass {text rest : List Char} {part : Part}
    (h : readClass text = .ok (part, rest)) : rest.length < text.length := by
  unfold readClass at h
  simp only at h
  split at h
  · next read =>
    simp only [Except.ok.injEq, Prod.mk.injEq] at h
    have shorter := length_of_readRanges read
    rw [h.2] at shorter
    split at shorter <;> simp_all <;> omega
  · contradiction

/-- Reads a pattern; `before` is the character in front. -/
def readParts (before : Option Char) (progress : Progress) (text : List Char) :
    Except Malformed Progress :=
  match text with
  | [] => .ok progress
  | '?' :: rest => readParts (some '?') (progress.push .any) rest
  | '*' :: '*' :: rest =>
    match progress.twoStars before rest.head? with
    | (progress, true) => readParts (some '/') progress (rest.drop 1)
    | (progress, false) => readParts (some '*') progress rest
  | '*' :: rest => readParts (some '*') (progress.push .star) rest
  | '[' :: rest =>
    match _class : readClass rest with
    | .ok (part, behind) => readParts (some ']') (progress.push part) behind
    | .error fault => .error fault
  | '\x7b' :: rest => readParts (some '\x7b') progress.openGroup rest
  | '\x7d' :: rest =>
    match progress.closeGroup with
    | .ok progress => readParts (some '\x7d') progress rest
    | .error fault => .error fault
  | '\\' :: [] => .error .strayEscape
  | '\\' :: c :: rest => readParts (some c) (progress.push (.literal c)) rest
  | c :: rest =>
    if c = ',' && progress.inGroup then readParts (some ',') progress.nextBranch rest
    else readParts (some c) (progress.push (.literal c)) rest
termination_by text.length
decreasing_by
  all_goals try have shorter := length_of_readClass _class
  all_goals (simp only [List.length_cons, List.length_drop]; omega)

/-- Reads a pattern. -/
def parse (text : String) : Except Malformed Pattern := do
  let progress ← readParts none {} text.toList
  if progress.inGroup then .error .openGroup
  else .ok (ofAllParts progress.current.parts.reverse)

/-- Reads a pattern for a command that fails with it. -/
def parseOrFault (text : String) : Except Fault Pattern :=
  match parse text with
  | .ok pattern => .ok pattern
  | .error reason => .error (.invalidPattern text reason.message)

end BuildWarden.Pattern
