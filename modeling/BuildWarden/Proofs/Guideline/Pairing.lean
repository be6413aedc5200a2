import BuildWarden.Guideline.Pairing
import BuildWarden.Proofs.Guideline.Amendment
import BuildWarden.Proofs.Pattern
import BuildWarden.Proofs.Text.Search
import BuildWarden.Proofs.Text.Utf8
import BuildWarden.Proofs.Tree.Alteration
import BuildWarden.Proofs.World
/-!
# Pairing that settles

The pairing check only adds files, and no file that it adds is a header. A header that could not be
paired has a directory in the place of its unit, or nothing where nothing can be written; both stay
so as long as only other files are added. So one correcting check leaves exactly these headers.
-/

namespace BuildWarden.Guideline

open Text.Utf8 (encode encode_append)

/-! ### The names of units -/

private theorem mem_stem {name : String} {c : Char} (inside : c ∈ (Path.stem name).toList) :
    c ∈ name.toList := by
  unfold Path.stem at inside
  split at inside
  · exact inside
  · exact inside
  next front _ cut =>
    have whole := Text.eq_of_cutAt? cut
    rw [← List.mem_reverse, whole]
    rw [String.toList_ofList, List.mem_reverse] at inside
    simp [inside]

/-- The unit of a header has a name that a file can have. -/
theorem isName_unitName {header : SourceFile} (spelled : IsName header.name) :
    IsName (unitName header) := by
  have long : 4 ≤ (unitName header).length := by
    have dot : ".".length = 1 := rfl
    have extension : "cpp".length = 3 := rfl
    rw [unitName, Path.withExtension, String.length_append, String.length_append, dot, extension]
    omega
  refine ⟨?_, ?_, ?_, fun slash => ?_⟩
  · rintro same
    rw [same] at long
    simp at long
  · rintro same
    rw [same] at long
    exact absurd long (by decide)
  · rintro same
    rw [same] at long
    exact absurd long (by decide)
  · unfold unitName Path.withExtension at slash
    simp only [String.toList_append, List.mem_append] at slash
    rcases slash with (slash | slash) | slash
    · exact spelled.2.2.2 (mem_stem slash)
    · revert slash
      decide
    · revert slash
      decide

/-- The pattern of headers accepts the names that end in `.h`. -/
theorem header_ends {name : String} (accepted : SourceKind.headers.pattern.accepts name = true) :
    ['.', 'h'] <:+ name.toList :=
  Text.Utf8.suffix_of_encode_suffix (by simp)
    ((Pattern.accepts_endingIn ".h" name).mp accepted)

/-- A unit is no header. -/
theorem accepts_unitName (header : SourceFile) :
    SourceKind.headers.pattern.accepts (unitName header) = false := by
  refine Bool.eq_false_iff.mpr fun accepted => ?_
  obtain ⟨front, same⟩ := header_ends accepted
  have last := congrArg List.getLast? same
  simp [unitName, Path.withExtension] at last

/-- The stem of the name of a header is what stands in front of the ending. -/
theorem stem_header {name : String} {front : List Char} (shape : name.toList = front ++ ['.', 'h'])
    (named : front ≠ []) : Path.stem name = String.ofList front := by
  obtain ⟨before, last, rfl⟩ := (List.eq_nil_or_concat front).resolve_left named
  unfold Path.stem
  simp [shape, Text.cutAt?]

/-- **Different headers have different units**, apart from a header without any name. -/
theorem unitName_injective {header other : SourceFile}
    (accepted : SourceKind.headers.pattern.accepts header.name = true)
    (acceptedOther : SourceKind.headers.pattern.accepts other.name = true)
    (named : header.name ≠ ".h") (namedOther : other.name ≠ ".h")
    (same : unitName header = unitName other) : header.name = other.name := by
  obtain ⟨front, shape⟩ := header_ends accepted
  obtain ⟨front', shape'⟩ := header_ends acceptedOther
  have something : front ≠ [] := by
    rintro rfl
    exact named (String.toList_injective shape.symm)
  have something' : front' ≠ [] := by
    rintro rfl
    exact namedOther (String.toList_injective shape'.symm)
  have letters := congrArg String.toList same
  rw [unitName, unitName, Path.withExtension, Path.withExtension,
    stem_header shape.symm something, stem_header shape'.symm something'] at letters
  obtain rfl : front = front' := by simpa using letters
  exact String.toList_injective (shape.symm.trans shape')

/-! ### Adding files -/

/-- A change that adds only files, where files can be written, and no headers. -/
structure Grows (locked : Location → Bool) (before after : Disk) : Prop
    extends before.Gains (fun location => locked location = false ∧
      SourceKind.headers.pattern.accepts (location.getLastD "") = false) after where
  plain : before.tree.Plain → after.tree.Plain

section Grows
variable {locked : Location → Bool} {disk before after later : Disk} {directory : Location}
  {inside : Tree} {name : String}

@[refl]
private theorem Grows.refl (locked : Location → Bool) (disk : Disk) : Grows locked disk disk :=
  ⟨.refl disk, id⟩

/-- A disk that grows twice has grown. -/
theorem Grows.trans {first second third : Disk} (one : Grows locked first second)
    (other : Grows locked second third) : Grows locked first third :=
  ⟨one.toGains.trans other.toGains, other.plain ∘ one.plain⟩

/-- Changing the contents of files adds nothing. -/
theorem Amendment.Keeps.grows {amendment : Amendment} (keeps : amendment.Keeps before after)
    (locked : Location → Bool) : Grows locked before after where
  toExtends := keeps.toExtends
  new := fun location none => (keeps.new location none).imp_right fun ⟨_, never⟩ => never.elim
  plain := keeps.plain

/-- A new file in a directory. -/
theorem grows_put (plain : disk.tree.Plain)
    (present : disk.tree.at? directory = some (.dir inside)) (free : inside.find? name = none)
    (spelled : IsName name) (unlocked : locked (directory ++ [name]) = false)
    (ignored : SourceKind.headers.pattern.accepts name = false) (content : Bytes) :
    Grows locked disk
      { disk with tree := disk.tree.put (directory ++ [name]) (.leaf (.file content false)) } := by
  have alters := Disk.alters_put_new plain present free spelled content
  refine ⟨⟨alters.toExtends, fun location vacant => ?_⟩, alters.plain⟩
  refine (alters.new location vacant).imp_right fun ⟨file, same⟩ => ⟨file, ?_⟩
  subst same
  exact ⟨unlocked, by simpa using ignored⟩

end Grows

/-! ### One header -/

/-- Whether the unit of a header is missing. -/
def unpaired (layout : Layout) (header : SourceFile) (disk : Disk) : Bool :=
  needsUnit layout header && !disk.isFileIn header.directory (unitName header)

/-- Where the unit of a header belongs. -/
def unitPlace (header : SourceFile) : Location :=
  header.directory ++ [unitName header]

/-- How the examination of one header ends, and the disk it leaves. -/
inductive Pairs (layout : Layout) (correct : Bool) (header : SourceFile) (disk : Disk) :
    Outcome → Disk → Prop
  | fine : unpaired layout header disk = false → Pairs layout correct header disk .fine disk
  | left : unpaired layout header disk = true →
      (correct = true → disk.tree.outline? (unitPlace header) = some .dir ∨
        disk.tree.outline? (unitPlace header) = none ∧
          disk.locked (unitPlace header) = true) →
      Pairs layout correct header disk (.violation false) disk
  | made (inside : Tree) : correct = true →
      unpaired layout header disk = true →
      disk.tree.at? header.directory = some (.dir inside) →
      inside.find? (unitName header) = none → disk.locked (unitPlace header) = false →
      Pairs layout correct header disk (.violation true)
        { disk with
          tree := disk.tree.put (unitPlace header)
            (.leaf (.file (encode (unitText layout header)) false)) }

section Header
variable {layout : Layout} {header : SourceFile} {disk after later : Disk} {outcome : Outcome}
  {correct : Bool}

/-- The pairing check pairs. -/
theorem examinePairing_pairs (settings : Console.Settings) {world : World}
    (plain : world.disk.tree.Plain) (stands : header.Stands world.disk) :
    Pairs layout correct header world.disk
      (examinePairing settings layout correct header world).1
      (examinePairing settings layout correct header world).2.disk := by
  obtain ⟨spelled, inside, present⟩ := stands.directory plain
  have named := isName_unitName spelled
  have outline := Tree.outline?_concat present (unitName header)
  unfold examinePairing
  by_cases paired : (!needsUnit layout header ||
      world.disk.isFileIn header.directory (unitName header)) = true
  · rw [if_pos paired]
    refine .fine ?_
    rw [unpaired, ← Bool.not_eq_true', Bool.not_and, Bool.not_not]
    exact paired
  rw [if_neg paired]
  have missing : unpaired layout header world.disk = true := by
    rw [unpaired, ← Bool.not_eq_false', Bool.not_and, Bool.not_not]
    exact Bool.eq_false_iff.mpr paired
  cases correct with
  | false =>
      simp only [Bool.false_eq_true, ↓reduceIte, World.say_disk]
      exact .left missing (by simp)
  | true =>
      simp only [↓reduceIte]
      match there : inside.find? (unitName header) with
      | none =>
          have written := Disk.writeIn_vacant plain named present there
            (encode (unitText layout header))
          by_cases shut : world.disk.locked (unitPlace header) = true
          · rw [unitPlace] at shut
            rw [if_pos shut] at written
            simp only [written, World.say_disk]
            exact .left missing fun _ => .inr ⟨by simp [unitPlace, outline, there], shut⟩
          · rw [unitPlace] at shut
            rw [if_neg shut] at written
            simp only [written, World.say_disk]
            exact .made inside rfl missing present there (Bool.eq_false_iff.mpr shut)
      | some (.dir within) =>
          have written :=
            Disk.writeIn_dir plain named present there (encode (unitText layout header))
          simp only [written, World.say_disk]
          exact .left missing fun _ => .inl (by simp [unitPlace, outline, there]; rfl)
      | some (.leaf (.file content executable)) =>
          rw [unpaired, Bool.and_eq_true, Bool.not_eq_true', ← Bool.not_eq_true,
            Disk.isFileIn_iff plain named present, outline, there] at missing
          exact (missing.2 rfl).elim
      | some (.leaf (.link target)) =>
          have stood := Tree.at?_concat present (unitName header)
          rw [there] at stood
          exact (Disk.at?_ne_link plain _ _ stood).elim

/-- A header has its unit exactly if a file stands at the place of the unit. -/
theorem isFileIn_unitName_iff (plain : disk.tree.Plain) (stands : header.Stands disk) :
    disk.isFileIn header.directory (unitName header) = true ↔
      disk.tree.outline? (unitPlace header) = some .file := by
  obtain ⟨spelled, inside, present⟩ := stands.directory plain
  exact Disk.isFileIn_iff plain (isName_unitName spelled) present

/-- A header is unpaired exactly if it needs a unit and no file stands at its place. -/
theorem unpaired_iff (plain : disk.tree.Plain) (stands : header.Stands disk) :
    unpaired layout header disk = true ↔
      needsUnit layout header = true ∧ disk.tree.outline? (unitPlace header) ≠ some .file := by
  rw [unpaired, Bool.and_eq_true, Bool.not_eq_true', ← Bool.not_eq_true,
    isFileIn_unitName_iff plain stands]

section Unit
variable {inside : Tree} (present : disk.tree.at? header.directory = some (.dir inside))
  (free : inside.find? (unitName header) = none)
include present free

/-- Where a unit is free to be made, nothing stands. -/
theorem aspect?_unitPlace_eq_none : disk.tree.aspect? (unitPlace header) = none := by
  rw [unitPlace, Tree.aspect?_concat present, free]
  rfl

/-- A unit that was put in its place is seen there. -/
theorem aspect?_put_unit (content : Bytes) (executable : Bool) :
    (disk.tree.put (unitPlace header) (.leaf (.file content executable))).aspect?
      (unitPlace header) = some (.file content) := by
  have bare : (Item.leaf (.file content executable)).Bare := trivial
  rw [unitPlace, Tree.aspect?_put_new present free bare, if_pos rfl]
  rfl

end Unit

private theorem Pairs.grows (pairs : Pairs layout correct header disk outcome after)
    (plain : disk.tree.Plain) (stands : header.Stands disk) : Grows disk.locked disk after := by
  cases pairs with
  | fine paired => rfl
  | left missing hopeless => rfl
  | made inside allowed missing present free unlocked =>
      obtain ⟨spelled, -⟩ := stands.directory plain
      exact grows_put plain present free (isName_unitName spelled) unlocked
        (accepts_unitName header) _

/-- **A header that is left unpaired is found later, and no other one is.** -/
theorem Pairs.found_later (pairs : Pairs layout true header disk outcome after)
    (plain : disk.tree.Plain) (stands : header.Stands disk)
    (grows : Grows disk.locked after later) :
    unpaired layout header later = true ↔ outcome = .violation false := by
  have whole := (pairs.grows plain stands).trans grows
  rw [unpaired_iff (whole.plain plain) (stands.extends whole.toExtends)]
  cases pairs with
  | fine paired =>
      rw [← Bool.not_eq_true, unpaired_iff plain stands, not_and_not_right] at paired
      refine ⟨fun ⟨needed, missing⟩ => ?_, fun same => by cases same⟩
      exact (missing (grows.kept _ _ (paired needed))).elim
  | left missing hopeless =>
      obtain ⟨needed, -⟩ := (unpaired_iff plain stands).mp missing
      refine ⟨fun _ => rfl, fun _ => ⟨needed, fun file => ?_⟩⟩
      rcases hopeless rfl with dir | ⟨vacant, shut⟩
      · rw [grows.kept _ _ dir] at file
        cases file
      · rcases grows.new _ vacant with still | ⟨-, unlocked, -⟩
        · rw [still] at file
          cases file
        · rw [shut] at unlocked
          cases unlocked
  | made inside allowed missing present free unlocked =>
      refine ⟨fun ⟨_, missing⟩ => ?_, fun same => by cases same⟩
      have made := aspect?_put_unit present free (encode (unitText layout header)) false
      exact (missing (grows.kept _ _ (Amendment.outline?_of_aspect? made))).elim

/-- An examination that may not correct, or a header that is paired, changes nothing. -/
theorem Pairs.still (pairs : Pairs layout correct header disk outcome after)
    (harmless : correct = true → unpaired layout header disk = false) :
    after = disk ∧ (unpaired layout header disk = true ↔ outcome ≠ .fine) := by
  cases pairs with
  | fine paired => simp [paired]
  | left missing hopeless => simp [missing]
  | made inside allowed missing present free unlocked =>
      rw [harmless allowed] at missing
      cases missing

end Header

/-! ### The check -/

section Check
variable (settings : Console.Settings) (layout : Layout) {listing again : Listing}
  {world next : World}

/-- The outcomes of the pairing check and the world it leaves. -/
def examineHeaders (correct : Bool) (listing : Listing) (world : World) : List Outcome × World :=
  examineAll (examinePairing settings layout correct)
    (SourceKind.headers.sources layout listing world.disk) world

variable (faithful : listing.Faithful) (plain : world.disk.tree.Plain)
include faithful plain

/-- A correcting check of headers makes the disk grow, and leaves as violations exactly the headers
that are found unpaired on each disk it grows to. -/
theorem examineHeaders_settles :
    Grows world.disk.locked world.disk (examineHeaders settings layout true listing world).2.disk ∧
      ∀ disk, Grows world.disk.locked
        (examineHeaders settings layout true listing world).2.disk disk →
          unresolved (examineHeaders settings layout true listing world).1 =
            (SourceKind.headers.sources layout listing world.disk).countP
              (unpaired layout · disk) := by
  refine unresolved_examineAll (Grows world.disk.locked) Grows.trans (Grows.refl _) ?_ (.refl _ _)
  intro header member between reached
  have stands : header.Stands between.disk :=
    (Disk.stands_of_mem_enumerate plain faithful member).1.extends reached.toExtends
  have plainly := reached.plain plain
  have pairs : Pairs layout true header between.disk _ _ :=
    examinePairing_pairs settings plainly stands
  rw [← reached.locked]
  exact ⟨pairs.grows plainly stands, fun later grows => pairs.found_later plainly stands grows⟩

/-- **One correcting pairing check leaves what the next one finds**, if only files that are no
headers are added in between. A check that does not correct changes nothing, and neither does one
that finds nothing. -/
theorem pairing_converges (faithfulAgain : again.Faithful)
    (grows : Grows world.disk.locked (examineHeaders settings layout true listing world).2.disk
      next.disk) :
    (examineHeaders settings layout false again next).1.countP (· != .fine) =
        unresolved (examineHeaders settings layout true listing world).1 ∧
      (examineHeaders settings layout false again next).2.disk = next.disk ∧
      ((examineHeaders settings layout false again next).1.countP (· != .fine) = 0 →
        (examineHeaders settings layout true again next).2.disk = next.disk) := by
  obtain ⟨step, left⟩ := examineHeaders_settles settings layout faithful plain
  have whole := step.trans grows
  have plainNow := whole.plain plain
  have same : (SourceKind.headers.sources layout listing world.disk).Perm
      (SourceKind.headers.sources layout again next.disk) :=
    whole.enumerate_perm plain plainNow faithful faithfulAgain fun _ ⟨_, ignored⟩ => ignored
  have pairs (correct : Bool) {header : SourceFile} {between : World}
      (member : header ∈ SourceKind.headers.sources layout again next.disk)
      (still : between.disk = next.disk) :
      Pairs layout correct header next.disk
        (examinePairing settings layout correct header between).1
        (examinePairing settings layout correct header between).2.disk := by
    have stands := (Disk.stands_of_mem_enumerate plainNow faithfulAgain member).1
    rw [← still] at stands plainNow ⊢
    exact examinePairing_pairs settings plainNow stands
  have checking : ∀ header ∈ SourceKind.headers.sources layout again next.disk,
      ∀ between : World, between.disk = next.disk →
        (examinePairing settings layout false header between).2.disk = next.disk ∧
          (unpaired layout header next.disk = true ↔
            (examinePairing settings layout false header between).1 ≠ .fine) :=
    fun header member between still => (pairs false member still).still (by simp)
  obtain ⟨unchanged, counted⟩ := countP_examineAll checking rfl
  refine ⟨?_, unchanged, fun clean => ?_⟩
  · rw [left next.disk grows, same.countP_eq]
    exact counted
  · have found := counted.symm.trans clean
    rw [List.countP_eq_zero] at found
    have idle : ∀ header ∈ SourceKind.headers.sources layout again next.disk,
        ∀ between : World, between.disk = next.disk →
          (examinePairing settings layout true header between).2.disk = next.disk ∧
            (unpaired layout header next.disk = true ↔
              (examinePairing settings layout true header between).1 ≠ .fine) :=
      fun header member between still =>
        (pairs true member still).still fun _ => by simpa using found header member
    exact (countP_examineAll idle rfl).1

end Check
end BuildWarden.Guideline
