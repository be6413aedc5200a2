import BuildWarden.Proofs.Tree.Enumerate
/-!
# Disks that differ in places

Two disks `AgreeApart` some locations when everything else looks the same on both and they have the
same directories; a walk then lists the same files, those at the locations excepted. A disk that
`Alters` into another one has files added or rewritten at some locations and keeps the rest, so it
agrees with the other one apart from these.
-/

namespace BuildWarden
namespace Disk
variable {apart other altered : Location → Prop} {disk before after one two three : Disk}
  {location place : Location} {item : Item}

/-! ### Agreement -/

/-- The same working directory, the same directories, and the same view of all other locations. -/
structure AgreeApart (apart : Location → Prop) (one two : Disk) : Prop where
  here : two.here = one.here
  seen : ∀ location, ¬apart location → two.tree.aspect? location = one.tree.aspect? location
  dirs : ∀ location, two.tree.outline? location = some .dir ↔ one.tree.outline? location = some .dir

namespace AgreeApart

/-- A disk agrees with itself. -/
@[refl]
theorem refl (apart : Location → Prop) (disk : Disk) : AgreeApart apart disk disk :=
  ⟨rfl, fun _ _ => rfl, fun _ => Iff.rfl⟩

/-- Agreement goes both ways. -/
theorem symm (agree : AgreeApart apart one two) : AgreeApart apart two one :=
  ⟨agree.here.symm, fun location outside => (agree.seen location outside).symm,
    fun location => (agree.dirs location).symm⟩

private theorem trans (first : AgreeApart apart one two) (second : AgreeApart apart two three) :
    AgreeApart apart one three :=
  ⟨second.here.trans first.here,
    fun location outside => (second.seen location outside).trans (first.seen location outside),
    fun location => (second.dirs location).trans (first.dirs location)⟩

/-- Disks that agree apart from some places agree apart from more. -/
theorem mono (wider : ∀ location, apart location → other location)
    (agree : AgreeApart apart one two) : AgreeApart other one two :=
  ⟨agree.here, fun location outside => agree.seen location (outside ∘ wider location), agree.dirs⟩

/-- Where disks agree, the same kind of item stands. -/
theorem outline? (agree : AgreeApart apart one two) (outside : ¬apart location) :
    two.tree.outline? location = one.tree.outline? location := by
  unfold Tree.outline?
  rw [agree.seen location outside]

/-- A directory of one disk is a directory of the other one. -/
theorem dir (agree : AgreeApart apart one two) {inside : Tree}
    (stands : one.tree.at? place = some (.dir inside)) :
    ∃ inside', two.tree.at? place = some (.dir inside') := by
  have seen : two.tree.outline? place = some .dir :=
    (agree.dirs place).mpr ((outline?_eq_some _ _ _).mpr ⟨_, stands, rfl⟩)
  obtain ⟨(⟨_, _⟩ | _) | inside', found, same⟩ := (outline?_eq_some _ _ _).mp seen
  · cases same
  · cases same
  · exact ⟨inside', found⟩

/-- **A path leads to the same place on both disks**, if what stands there is of one kind: on the
way there are only directories. -/
theorem follow {last : Bool} {links : Nat} {way : List String} (agree : AgreeApart apart one two)
    (plain : one.tree.Plain) (leads : one.follow last links location way = .ok (.taken place item))
    (same : two.tree.outline? place = some item.aspect.outline) :
    ∃ found, two.follow last links location way = .ok (.taken place found) ∧
      found.aspect.outline = item.aspect.outline := by
  replace leads := trail_of_follow plain leads
  induction leads with
  | here =>
      obtain ⟨found, stood, kind⟩ := (outline?_eq_some _ _ _).mp same
      exact ⟨found, follow_nil stood, kind⟩
  | dot _ ih =>
      rw [follow_dot]
      exact ih same
  | up _ ih =>
      rw [follow_up]
      exact ih same
  | dir step stands _ ih =>
      obtain ⟨inside', stood⟩ := agree.dir stands
      rw [follow_dir step stood]
      exact ih same
  | file step =>
      obtain ⟨(⟨content', executable'⟩ | _) | _, stood, kind⟩ := (outline?_eq_some _ _ _).mp same
      · rw [follow_file step stood, if_pos List.isEmpty_nil]
        exact ⟨_, rfl, rfl⟩
      · cases kind
      · cases kind

private theorem locate {last : Bool} {path : String} (agree : AgreeApart apart one two)
    (plain : one.tree.Plain) (leads : one.locate last path = .ok (.taken place item))
    (same : two.tree.outline? place = some item.aspect.outline) :
    ∃ found, two.locate last path = .ok (.taken place found) ∧
      found.aspect.outline = item.aspect.outline := by
  unfold Disk.locate locateFrom at leads ⊢
  split at leads
  · cases leads
  next named =>
    rw [if_neg named, agree.here]
    exact agree.follow plain leads same

section Walk
variable {listing again : Listing} {start : String} {accepted : String → Bool} {file : SourceFile}
  (plain : one.tree.Plain) (plainTwo : two.tree.Plain) (faithful : listing.Faithful)
  (faithfulAgain : again.Faithful)
include plain plainTwo faithful faithfulAgain

/-- **A walk lists a file on both disks** or on neither, if its location looks the same on both. -/
theorem mem_enumerate (agree : AgreeApart apart one two)
    (same : two.tree.outline? file.location = one.tree.outline? file.location)
    (member : file ∈ one.enumerate listing start accepted) :
    file ∈ two.enumerate again start accepted := by
  rw [Disk.mem_enumerate plain faithful] at member
  rw [Disk.mem_enumerate plainTwo faithfulAgain]
  rcases member with ⟨location, inside, names, content, executable, leads, stands, takes, rfl⟩ |
    ⟨location, content, executable, leads, takes, rfl⟩
  · have below : one.tree.at? (location ++ names) = some (.leaf (.file content executable)) :=
      (at?_inside leads names).trans stands
    rw [SourceFile.location_below _ _ (Tree.file_ne_nil stands)] at same
    have dir : two.tree.outline? location = some .dir :=
      (agree.dirs location).mpr ((outline?_eq_some _ _ _).mpr ⟨_, at?_of_locate leads, rfl⟩)
    have file : two.tree.outline? (location ++ names) = some .file :=
      same.trans ((outline?_eq_some _ _ _).mpr ⟨_, below, rfl⟩)
    obtain ⟨(⟨_, _⟩ | _) | inside', led, kind⟩ := agree.locate plain leads dir
    · cases kind
    · cases kind
    obtain ⟨(⟨content', executable'⟩ | _) | _, stood, kind⟩ := (outline?_eq_some _ _ _).mp file
    · exact .inl ⟨location, inside', names, content', executable', led,
        (at?_inside led names).symm.trans stood, takes, rfl⟩
    · cases kind
    · cases kind
  · have present := at?_of_locate leads
    rw [SourceFile.location_alone _ (Tree.file_ne_nil present)] at same
    have file : two.tree.outline? location = some .file :=
      same.trans ((outline?_eq_some _ _ _).mpr ⟨_, present, rfl⟩)
    obtain ⟨(⟨content', executable'⟩ | _) | _, led, kind⟩ := agree.locate plain leads file
    · exact .inr ⟨location, content', executable', led, takes, rfl⟩
    · cases kind
    · cases kind

end Walk
end AgreeApart

/-! ### Alterations -/

/-- A change that concerns some locations only: files are added or rewritten there. -/
structure Alters (altered : Location → Prop) (before after : Disk) : Prop
    extends before.Gains altered after where
  plain : before.tree.Plain → after.tree.Plain
  elsewhere : ∀ location, ¬altered location →
    after.tree.aspect? location = before.tree.aspect? location

namespace Alters

/-- A disk that stays alters nowhere. -/
@[refl]
theorem refl (altered : Location → Prop) (disk : Disk) : disk.Alters altered disk :=
  ⟨.refl disk, id, fun _ _ => rfl⟩

/-- Two changes at some places are one. -/
theorem trans (first : one.Alters altered two) (second : two.Alters altered three) :
    one.Alters altered three :=
  ⟨first.toGains.trans second.toGains, second.plain ∘ first.plain, fun location outside =>
    (second.elsewhere location outside).trans (first.elsewhere location outside)⟩

/-- A change at some places is one at more places. -/
theorem mono (wider : ∀ location, altered location → other location)
    (alters : before.Alters altered after) : before.Alters other after where
  toExtends := alters.toExtends
  new location none := (alters.new location none).imp_right (And.imp_right (wider location))
  plain := alters.plain
  elsewhere location outside := alters.elsewhere location (outside ∘ wider location)

/-- A disk agrees with what it is altered into. -/
theorem agree (alters : before.Alters altered after) : AgreeApart altered before after where
  here := alters.here
  seen := alters.elsewhere
  dirs := by
    intro location
    refine ⟨fun dir => ?_, alters.kept location .dir⟩
    cases there : before.tree.outline? location with
    | none =>
        rcases alters.new location there with none | ⟨file, -⟩
        · rw [none] at dir
          cases dir
        · rw [file] at dir
          cases dir
    | some outline =>
        rw [alters.kept location outline there] at dir
        exact dir

end Alters

/-- A change to a disk that has got further: files are added or rewritten anywhere. -/
abbrev Develops (before after : Disk) : Prop :=
  before.Alters (fun _ => True) after

/-- Where no more is said than which files were added, the disk has got further. -/
theorem Gains.develops (gains : before.Gains altered after)
    (plain : before.tree.Plain → after.tree.Plain) : before.Develops after where
  toExtends := gains.toExtends
  new location vacant := (gains.new location vacant).imp_right (And.imp_right fun _ => trivial)
  plain := plain
  elsewhere _ outside := (outside trivial).elim

/-- What becomes of a disk in two ways has the same directories. -/
theorem AgreeApart.of_develops {start : Disk} (first : start.Develops one)
    (second : start.Develops two) : AgreeApart (fun _ => True) one two :=
  first.agree.symm.trans second.agree

/-- A change of the contents of files: nothing is added and nothing is removed. -/
structure Refills (before after : Disk) : Prop extends before.Gains (fun _ => False) after where
  plain : before.tree.Plain → after.tree.Plain

namespace Refills

/-- A disk that stays refills nothing. -/
@[refl]
theorem refl (disk : Disk) : disk.Refills disk :=
  ⟨.refl disk, id⟩

/-- Files that are refilled twice are refilled. -/
theorem trans (first : one.Refills two) (second : two.Refills three) : one.Refills three :=
  ⟨first.toGains.trans second.toGains, second.plain ∘ first.plain⟩

end Refills

/-- Where something stood at every altered location, only the contents of files change. -/
theorem Alters.refills (alters : before.Alters altered after)
    (occupied : ∀ location, altered location → before.tree.outline? location ≠ none) :
    before.Refills after where
  toExtends := alters.toExtends
  new location none := by
    rcases alters.new location none with still | ⟨-, inside⟩
    · exact .inl still
    · exact (occupied location inside none).elim
  plain := alters.plain

/-- A new file in a directory. -/
theorem alters_put_new {directory : Location} {inside : Tree} {name : String}
    (plain : disk.tree.Plain) (present : disk.tree.at? directory = some (.dir inside))
    (free : inside.find? name = none) (spelled : IsName name) (content : Bytes) :
    disk.Alters (· = directory ++ [name])
      { disk with tree := disk.tree.put (directory ++ [name]) (.leaf (.file content false)) } where
  toExtends := extends_put present free trivial
  new := by
    intro location vacant
    dsimp only
    have bare : (Item.leaf (.file content false)).Bare := trivial
    rw [Tree.outline?_put present free bare]
    by_cases same : directory ++ [name] = location
    · rw [if_pos same]
      exact .inr ⟨rfl, same.symm⟩
    · rw [if_neg same]
      exact .inl vacant
  plain := by
    intro _
    refine Tree.Formed.put plain (fun step member => ?_) trivial
    rcases List.mem_append.mp member with above | last
    · exact (plain.of_at? present).1 step above
    · obtain rfl := List.mem_singleton.mp last
      exact spelled
  elsewhere := by
    intro location outside
    have bare : (Item.leaf (.file content false)).Bare := trivial
    dsimp only
    rw [Tree.aspect?_put_new present free bare, if_neg (Ne.symm outside)]

/-! ### What became of a location -/

/-- A file was made where nothing stood. -/
def Creates (before after : Disk) (location : Location) : Prop :=
  before.tree.aspect? location = none ∧
    ∃ content, after.tree.aspect? location = some (.file content)

/-- A file was given another content. -/
def Rewrites (before after : Disk) (location : Location) : Prop :=
  ∃ old new, before.tree.aspect? location = some (.file old) ∧
    after.tree.aspect? location = some (.file new) ∧ new ≠ old

/-- Neither locked nor a directory. -/
def Writable (disk : Disk) (location : Location) : Prop :=
  disk.locked location = false ∧ disk.tree.aspect? location ≠ some .dir

/-- There are no links in a plain tree. -/
theorem aspect?_ne_link (plain : disk.tree.Plain) (location : Location)
    (target : String) : disk.tree.aspect? location ≠ some (.link target) := by
  intro link
  obtain ⟨item, stands, same⟩ := Option.map_eq_some_iff.mp link
  rcases item with (⟨_, _⟩ | _) | _
  · cases same
  · exact at?_ne_link plain _ _ stands
  · cases same

/-- What is rewritten is at one of the places that may be altered. -/
theorem Alters.altered_of_rewrites (alters : before.Alters altered after)
    (rewrites : before.Rewrites after location) : altered location := by
  obtain ⟨old, new, stood, stands, different⟩ := rewrites
  by_contra outside
  rw [alters.elsewhere location outside, stood] at stands
  cases stands
  exact different rfl

/-- What changes is a file that was made or rewritten. -/
theorem Alters.creates_or_rewrites (alters : before.Alters altered after)
    (plain : before.tree.Plain)
    (changed : after.tree.aspect? location ≠ before.tree.aspect? location) :
    before.Creates after location ∨ before.Rewrites after location := by
  have outline {aspect : Aspect} {disk : Disk} (seen : disk.tree.aspect? location = some aspect) :
      disk.tree.outline? location = some aspect.outline := by
    rw [Tree.outline?, seen]
    rfl
  rcases stood : before.tree.aspect? location with _ | (old | target | _)
  · left
    rcases stands : after.tree.aspect? location with _ | (content | target | _)
    · exact (changed (stands.trans stood.symm)).elim
    · exact ⟨stood, content, stands⟩
    · exact (aspect?_ne_link (alters.plain plain) _ _ stands).elim
    · obtain ⟨inside, seen, -⟩ := Option.map_eq_some_iff.mp
        ((alters.agree.dirs location).mp (outline stands))
      rw [stood] at seen
      cases seen
  · right
    have kept := alters.kept location _ (outline stood)
    obtain ⟨new | target | _, stands, same⟩ := Option.map_eq_some_iff.mp kept
    · refine ⟨old, new, stood, stands, ?_⟩
      rintro rfl
      exact changed (stands.trans stood.symm)
    · cases same
    · cases same
  · exact (aspect?_ne_link plain _ _ stood).elim
  · have kept := alters.kept location _ (outline stood)
    obtain ⟨new | target | _, stands, same⟩ := Option.map_eq_some_iff.mp kept
    · cases same
    · cases same
    · exact (changed (stands.trans stood.symm)).elim

end Disk
end BuildWarden
