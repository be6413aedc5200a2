import BuildWarden.Proofs.Tree.Enumerate
/-!
# Where paths lead

Without links the place that a path leads to can be read off the path: a dot stays, two dots drop a
name and every other step adds one.
-/

namespace BuildWarden

namespace Path

/-- Where steps lead from a directory when no link is on the way: a dot stays, two dots drop a name,
and every other step adds one. -/
def walk (place : Location) : List String → Location
  | [] => place
  | "." :: rest => walk place rest
  | ".." :: rest => walk place.dropLast rest
  | name :: rest => walk (place ++ [name]) rest

/-- Where a path leads from a directory when no link is on the way. -/
def target (here : Location) (path : String) : Location :=
  walk (if isAbsolute path then [] else here) (Disk.steps path)

/-- Walking on by a name goes into it. -/
theorem walk_name (place : Location) {name : String} (spelled : IsName name)
    (rest : List String) : walk place (name :: rest) = walk (place ++ [name]) rest := by
  rw [walk]
  · exact spelled.2.1
  · exact spelled.2.2.1

private theorem walk_step (place : Location) {name : String} (step : Disk.IsStep name)
    (rest : List String) : walk place (name :: rest) = walk (place ++ [name]) rest := by
  rw [walk]
  · exact step.1
  · exact step.2

/-- A walk can be gone in two parts. -/
theorem walk_append (place : Location) (front back : List String) :
    walk place (front ++ back) = walk (walk place front) back := by
  fun_induction walk place front with
  | case1 place => rfl
  | case2 place rest ih => exact ih
  | case3 place rest ih => exact ih
  | case4 place name rest plain upward ih =>
      rw [List.cons_append, walk]
      · exact ih
      · exact plain
      · exact upward

/-- Steps without two dots only add names. -/
theorem walk_down (place : Location) {steps : List String} (down : ".." ∉ steps) :
    walk place steps = place ++ steps.filter (· != ".") := by
  fun_induction walk place steps with
  | case1 place => simp
  | case2 place rest ih =>
      rw [ih (fun member => down (List.mem_cons_of_mem _ member))]
      simp
  | case3 place rest ih => exact (down (by simp)).elim
  | case4 place name rest plain upward ih =>
      rw [ih (fun member => down (List.mem_cons_of_mem _ member))]
      simp [show name ≠ "." from plain]

/-- Dots are of no account. -/
theorem walk_filter (place : Location) (steps : List String) :
    walk place (steps.filter (· != ".")) = walk place steps := by
  fun_induction walk place steps with
  | case1 place => rfl
  | case2 place rest ih =>
      rw [List.filter_cons_of_neg (by simp)]
      exact ih
  | case3 place rest ih =>
      rw [List.filter_cons_of_pos (by simp), walk]
      exact ih
  | case4 place name rest plain upward ih =>
      have step : Disk.IsStep name := ⟨plain, upward⟩
      rw [List.filter_cons_of_pos (by simpa using step.1), walk_step place step]
      exact ih

/-- Where steps lead is made of what is left of the start and of some of the steps, in order. -/
theorem exists_walk_eq (place : Location) (steps : List String) :
    ∃ kept added, walk place steps = kept ++ added ∧ kept <+: place ∧ added.Sublist steps := by
  fun_induction walk place steps with
  | case1 place => exact ⟨place, [], by simp, List.prefix_refl place, List.nil_sublist _⟩
  | case2 place rest ih =>
      obtain ⟨kept, added, same, front, some⟩ := ih
      exact ⟨kept, added, same, front, some.cons _⟩
  | case3 place rest ih =>
      obtain ⟨kept, added, same, front, some⟩ := ih
      exact ⟨kept, added, same, front.trans (List.dropLast_prefix place), some.cons _⟩
  | case4 place name rest plain upward ih =>
      obtain ⟨kept, added, same, front, some⟩ := ih
      rcases List.prefix_concat_iff.mp front with whole | shorter
      · refine ⟨place, name :: added, ?_, List.prefix_refl place, some.cons_cons name⟩
        rw [same, whole, List.append_assoc, List.singleton_append]
      · exact ⟨kept, added, same, shorter, some.cons _⟩

/-- **Names below the start of a walk are among its steps**, in order. -/
theorem sublist_of_walk {place names : Location} {steps : List String}
    (leads : walk place steps = place ++ names) : names.Sublist steps := by
  obtain ⟨kept, added, same, ⟨rest, rfl⟩, some⟩ := exists_walk_eq place steps
  rw [same, List.append_assoc] at leads
  have whole := List.append_cancel_left leads
  rw [whole] at some
  exact (List.sublist_append_right rest names).trans some

/-- The target of a path is where its steps lead, from the top or from here. -/
theorem target_eq (here : Location) (path : String) :
    target here path = walk (if isAbsolute path then [] else here) (Disk.stepsThrough path) := by
  rw [target, Disk.steps_eq, walk_append]
  by_cases slash : (pieces path).getLast? = some []
  · rw [if_pos slash, walk, walk]
  · rw [if_neg slash, walk]

/-- A path that is joined to another one leads on from there. -/
theorem target_join (here : Location) (base : String) {path : String}
    (relative : isAbsolute path = false) :
    target here (join base path) = walk (target here base) (Disk.steps path) := by
  unfold target
  rw [Disk.isAbsolute_join base relative, Disk.steps_join base relative, Disk.steps_eq base,
    walk_append, walk_append]
  by_cases slash : (pieces base).getLast? = some []
  · rw [if_pos slash, walk, walk]
  · rw [if_neg slash, walk]

end Path

namespace Disk
variable {disk : Disk} {last : Bool} {links : Nat} {location place : Location} {way : List String}
  {path : String} {item : Item} (plain : disk.tree.Plain)
include plain

/-- Steps lead where their names say. -/
theorem walk_of_follow (leads : disk.follow last links location way = .ok (.taken place item)) :
    place = Path.walk location way := by
  replace leads := trail_of_follow plain leads
  induction leads with
  | here => rfl
  | dot _ ih => rwa [Path.walk]
  | up _ ih => rwa [Path.walk]
  | dir step _ _ ih => rwa [Path.walk_step _ step]
  | file step => rw [Path.walk_step _ step, Path.walk]

/-- In a plain tree a path leads to its target. -/
theorem target_of_locate (leads : disk.locate last path = .ok (.taken place item)) :
    place = Path.target disk.here path := by
  unfold locate locateFrom at leads
  split at leads
  · cases leads
  · exact walk_of_follow plain leads

end Disk
end BuildWarden
