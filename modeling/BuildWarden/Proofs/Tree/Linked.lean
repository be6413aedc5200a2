import BuildWarden.Proofs.Tree.Follow
/-!
# Paths through links

A path that leads to a directory can be gone on from there, though links may have been followed on
the way: these count for what comes later. Names that are gone on with lead down through directories
only, so what they lead to does not depend on how many links there were.
-/

namespace BuildWarden.Disk
variable {disk : Disk} {last : Bool} {links : Nat} {location place : Location} {item : Item}

/-- A way that leads to a directory can be gone on from there, without a dot at its end. Some of the
links that may be followed are used up then. -/
theorem follow_through {way dots : List String} {inside : Tree} (idle : dots = [] ∨ dots = ["."])
    (leads : disk.follow true links location (way ++ dots) = .ok (.taken place (.dir inside)))
    (further : List String) :
    ∃ left, disk.follow true links location (way ++ further) =
      disk.follow true left place further := by
  fun_induction disk.follow true links location way with
  | case1 links location found stands =>
      have there : disk.follow true links location dots = .ok (.taken location found) := by
        rcases idle with rfl | rfl
        · exact follow_nil stands
        · rw [follow_dot, follow_nil stands]
      obtain ⟨rfl, -⟩ : location = place ∧ found = .dir inside := by
        simpa [there] using leads
      exact ⟨links, rfl⟩
  | case2 links location stands =>
      have missing : disk.follow true links location dots = .error .missing := by
        rcases idle with rfl | rfl
        · rw [follow, stands]
        · rw [follow_dot, follow, stands]
      rw [List.nil_append, missing] at leads
      cases leads
  | case3 links location rest ih =>
      rw [List.cons_append, follow_dot] at leads ⊢
      exact ih leads
  | case4 links location rest ih =>
      rw [List.cons_append, follow_up] at leads ⊢
      exact ih leads
  | case5 links location name rest dot up next vacant
  | case6 links location name rest dot up next vacant =>
      rw [List.cons_append, follow_none ⟨dot, up⟩ vacant] at leads
      split at leads <;> cases leads
  | case7 links location name rest dot up next within stands ih =>
      rw [List.cons_append, follow_dir ⟨dot, up⟩ stands] at leads ⊢
      exact ih leads
  | case8 links location name rest dot up next content executable stands
  | case9 links location name rest dot up next content executable stands =>
      rw [List.cons_append, follow_file ⟨dot, up⟩ stands] at leads
      split at leads <;> cases leads
  | case10 links location name rest dot up next target stands ended => simp at ended
  | case11 location name rest dot up next target stands =>
      have there : disk.tree.at? (location ++ [name]) = some (.leaf (.link target)) := stands
      rw [List.cons_append, follow] at leads
      · simp [there] at leads
      · exact dot
      · exact up
  | case12 location name rest dot up next target stands followed links nameless =>
      have there : disk.tree.at? (location ++ [name]) = some (.leaf (.link target)) := stands
      rw [List.cons_append, follow] at leads
      · simp [there, nameless] at leads
      · exact dot
      · exact up
  | case13 location name rest dot up next target stands followed links named ih =>
      rw [List.cons_append, follow_link ⟨dot, up⟩ stands (by simp) named, ← List.append_assoc]
        at leads ⊢
      exact ih leads

/-- Names lead down to what stands there, if this is no link. -/
theorem follow_down {names : List String} (spelled : ∀ name ∈ names, IsName name)
    (stands : disk.tree.at? (location ++ names) = some item)
    (unlinked : ∀ target, item ≠ .leaf (.link target)) :
    disk.follow last links location names = .ok (.taken (location ++ names) item) := by
  induction names generalizing location with
  | nil =>
      rw [List.append_nil] at stands ⊢
      exact follow_nil stands
  | cons name rest ih =>
      obtain ⟨first, others⟩ := List.forall_mem_cons.mp spelled
      have step : IsStep name := ⟨first.2.1, first.2.2.1⟩
      have split : location ++ name :: rest = (location ++ [name]) ++ rest := by simp
      rw [split] at stands ⊢
      obtain ⟨entry, here, below⟩ := Option.bind_eq_some_iff.mp
        ((Tree.at?_append _ _ _).symm.trans stands)
      match entry, rest with
      | .dir inside, _ =>
          rw [follow_dir step here]
          exact ih others stands
      | .leaf (.link target), [] =>
          cases below
          exact (unlinked target rfl).elim
      | .leaf (.file content executable), [] =>
          cases below
          rw [List.append_nil, follow_file step here]
          rfl
      | .leaf _, _ :: _ => cases below

/-- **A path to a directory leads on to what is below**, if this is no link. -/
theorem locate_down {start : String} {inside : Tree} {names : List String}
    (leads : disk.locate true start = .ok (.taken place (.dir inside)))
    (spelled : ∀ name ∈ names, IsName name)
    (stands : disk.tree.at? (place ++ names) = some item)
    (unlinked : ∀ target, item ≠ .leaf (.link target)) (some : names ≠ []) :
    disk.locate true (names.foldl Path.join start) = .ok (.taken (place ++ names) item) := by
  have steps := steps_foldl_join start spelled some
  obtain ⟨front, final, shape⟩ := (List.eq_nil_or_concat names).resolve_left some
  have named : names.foldl Path.join start ≠ "" := by
    have ends : Disk.steps (names.foldl Path.join start) =
        (stepsThrough start ++ front) ++ [final] := by
      rw [steps, shape, List.concat_eq_append, List.append_assoc]
    exact ne_empty_of_steps (spelled final (by simp [shape])) ends
  unfold locate locateFrom at leads ⊢
  rw [if_neg (by simpa using named), isAbsolute_foldl_join start spelled, steps]
  split at leads
  · cases leads
  · rw [steps_eq] at leads
    obtain ⟨left, goes⟩ := follow_through (by split <;> simp) leads names
    rw [goes, follow_down spelled stands unlinked]

end BuildWarden.Disk
