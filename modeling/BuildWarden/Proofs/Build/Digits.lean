import BuildWarden.Build.Jobs
import BuildWarden.Toml.Number
import Mathlib.Data.List.Basic
/-!
# Values of digits

A sequence of decimal digits is a number of any size; without a digit, or with anything else among
the digits, there is no number. An integer may have a sign in front of its digits.
-/

namespace BuildWarden
variable {digits cs : List Char} {value : Nat} {count : Int}

/-- The value of decimal digits is the one that the library gives them. -/
theorem Toml.decimalValue_eq (digits : List Char) :
    decimalValue digits = Nat.ofDigitChars 10 digits 0 := by
  unfold decimalValue Nat.ofDigitChars
  congr 1
  funext value c
  rw [Nat.mul_comm]

/-- Characters have a value if there are some and all are digits: the value of these digits. -/
theorem JobRequest.digitsValue?_eq_some_iff :
    digitsValue? digits = some value ↔
      digits ≠ [] ∧ (∀ c ∈ digits, c.isDigit = true) ∧ Nat.ofDigitChars 10 digits 0 = value := by
  have same : digits.foldl (fun value c => value * 10 + (c.toNat - '0'.toNat)) 0 =
      Nat.ofDigitChars 10 digits 0 := Toml.decimalValue_eq digits
  unfold digitsValue?
  rw [same]
  split
  next improper =>
    rw [Bool.or_eq_true, List.isEmpty_iff, List.any_eq_true] at improper
    constructor
    · intro read
      cases read
    · rintro ⟨something, proper, -⟩
      rcases improper with nothing | ⟨c, member, other⟩
      · exact (something nothing).elim
      · rw [proper c member] at other
        cases other
  next proper =>
    rw [Bool.or_eq_true, List.isEmpty_iff, List.any_eq_true, not_or, not_exists] at proper
    rw [Option.some.injEq]
    constructor
    · intro same
      refine ⟨proper.1, fun c member => ?_, same⟩
      simpa [member] using proper.2 c
    · intro all
      exact all.2.2

/-- An integer is a sequence of digits, behind a sign or not. -/
theorem JobRequest.integer?_eq_some (read : integer? cs = some count) :
    ∃ digits value, digitsValue? digits = some value ∧
      ((cs = '-' :: digits ∧ count = -(value : Int)) ∨ (cs = '+' :: digits ∧ count = value) ∨
        (cs = digits ∧ count = value)) := by
  unfold integer? at read
  split at read
  next digits =>
    obtain ⟨signed, bound, rfl⟩ := Option.map_eq_some_iff.mp read
    obtain ⟨value, parsed, same⟩ := Option.bind_eq_some_iff.mp bound
    cases same
    exact ⟨digits, value, parsed, .inl ⟨rfl, rfl⟩⟩
  next digits =>
    obtain ⟨value, parsed, rfl⟩ := Option.map_eq_some_iff.mp read
    exact ⟨digits, value, parsed, .inr (.inl ⟨rfl, rfl⟩)⟩
  next =>
    obtain ⟨value, parsed, rfl⟩ := Option.map_eq_some_iff.mp read
    exact ⟨cs, value, parsed, .inr (.inr ⟨rfl, rfl⟩)⟩

end BuildWarden
