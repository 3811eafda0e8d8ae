import Mathlib.Algebra.Group.Nat.Defs
import Mathlib.Data.List.Basic
import Mathlib.Tactic.Common

/-!
# Reading Numbers in the Style of Go's `strconv` Package

`atoi` reads a decimal integer of 64 bits, with an optional sign; `parseBool` reads the spellings
of a truth value. Both fail on any other text.

## Main results

* `atoi_eq_some_iff_of_unsigned`: a text without a sign is read if it is a run of digits, up to
  the largest integer.
-/

namespace GoStrconv

/-- The largest integer. -/
def maxInt : Nat := 2 ^ 63 - 1

/-- The digits of a number in base ten, at least one. -/
def isDigits (cs : List Char) : Bool := !cs.isEmpty && cs.all Char.isDigit

/-- The number that digits stand for. -/
def digitsValue (cs : List Char) : Nat := Nat.ofDigitChars 10 cs 0

/-- `strconv.Atoi`. -/
def atoi (s : String) : Option Int :=
  match s.toList with
  | '-' :: cs =>
      if isDigits cs && digitsValue cs ≤ maxInt + 1 then some (-(digitsValue cs : Int)) else none
  | '+' :: cs =>
      if isDigits cs && digitsValue cs ≤ maxInt then some (digitsValue cs) else none
  | cs => if isDigits cs && digitsValue cs ≤ maxInt then some (digitsValue cs) else none

/-- `strconv.ParseBool`. -/
def parseBool (s : String) : Option Bool :=
  if s ∈ ["1", "t", "T", "TRUE", "true", "True"] then some true
  else if s ∈ ["0", "f", "F", "FALSE", "false", "False"] then some false
  else none

/-- The text of a natural number: a run of digits. -/
structure Spells (s : String) (n : Nat) : Prop where
  nonempty : s ≠ ""
  digits : ∀ c ∈ s.toList, c.isDigit = true
  value : digitsValue s.toList = n

/-- A run of digits, as a test. -/
theorem isDigits_iff {cs : List Char} :
    isDigits cs = true ↔ cs ≠ [] ∧ ∀ c ∈ cs, c.isDigit = true := by
  rw [isDigits, Bool.and_eq_true, Bool.not_eq_true', List.isEmpty_eq_false_iff, List.all_eq_true]

/-- A text without a sign is read if it is a run of digits, up to the largest integer. -/
theorem atoi_eq_some_iff_of_unsigned {s : String} {x : Int} (hminus : '-' ∉ s.toList)
    (hplus : '+' ∉ s.toList) :
    atoi s = some x ↔ ∃ n : Nat, Spells s n ∧ n ≤ maxInt ∧ x = n := by
  have hread : atoi s = if isDigits s.toList && digitsValue s.toList ≤ maxInt
      then some (digitsValue s.toList : Int) else none := by
    rw [atoi]
    split
    · next heq => exact absurd (heq ▸ List.mem_cons_self) hminus
    · next heq => exact absurd (heq ▸ List.mem_cons_self) hplus
    · rfl
  rw [hread, Option.ite_none_right_eq_some, Bool.and_eq_true, decide_eq_true_iff, isDigits_iff,
    Option.some.injEq]
  constructor
  · rintro ⟨⟨⟨hne, hdigits⟩, hle⟩, rfl⟩
    exact ⟨_, ⟨fun h => hne (by rw [h, String.toList_empty]), hdigits, rfl⟩, hle, rfl⟩
  · rintro ⟨n, ⟨hne, hdigits, rfl⟩, hle, rfl⟩
    exact ⟨⟨⟨fun h => hne (String.toList_eq_nil_iff.mp h), hdigits⟩, hle⟩, rfl⟩

/-- A character that is no digit does not stand in a run of digits. -/
theorem Spells.notMem {s : String} {n : Nat} (h : Spells s n) {c : Char}
    (hc : c.isDigit = false) : c ∉ s.toList := by
  intro hmem
  rw [h.digits c hmem] at hc
  exact Bool.noConfusion hc

end GoStrconv
