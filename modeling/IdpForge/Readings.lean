import Mathlib.Algebra.Order.Ring.Int
import Mathlib.Data.List.Chain

/-!
# Readings of a Counter

A counter is read from time to time, and what it grew by is told from each reading and the next.
A counter that has fallen in between was reset, and tells nothing of what it had counted.

## Main results

* `getElem?_steps`: which step is made of which elements.
* `sum_steps_le`, `sum_steps_eq`: what each step stays within, or is, the whole does.
-/

namespace Readings

variable {α β : Type*}

/-- What is made of each element and the next one. -/
def steps (f : α → α → β) : List α → List β
  | a :: b :: rest => f a b :: steps f (b :: rest)
  | _ => []

/-- What a counter has grown by from one reading to the next, if it was not reset. -/
def increase (before after : Int) : Int := max 0 (after - before)

/-- The steps of elements made of others. -/
theorem steps_map {γ : Type*} (f : β → β → γ) (g : α → β) (xs : List α) :
    steps f (xs.map g) = steps (fun a b => f (g a) (g b)) xs := by
  induction xs with
  | nil => rfl
  | cons a xs ih =>
      cases xs with
      | nil => rfl
      | cons b rest =>
          rw [List.map_cons, List.map_cons, steps, steps, ← List.map_cons, ih]

/-- What is made of the steps. -/
theorem map_steps {γ : Type*} (f : α → α → β) (g : β → γ) (xs : List α) :
    (steps f xs).map g = steps (fun a b => g (f a b)) xs := by
  induction xs with
  | nil => rfl
  | cons a xs ih =>
      cases xs with
      | nil => rfl
      | cons b rest => rw [steps, steps, List.map_cons, ih]

/-- A step is made of the elements at its two ends. -/
theorem getElem?_steps {f : α → α → β} {xs : List α} {i : Nat} {a b : α} (ha : xs[i]? = some a)
    (hb : xs[i + 1]? = some b) : (steps f xs)[i]? = some (f a b) := by
  induction xs generalizing i with
  | nil => simp at ha
  | cons c xs ih =>
      cases xs with
      | nil => simp at hb
      | cons d rest =>
          cases i with
          | zero =>
              rw [List.getElem?_cons_zero, Option.some.injEq] at ha
              rw [List.getElem?_cons_succ, List.getElem?_cons_zero, Option.some.injEq] at hb
              rw [steps, List.getElem?_cons_zero, ha, hb]
          | succ i =>
              rw [List.getElem?_cons_succ] at ha hb
              rw [steps, List.getElem?_cons_succ]
              exact ih ha hb

variable {f : α → α → Int} {g : α → Int}

/-- **Steps within the growth of a quantity** add up to no more than it has grown by. -/
theorem sum_steps_le {a b : α} {xs : List α} (hlast : (a :: xs).getLast? = some b)
    (h : (a :: xs).IsChain fun a b => f a b ≤ g b - g a) :
    (steps f (a :: xs)).sum ≤ g b - g a := by
  induction xs generalizing a with
  | nil =>
      rw [List.getLast?_singleton, Option.some.injEq] at hlast
      rw [hlast, sub_self]
      exact le_refl _
  | cons c xs ih =>
      rw [List.isChain_cons_cons] at h
      rw [List.getLast?_cons_cons] at hlast
      have hrest := ih hlast h.2
      have hstep := h.1
      rw [steps, List.sum_cons]
      omega

/-- **Steps that are the growth of a quantity** add up to what it has grown by. -/
theorem sum_steps_eq {a b : α} {xs : List α} (hlast : (a :: xs).getLast? = some b)
    (h : (a :: xs).IsChain fun a b => f a b = g b - g a) :
    (steps f (a :: xs)).sum = g b - g a := by
  induction xs generalizing a with
  | nil =>
      rw [List.getLast?_singleton, Option.some.injEq] at hlast
      rw [hlast, sub_self]
      rfl
  | cons c xs ih =>
      rw [List.isChain_cons_cons] at h
      rw [List.getLast?_cons_cons] at hlast
      have hrest := ih hlast h.2
      have hstep := h.1
      rw [steps, List.sum_cons]
      omega

end Readings
