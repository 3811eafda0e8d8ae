import Mathlib.Data.List.Basic
import Mathlib.Data.List.Infix

/-!
# Cutting a Text at the First Occurrence of a Separator

A separator is a list of any length that is not empty. Where it first occurs is told by what stands
before its end alone, so what follows may be replaced or extended; and a part in front in which no
occurrence can begin only shifts it.

## Main results

* `cutAt_eq_some`, `cutAt_eq_none_iff`: the parts of a cut, and when there is none.
* `cutAt_replace`, `cutAt_append`: what follows the separator is replaced, or extended.
* `cutAt_shift`: a part in front without the first element of the separator.
* `cutAt_append_of_eq_none`: a text without the separator, and an element that is not in it.
* `cutAt_singleton_iff`: a separator of one element.
-/

namespace FirstOccurrence

variable {α : Type*} {sep l a b : List α} {x : α}

/-- A separator that ends before an element that is not in it. -/
theorem prefix_of_prefix_append_cons {r : List α} (hx : x ∉ sep) (h : sep <+: l ++ x :: r) :
    sep <+: l := by
  by_cases hlen : sep.length ≤ l.length
  · exact List.prefix_of_prefix_length_le h (List.prefix_append l _) hlen
  · have hlong : l ++ [x] <+: sep := by
      refine List.prefix_of_prefix_length_le ?_ h ?_
      · exact ⟨r, by rw [List.append_assoc, List.singleton_append]⟩
      · rw [List.length_append, List.length_singleton]
        omega
    exact absurd (hlong.subset (List.mem_append_right l List.mem_cons_self)) hx

variable [DecidableEq α]

/-- The parts before and after the first occurrence of a separator. -/
def cutAt (sep l : List α) : Option (List α × List α) :=
  if sep.isPrefixOf l then some ([], l.drop sep.length)
  else
    match l with
    | [] => none
    | x :: xs => (cutAt sep xs).map (Prod.map (x :: ·) id)

/-- A text that begins with the separator is cut there. -/
theorem cutAt_begins (sep b : List α) : cutAt sep (sep ++ b) = some ([], b) := by
  rw [cutAt.eq_def, if_pos (List.isPrefixOf_iff_prefix.mpr (List.prefix_append sep b)),
    List.drop_left]

/-- A text that does not begin with the separator is cut behind its first element. -/
theorem cutAt_cons (h : ¬ sep <+: x :: l) :
    cutAt sep (x :: l) = (cutAt sep l).map (Prod.map (x :: ·) id) := by
  rw [cutAt.eq_def, if_neg (fun hp => h (List.isPrefixOf_iff_prefix.mp hp))]

/-- The two cases of a cut. -/
theorem cutAt_eq_some_cases (h : cutAt sep l = some (a, b)) :
    (a = [] ∧ l = sep ++ b) ∨
      ∃ x a' xs, a = x :: a' ∧ l = x :: xs ∧ ¬ sep <+: x :: xs ∧ cutAt sep xs = some (a', b) := by
  by_cases hprefix : sep <+: l
  · obtain ⟨t, rfl⟩ := hprefix
    rw [cutAt_begins, Option.some.injEq, Prod.mk.injEq] at h
    exact .inl ⟨h.1.symm, by rw [h.2]⟩
  · cases l with
    | nil =>
        rw [cutAt.eq_def, if_neg (fun hp => hprefix (List.isPrefixOf_iff_prefix.mp hp))] at h
        exact absurd h (Option.some_ne_none _).symm
    | cons x xs =>
        rw [cutAt_cons hprefix, Option.map_eq_some_iff] at h
        obtain ⟨⟨a', b'⟩, hcut, heq⟩ := h
        obtain ⟨rfl, rfl⟩ := Prod.mk.inj heq
        exact .inr ⟨x, a', xs, rfl, rfl, hprefix, hcut⟩

/-- The parts of a cut make up the text. -/
theorem cutAt_eq_some (h : cutAt sep l = some (a, b)) : l = a ++ (sep ++ b) := by
  induction a generalizing l with
  | nil =>
      rcases cutAt_eq_some_cases h with ⟨-, hl⟩ | ⟨_, _, _, ha, -⟩
      · exact hl
      · exact absurd ha.symm (List.cons_ne_nil _ _)
  | cons x a ih =>
      rcases cutAt_eq_some_cases h with ⟨ha, -⟩ | ⟨y, a', xs, ha, rfl, -, hcut⟩
      · exact absurd ha (List.cons_ne_nil x a)
      · obtain ⟨rfl, rfl⟩ := List.cons.inj ha
        rw [ih hcut, List.cons_append]

/-- What follows the separator may be replaced. -/
theorem cutAt_replace (h : cutAt sep l = some (a, b)) (c : List α) :
    cutAt sep (a ++ (sep ++ c)) = some (a, c) := by
  induction a generalizing l with
  | nil => exact cutAt_begins sep c
  | cons x a ih =>
      rcases cutAt_eq_some_cases h with ⟨ha, -⟩ | ⟨y, a', xs, ha, rfl, hprefix, hcut⟩
      · exact absurd ha (List.cons_ne_nil x a)
      · obtain ⟨rfl, rfl⟩ := List.cons.inj ha
        have hno : ¬ sep <+: x :: (a ++ (sep ++ c)) := by
          intro hsep
          -- an occurrence at the front would end before the one that is cut at does
          have hshort : sep <+: x :: (a ++ sep) := by
            refine List.prefix_of_prefix_length_le hsep ?_ ?_
            · rw [← List.append_assoc]
              exact List.prefix_append (x :: (a ++ sep)) c
            · simp only [List.length_cons, List.length_append]
              omega
          refine hprefix (hshort.trans ?_)
          rw [cutAt_eq_some hcut, ← List.append_assoc]
          exact List.prefix_append (x :: (a ++ sep)) b
        rw [List.cons_append, cutAt_cons hno, ih hcut]
        rfl

/-- What follows the separator may be extended. -/
theorem cutAt_append (h : cutAt sep l = some (a, b)) (c : List α) :
    cutAt sep (l ++ c) = some (a, b ++ c) := by
  rw [cutAt_eq_some h, List.append_assoc, List.append_assoc]
  exact cutAt_replace h (b ++ c)

/-- There is no cut where the separator does not occur. -/
theorem cutAt_eq_none_iff : cutAt sep l = none ↔ ¬ sep <:+: l := by
  constructor
  · rintro h ⟨s, t, rfl⟩
    induction s with
    | nil =>
        rw [List.nil_append, cutAt_begins] at h
        exact absurd h (Option.some_ne_none _)
    | cons x s ih =>
        by_cases hprefix : sep <+: x :: (s ++ sep ++ t)
        · obtain ⟨u, hu⟩ := hprefix
          rw [List.cons_append, List.cons_append, ← hu, cutAt_begins] at h
          exact absurd h (Option.some_ne_none _)
        · rw [List.cons_append, List.cons_append, cutAt_cons hprefix, Option.map_eq_none_iff] at h
          exact ih h
  · intro h
    rcases hcut : cutAt sep l with _ | ⟨a, b⟩
    · rfl
    · exact absurd ⟨a, b, by rw [cutAt_eq_some hcut, List.append_assoc]⟩ h

/-- No text without the first element of the separator begins an occurrence. -/
theorem cutAt_shift {y : α} {ys u : List α} (hu : y ∉ u) (l : List α) :
    cutAt (y :: ys) (u ++ l) = (cutAt (y :: ys) l).map (Prod.map (u ++ ·) id) := by
  induction u with
  | nil =>
      rw [List.nil_append]
      cases cutAt (y :: ys) l <;> rfl
  | cons x u ih =>
      rw [List.mem_cons, not_or] at hu
      have hno : ¬ y :: ys <+: x :: (u ++ l) := fun h => hu.1 (List.cons_prefix_cons.mp h).1
      rw [List.cons_append, cutAt_cons hno, ih hu.2, Option.map_map]
      rfl

/-- Where the separator does not occur in a text, it occurs after what follows the text. -/
theorem cutAt_append_of_eq_none (hne : sep ≠ []) (hx : x ∉ sep) (h : cutAt sep l = none)
    (r : List α) :
    cutAt sep (l ++ x :: r) = (cutAt sep r).map (Prod.map (l ++ x :: ·) id) := by
  induction l with
  | nil =>
      have hno : ¬ sep <+: [] ++ x :: r :=
        fun hp => hne (List.prefix_nil.mp (prefix_of_prefix_append_cons hx hp))
      exact cutAt_cons hno
  | cons y l ih =>
      have hno : ¬ sep <+: y :: (l ++ x :: r) := by
        intro hp
        have hfront : sep <+: y :: l := prefix_of_prefix_append_cons hx hp
        exact cutAt_eq_none_iff.mp h hfront.isInfix
      have hrest : cutAt sep l = none :=
        cutAt_eq_none_iff.mpr fun hocc =>
          cutAt_eq_none_iff.mp h (hocc.trans (List.suffix_cons y l).isInfix)
      rw [List.cons_append, cutAt_cons hno, ih hrest, Option.map_map]
      rfl

/-- A separator of one element that is not in the first part. -/
theorem cutAt_singleton (hx : x ∉ a) (b : List α) : cutAt [x] (a ++ x :: b) = some (a, b) := by
  have hcut : cutAt [x] (x :: b) = some ([], b) := cutAt_begins [x] b
  rw [cutAt_shift hx, hcut]
  simp

/-- A separator of one element. -/
theorem cutAt_singleton_iff : cutAt [x] l = some (a, b) ↔ l = a ++ x :: b ∧ x ∉ a := by
  constructor
  · intro h
    have hl : l = a ++ x :: b := cutAt_eq_some h
    refine ⟨hl, fun hmem => ?_⟩
    obtain ⟨c, d, rfl, hc⟩ := List.eq_append_cons_of_mem hmem
    rw [hl, List.append_assoc, List.cons_append, cutAt_singleton hc, Option.some.injEq,
      Prod.mk.injEq] at h
    have hlen := congrArg List.length h.1
    rw [List.length_append, List.length_cons] at hlen
    omega
  · rintro ⟨rfl, hx⟩
    exact cutAt_singleton hx b

/-- A separator of one element that does not occur. -/
theorem cutAt_singleton_eq_none_iff : cutAt [x] l = none ↔ x ∉ l := by
  rw [cutAt_eq_none_iff, List.singleton_infix_iff]

end FirstOccurrence
