import Mathlib.Data.List.Basic
import Mathlib.Algebra.Order.Ring.Nat
import Mathlib.Algebra.Order.BigOperators.Group.List

/-!
# Folder Wildcards as Languages

A pattern over an alphabet with a separator `sep` and a wildcard letter `star` is one of
three things: the single letter `star`, which stands for every word; a word `q` followed by
`sep, star`, which stands for `q` and for every word below `q`; or any other word, which
stands for itself. `Covers p r` says that the pattern `p` stands for the word `r`.

Patterns are themselves words, so one may ask whether `q` covers the *word* `p` or whether
it covers every word that the *pattern* `p` covers. The two questions differ: `*/*` covers
the word `*` without covering all that the pattern `*` covers. `Subsumes` is the second
notion in terms of the first.

## Main results

* `Subsumes.covers`: a pattern covers everything that a pattern it subsumes covers.
* `covered_iff_exists_subsumes`: a pattern is covered by finitely many patterns exactly
  when one of them subsumes it; a wildcard is never covered piecemeal.
* `splitOn_prefix_iff`: the words of a folder, by their segments.
-/

namespace WildcardPattern

variable {α : Type*} (sep star : α)

/-- The pattern `p` stands for the word `r`. -/
def Covers (p r : List α) : Prop :=
  p = r ∨ p = [star] ∨
    ∃ q, p = q ++ [sep, star] ∧ (r = q ∨ ∃ t, r = q ++ sep :: t)

/-- The pattern stands for more words than itself. -/
def Wild (p : List α) : Prop :=
  p = [star] ∨ ∃ q, p = q ++ [sep, star]

/-- The pattern `q` covers the word `p`, and does so not merely because `q` is the folder
whose name is the wildcard `p`. -/
def Subsumes (q p : List α) : Prop :=
  Covers sep star q p ∧ ¬ (Wild sep star p ∧ q = p ++ [sep, star])

variable {sep star}

/-- A pattern covers itself. -/
theorem covers_refl (p : List α) : Covers sep star p p := Or.inl rfl

/-- A word that starts with `q, sep` and one that ends in `sep` and a part without `sep`
overlap in whole segments only. -/
theorem append_sep_cases {p q a b : List α} (ha : sep ∉ a)
    (h : p ++ sep :: a = q ++ sep :: b) : q = p ∨ ∃ u, p = q ++ sep :: u := by
  rcases List.append_eq_append_iff.mp h with ⟨u, hq, hu⟩ | ⟨u, hp, hu⟩
  · cases u with
    | nil => exact Or.inl (by simpa using hq)
    | cons x u =>
        obtain ⟨-, hu⟩ := List.cons.inj hu
        exact absurd (hu ▸ by simp : sep ∈ a) ha
  · cases u with
    | nil => exact Or.inl (by simpa using hp.symm)
    | cons x u =>
        obtain ⟨rfl, -⟩ := List.cons.inj hu
        exact Or.inr ⟨u, hp⟩

/-- Subsumption is containment of languages, one half. -/
theorem Subsumes.covers (hne : sep ≠ star) {q p r : List α}
    (h : Subsumes sep star q p) (hr : Covers sep star p r) : Covers sep star q r := by
  obtain ⟨hqp, hbad⟩ := h
  rcases hqp with rfl | rfl | ⟨q', rfl, hp⟩
  · exact hr
  · exact Or.inr (Or.inl rfl)
  · rcases hr with rfl | rfl | ⟨p', rfl, hr⟩
    · exact Or.inr (Or.inr ⟨q', rfl, hp⟩)
    · rcases hp with rfl | ⟨t, ht⟩
      · exact absurd ⟨Or.inl rfl, rfl⟩ hbad
      · cases q' with
        | nil => exact absurd (List.cons.inj ht).1.symm hne
        | cons x q' => simp at ht
    · refine Or.inr (Or.inr ⟨q', rfl, ?_⟩)
      rcases hp with rfl | ⟨t, ht⟩
      · exact absurd ⟨Or.inr ⟨p', rfl⟩, rfl⟩ hbad
      · rcases append_sep_cases (by simpa using hne) ht with rfl | ⟨u, rfl⟩
        · exact hr
        · rcases hr with rfl | ⟨s, rfl⟩
          · exact Or.inr ⟨u, rfl⟩
          · exact Or.inr ⟨u ++ sep :: s, by simp⟩

/-- Every pattern covers a word that, of finitely many patterns, only the subsuming ones
cover: a word longer than all of them, below the pattern, without a further `sep`. -/
theorem exists_separating (hne : sep ≠ star) (p : List α) (qs : List (List α)) :
    ∃ r, Covers sep star p r ∧
      ∀ q ∈ qs, Covers sep star q r → Subsumes sep star q p := by
  have hlen : ∀ q ∈ qs, q.length ≤ (qs.map List.length).sum := fun q hq =>
    List.single_le_sum (fun _ _ => Nat.zero_le _) _ (List.mem_map_of_mem hq)
  set n := (qs.map List.length).sum + 2 with hn
  have hrep : sep ∉ List.replicate n star := fun h => hne (List.eq_of_mem_replicate h)
  by_cases hwild : Wild sep star p
  · rcases hwild with rfl | ⟨p', rfl⟩
    · refine ⟨List.replicate n star, Or.inr (Or.inl rfl), fun q hq hr => ?_⟩
      have hlq := hlen q hq
      rcases hr with rfl | rfl | ⟨q', rfl, rfl | ⟨t, ht⟩⟩
      · simp at hlq; omega
      · exact ⟨covers_refl _, by simp⟩
      · simp at hlq; omega
      · exact absurd (ht ▸ by simp) hrep
    · refine ⟨p' ++ sep :: List.replicate n star,
        Or.inr (Or.inr ⟨p', rfl, Or.inr ⟨_, rfl⟩⟩), fun q hq hr => ?_⟩
      have hlq := hlen q hq
      rcases hr with rfl | rfl | ⟨q', rfl, rfl | ⟨t, ht⟩⟩
      · simp at hlq; omega
      · exact ⟨Or.inr (Or.inl rfl), fun h => by simpa using congrArg List.length h.2⟩
      · simp at hlq; omega
      · rcases append_sep_cases hrep ht with rfl | ⟨u, rfl⟩
        · exact ⟨covers_refl _, fun h => by simpa using congrArg List.length h.2⟩
        · refine ⟨Or.inr (Or.inr ⟨q', rfl, Or.inr ⟨u ++ [sep, star], by simp⟩⟩), fun h => ?_⟩
          have := congrArg List.length h.2
          simp at this
  · exact ⟨p, covers_refl p, fun q _ hq => ⟨hq, fun h => hwild h.1⟩⟩

/-- **Finite covers.** A pattern is covered by finitely many patterns exactly when one of
them subsumes it. -/
theorem covered_iff_exists_subsumes (hne : sep ≠ star) (p : List α) (qs : List (List α)) :
    (∀ r, Covers sep star p r → ∃ q ∈ qs, Covers sep star q r) ↔
      ∃ q ∈ qs, Subsumes sep star q p := by
  constructor
  · intro h
    obtain ⟨r, hr, hsep⟩ := exists_separating hne p qs
    obtain ⟨q, hq, hqr⟩ := h r hr
    exact ⟨q, hq, hsep q hq hqr⟩
  · rintro ⟨q, hq, hsub⟩ r hr
    exact ⟨q, hq, hsub.covers hne hr⟩

/-! ### Segments -/

/-- Two joined lists, joined. -/
theorem intercalate_append {ss rs : List (List α)} (hss : ss ≠ []) (hrs : rs ≠ []) :
    [sep].intercalate (ss ++ rs) = [sep].intercalate ss ++ sep :: [sep].intercalate rs := by
  induction ss with
  | nil => exact absurd rfl hss
  | cons s ss ih =>
      cases ss with
      | nil => simp [List.intercalate_cons_of_ne_nil hrs]
      | cons s' ss =>
          have hne : s' :: ss ≠ [] := List.cons_ne_nil s' ss
          rw [List.cons_append, List.intercalate_cons_of_ne_nil (by simp), ih hne,
            List.intercalate_cons_of_ne_nil hne]
          simp only [List.append_assoc]

/-- **Folders by segments.** The segments of `q` are the first segments of `r` exactly when `r`
is `q` or a word below it. -/
theorem splitOn_prefix_iff [DecidableEq α] {q r : List α} :
    q.splitOn sep <+: r.splitOn sep ↔ r = q ∨ ∃ t, r = q ++ sep :: t := by
  constructor
  · rintro ⟨rest, hrest⟩
    have hr : [sep].intercalate (q.splitOn sep ++ rest) = r := by
      rw [hrest, List.intercalate_splitOn]
    cases rest with
    | nil =>
        rw [List.append_nil, List.intercalate_splitOn] at hr
        exact .inl hr.symm
    | cons s rest =>
        refine .inr ⟨[sep].intercalate (s :: rest), hr.symm.trans ?_⟩
        rw [intercalate_append (List.splitOn_ne_nil sep q) (List.cons_ne_nil s rest),
          List.intercalate_splitOn]
  · rintro (rfl | ⟨t, rfl⟩)
    · exact List.prefix_refl _
    · rw [List.splitOn_append_cons_self]
      exact List.prefix_append ..

end WildcardPattern
