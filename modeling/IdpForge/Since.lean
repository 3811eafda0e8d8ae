import IdpForge.TransitionSystem

/-!
# What Has Happened Since

A condition on the states of a system that steps of one kind bring about, steps of another kind
end, and all others leave alone, holds after a run exactly when the run has taken a step of the
first kind and none of the second since.

## Main results

* `since_snoc_iff`: one more step.
* `iff_since`: the rule for such a condition, which an invariant may help to find.
-/

namespace TransitionSystem

variable {σ α : Type*}

/-- The run has taken a step of one kind, and none of the other since. -/
def Since (step : σ → α → Option σ) (s : σ) (begins ends : σ → α → Prop) (as : List α) : Prop :=
  ∃ before a after t t', as = before ++ a :: after ∧ run step s before = some t ∧
    step t a = some t' ∧ begins t a ∧ Guarded step (fun u b => ¬ ends u b) t' after

variable {step : σ → α → Option σ} {begins ends : σ → α → Prop}

/-- A run that meets a guard does so in its first part, and from where that leads. -/
theorem guarded_append_iff {guard : σ → α → Prop} {s t : σ} {as bs : List α}
    (hrun : run step s as = some t) :
    Guarded step guard s (as ++ bs) ↔ Guarded step guard s as ∧ Guarded step guard t bs := by
  refine ⟨fun h => ?_, fun h => guarded_append hrun h.1 h.2⟩
  induction as generalizing s with
  | nil => exact ⟨trivial, Option.some.inj hrun ▸ h⟩
  | cons a as ih =>
      obtain ⟨u, hu, hlater⟩ := (run_cons_eq_some step).mp hrun
      obtain ⟨hfirst, hrest⟩ := ih hlater (h.2 u hu)
      refine ⟨⟨h.1, fun u' hu' => ?_⟩, hrest⟩
      exact Option.some.inj (hu.symm.trans hu') ▸ hfirst

/-- The last step begins it, or it has begun before and the last step does not end it. -/
theorem since_snoc_iff {s t t' : σ} {as : List α} {b : α} (hrun : run step s as = some t)
    (hstep : step t b = some t') :
    Since step s begins ends (as ++ [b]) ↔
      begins t b ∨ Since step s begins ends as ∧ ¬ ends t b := by
  constructor
  · rintro ⟨before, a, after, u, u', has, hbefore, ha, hbegins, hafter⟩
    rcases List.eq_nil_or_concat after with rfl | ⟨after, c, rfl⟩
    · obtain ⟨rfl, hb⟩ := List.append_inj' has rfl
      obtain rfl := List.singleton_inj.mp hb
      obtain rfl := Option.some.inj (hrun.symm.trans hbefore)
      exact Or.inl hbegins
    · rw [List.concat_eq_append] at has hafter
      rw [← List.cons_append, ← List.append_assoc] at has
      obtain ⟨rfl, hb⟩ := List.append_inj' has rfl
      obtain rfl := List.singleton_inj.mp hb
      have hmid : run step u' after = some t := by
        rw [run_append, hbefore, Option.bind_some, run_cons, ha, Option.bind_some] at hrun
        exact hrun
      obtain ⟨hguard, hlast⟩ := (guarded_append_iff hmid).mp hafter
      exact Or.inr ⟨⟨before, a, after, u, u', rfl, hbefore, ha, hbegins, hguard⟩, hlast.1⟩
  · rintro (hbegins | ⟨⟨before, a, after, u, u', rfl, hbefore, ha, hbegins, hguard⟩, hends⟩)
    · exact ⟨as, b, [], t, t', rfl, hrun, hstep, hbegins, trivial⟩
    · have hmid : run step u' after = some t := by
        rw [run_append, hbefore, Option.bind_some, run_cons, ha, Option.bind_some] at hrun
        exact hrun
      refine ⟨before, a, after ++ [b], u, u', by simp, hbefore, ha, hbegins, ?_⟩
      exact (guarded_append_iff hmid).mpr ⟨hguard, hends, fun _ _ => trivial⟩

/-- **The rule for a condition that begins and ends.** -/
theorem iff_since {I P : σ → Prop}
    (hinv : ∀ t a t', I t → step t a = some t' → I t')
    (hstep : ∀ t a t', I t → step t a = some t' → (P t' ↔ begins t a ∨ P t ∧ ¬ ends t a))
    {s s' : σ} {as : List α} (hI : I s) (h₀ : ¬ P s) (hrun : run step s as = some s') :
    P s' ↔ Since step s begins ends as := by
  have htrace : I s' ∧ (P s' ↔ Since step s begins ends as) := by
    refine trace_invariant (P := fun as t => I t ∧ (P t ↔ Since step s begins ends as))
      ⟨hI, iff_of_false h₀ ?_⟩ ?_ hrun
    · rintro ⟨before, a, after, t, t', hnil, -⟩
      simp at hnil
    · rintro as t a t' ht ⟨hIt, ih⟩ hta
      exact ⟨hinv t a t' hIt hta, by rw [hstep t a t' hIt hta, since_snoc_iff ht hta, ih]⟩
  exact htrace.2

end TransitionSystem
