import Mathlib.Logic.Basic
import Mathlib.Data.List.Basic
import Mathlib.Data.List.Induction

/-!
# Runs of an Executable Transition System

A transition system is given by a partial step function `step : σ → α → Option σ`: the
action either moves the state or is not enabled in it. `run` folds a list of actions,
so a run is a value that can be evaluated, and the rules of this module turn facts about
one step into facts about every run.

## Main results

* `run_append`: a run of a concatenation is a run of the first part followed by a run of
  the second.
* `run_invariant`: what every step preserves, every run preserves.
* `guarded_run_invariant`: the same rule when each step of the run also meets a guard,
  read in the state before the step.
* `guarded_of_invariant`: a run meets a guard that an invariant of its actions implies.
* `Guarded.strengthen`: a run that meets a guard meets what the guard amounts to under an
  invariant.
* `alongRun_iff_guarded`: a property holds all along a run exactly when every step meets the
  guard that decides whether it keeps the property.
* `run_view`, `guarded_view_iff`, `alongRun_view_iff`: a run and what is seen of it.
* `trace_invariant`: a rule for what relates a run's state to the actions that led there.
* `guarded_run_tally`: a rule for the number of steps of one kind.
* `Happened`: a step that the run has taken, with the state before it.
* `GrewBy`: a history, kept with its latest event first, has grown by events of one kind.
* `guarded_of_grewBy`: a run met a guard when the history shows no trace of a step that did
  not.
* `guarded_of_scar`: the same for what a step leaves behind in the state for good.
-/

namespace TransitionSystem

variable {σ α : Type*} (step : σ → α → Option σ)

/-- The state a list of actions leads to, or `none` as soon as an action is not
enabled. -/
def run : σ → List α → Option σ
  | s, [] => some s
  | s, a :: as => (step s a).bind fun s' => run s' as

/-- A run of no action ends where it starts. -/
@[simp] theorem run_nil (s : σ) : run step s [] = some s := rfl

/-- A run of `a :: as` is a step of `a` followed by a run of `as`. -/
@[simp] theorem run_cons (s : σ) (a : α) (as : List α) :
    run step s (a :: as) = (step s a).bind fun s' => run step s' as := rfl

/-- A nonempty run splits into its first step and the rest. -/
theorem run_cons_eq_some {s s' : σ} {a : α} {as : List α} :
    run step s (a :: as) = some s' ↔ ∃ t, step s a = some t ∧ run step t as = some s' := by
  rw [run_cons, Option.bind_eq_some_iff]

/-- Runs compose. -/
theorem run_append (s : σ) (as bs : List α) :
    run step s (as ++ bs) = (run step s as).bind fun t => run step t bs := by
  induction as generalizing s with
  | nil => simp
  | cons a as ih =>
      simp only [List.cons_append, run_cons]
      cases step s a with
      | none => rfl
      | some t => simpa using ih t

/-- Every step of the run of `as` from `s` meets `guard` in the state before it. -/
def Guarded (guard : σ → α → Prop) : σ → List α → Prop
  | _, [] => True
  | s, a :: as => guard s a ∧ ∀ s', step s a = some s' → Guarded guard s' as

/-- A decidable guard can be checked along a run. -/
instance Guarded.decidable {guard : σ → α → Prop} [∀ s a, Decidable (guard s a)] :
    ∀ (s : σ) (as : List α), Decidable (Guarded step guard s as)
  | _, [] => isTrue trivial
  | s, a :: as =>
      have : Decidable (∀ s', step s a = some s' → Guarded step guard s' as) :=
        match h : step s a with
        | none => isTrue fun s' hs' => by simp at hs'
        | some t =>
            have : Decidable (Guarded step guard t as) := Guarded.decidable t as
            decidable_of_iff (Guarded step guard t as)
              ⟨fun ht s' hs' => Option.some.inj hs' ▸ ht, fun hall => hall t rfl⟩
      inferInstanceAs (Decidable (guard s a ∧ ∀ s', step s a = some s' → Guarded step guard s' as))

variable {step}

/-- **The invariant rule.** What every step preserves, every run preserves. -/
theorem run_invariant {P : σ → Prop}
    (hstep : ∀ s a s', P s → step s a = some s' → P s')
    {s s' : σ} {as : List α} (h₀ : P s) (hrun : run step s as = some s') : P s' := by
  induction as generalizing s with
  | nil =>
      rw [run_nil, Option.some.injEq] at hrun
      exact hrun ▸ h₀
  | cons a as ih =>
      obtain ⟨t, ht, hrest⟩ := (run_cons_eq_some step).mp hrun
      exact ih (hstep s a t h₀ ht) hrest

/-- **The guarded invariant rule.** What every step that meets the guard preserves, every
run whose steps all meet it preserves. -/
theorem guarded_run_invariant {guard : σ → α → Prop} {P : σ → Prop}
    (hstep : ∀ s a s', P s → guard s a → step s a = some s' → P s')
    {s s' : σ} {as : List α} (h₀ : P s) (hguard : Guarded step guard s as)
    (hrun : run step s as = some s') : P s' := by
  induction as generalizing s with
  | nil =>
      rw [run_nil, Option.some.injEq] at hrun
      exact hrun ▸ h₀
  | cons a as ih =>
      obtain ⟨t, ht, hrest⟩ := (run_cons_eq_some step).mp hrun
      obtain ⟨hg, hgs⟩ := hguard
      exact ih (hstep s a t h₀ hg ht) (hgs t ht) hrest

/-- **The guard rule.** A run meets a guard when its actions keep an invariant that implies
it. -/
theorem guarded_of_invariant {guard : σ → α → Prop} {P : σ → Prop} {allowed : α → Prop}
    (hguard : ∀ s a, P s → allowed a → guard s a)
    (hstep : ∀ s a s', P s → allowed a → step s a = some s' → P s')
    {s : σ} {as : List α} (h₀ : P s) (has : ∀ a ∈ as, allowed a) :
    Guarded step guard s as := by
  induction as generalizing s with
  | nil => trivial
  | cons a as ih =>
      have ha := has a List.mem_cons_self
      refine ⟨hguard s a h₀ ha, fun s' hs' => ?_⟩
      exact ih (hstep s a s' h₀ ha hs') fun b hb => has b (List.mem_cons_of_mem a hb)

/-- A run meets a guard that each of its actions meets in any state. -/
theorem guarded_of_forall_mem {guard : σ → α → Prop} {s : σ} {as : List α}
    (h : ∀ a ∈ as, ∀ s, guard s a) : Guarded step guard s as := by
  induction as generalizing s with
  | nil => trivial
  | cons a as ih =>
      exact ⟨h a List.mem_cons_self s, fun s' _ => ih fun b hb => h b (List.mem_cons_of_mem a hb)⟩

/-- A step that meets a guard, and what meets it from where the step leads. -/
theorem guarded_cons {guard : σ → α → Prop} {s t : σ} {a : α} {as : List α}
    (hstep : step s a = some t) (hguard : guard s a) (hrest : Guarded step guard t as) :
    Guarded step guard s (a :: as) := by
  refine ⟨hguard, fun t' ht' => ?_⟩
  obtain rfl := Option.some.inj (hstep.symm.trans ht')
  exact hrest

/-- A guard that implies another one wherever an invariant holds does so along a run. -/
theorem Guarded.strengthen {guard guard' : σ → α → Prop} {P : σ → Prop}
    (himp : ∀ s a, P s → guard s a → guard' s a)
    (hstep : ∀ s a s', P s → step s a = some s' → P s')
    {s : σ} {as : List α} (h₀ : P s) (h : Guarded step guard s as) :
    Guarded step guard' s as := by
  induction as generalizing s with
  | nil => trivial
  | cons a as ih =>
      obtain ⟨hg, hgs⟩ := h
      exact ⟨himp s a h₀ hg, fun s' hs' => ih (hstep s a s' h₀ hs') (hgs s' hs')⟩

/-- A guard that a run meets, together with what holds of each of its actions. -/
theorem Guarded.and_forall_mem {guard : σ → α → Prop} {allowed : α → Prop} {s : σ} {as : List α}
    (h : Guarded step guard s as) (has : ∀ a ∈ as, allowed a) :
    Guarded step (fun s a => guard s a ∧ allowed a) s as := by
  induction as generalizing s with
  | nil => trivial
  | cons a as ih =>
      obtain ⟨hg, hgs⟩ := h
      refine ⟨⟨hg, has a List.mem_cons_self⟩, fun s' hs' => ?_⟩
      exact ih (hgs s' hs') fun b hb => has b (List.mem_cons_of_mem a hb)

/-- Two guards that a run meets. -/
theorem Guarded.and {guard guard' : σ → α → Prop} {s : σ} {as : List α}
    (h : Guarded step guard s as) (h' : Guarded step guard' s as) :
    Guarded step (fun s a => guard s a ∧ guard' s a) s as := by
  induction as generalizing s with
  | nil => trivial
  | cons a as ih => exact ⟨⟨h.1, h'.1⟩, fun t ht => ih (h.2 t ht) (h'.2 t ht)⟩

/-- Every state on the way to the end of a run leads there. -/
theorem guarded_of_run {R : σ → σ → Prop} (hR : ∀ s as s', run step s as = some s' → R s s')
    {s s' : σ} {as : List α} (hrun : run step s as = some s') :
    Guarded step (fun t _ => R t s') s as := by
  induction as generalizing s with
  | nil => trivial
  | cons a as ih =>
      refine ⟨hR s _ s' hrun, fun t ht => ih ?_⟩
      rwa [run_cons, ht] at hrun

/-- A run meets a guard when its first part does and the rest does from where that leads. -/
theorem guarded_append {guard : σ → α → Prop} {s t : σ} {as bs : List α}
    (hrun : run step s as = some t) (hfirst : Guarded step guard s as)
    (hrest : Guarded step guard t bs) : Guarded step guard s (as ++ bs) := by
  induction as generalizing s with
  | nil => exact Option.some.inj hrun ▸ hrest
  | cons a as ih =>
      obtain ⟨u, hu, hlater⟩ := (run_cons_eq_some step).mp hrun
      refine ⟨hfirst.1, fun u' hu' => ?_⟩
      obtain rfl := Option.some.inj (hu.symm.trans hu')
      exact ih hlater (hfirst.2 u hu)

/-- The property holds in every state the run passes through, its ends included. -/
def AlongRun (step : σ → α → Option σ) (P : σ → Prop) (s : σ) (as : List α) : Prop :=
  ∀ before after, as = before ++ after → ∀ t, run step s before = some t → P t

/-- What holds along a run holds at its end. -/
theorem AlongRun.last {P : σ → Prop} {s s' : σ} {as : List α} (h : AlongRun step P s as)
    (hrun : run step s as = some s') : P s' :=
  h as [] (List.append_nil as).symm s' hrun

/-- A run of no action is at its start all along. -/
theorem alongRun_nil_iff {P : σ → Prop} {s : σ} : AlongRun step P s [] ↔ P s := by
  refine ⟨fun h => h.last rfl, fun h before after heq t ht => ?_⟩
  obtain ⟨rfl, -⟩ := List.append_eq_nil_iff.mp heq.symm
  exact Option.some.inj ht ▸ h

/-- A property holds along a run when it holds at its start and along what follows the first
step. -/
theorem alongRun_cons_iff {P : σ → Prop} {s t : σ} {a : α} {as : List α}
    (ht : step s a = some t) :
    AlongRun step P s (a :: as) ↔ P s ∧ AlongRun step P t as := by
  constructor
  · intro h
    refine ⟨h [] (a :: as) rfl s rfl, fun before after heq u hu => ?_⟩
    refine h (a :: before) after (by rw [heq, List.cons_append]) u ?_
    rw [run_cons, ht]
    exact hu
  · rintro ⟨hs, hrest⟩ before after heq u hu
    cases before with
    | nil => exact Option.some.inj hu ▸ hs
    | cons b before =>
        obtain ⟨rfl, hafter⟩ := List.cons.inj heq
        rw [run_cons, ht] at hu
        exact hrest before after hafter u hu

/-- **The exact guard rule.** Where a step keeps a property if and only if it meets the guard,
the property holds all along a run if and only if every step meets it. An invariant of the
allowed actions may help. -/
theorem alongRun_iff_guarded {allowed guard : σ → α → Prop} {I P : σ → Prop}
    (hinv : ∀ s a s', I s → allowed s a → step s a = some s' → I s')
    (hstep : ∀ s a s', I s → P s → allowed s a → step s a = some s' → (P s' ↔ guard s a))
    {s s' : σ} {as : List α} (hI : I s) (hP : P s) (hallowed : Guarded step allowed s as)
    (hrun : run step s as = some s') :
    AlongRun step P s as ↔ Guarded step guard s as := by
  induction as generalizing s with
  | nil => exact ⟨fun _ => trivial, fun _ => alongRun_nil_iff.mpr hP⟩
  | cons a as ih =>
      obtain ⟨t, ht, hrest⟩ := (run_cons_eq_some step).mp hrun
      obtain ⟨ha, has⟩ := hallowed
      have hkeeps := hstep s a t hI hP ha ht
      rw [alongRun_cons_iff ht]
      constructor
      · rintro ⟨-, h⟩
        have hPt : P t := h [] as rfl t rfl
        refine ⟨hkeeps.mp hPt, fun t' ht' => ?_⟩
        obtain rfl := Option.some.inj (ht.symm.trans ht')
        exact (ih (hinv s a t hI ha ht) hPt (has t ht) hrest).mp h
      · rintro ⟨hg, hgs⟩
        have hPt : P t := hkeeps.mpr hg
        exact ⟨hP, (ih (hinv s a t hI ha ht) hPt (has t ht) hrest).mpr (hgs t ht)⟩

/-- Every run takes steps that meet the trivial guard. -/
theorem guarded_true (s : σ) (as : List α) : Guarded step (fun _ _ => True) s as := by
  induction as generalizing s with
  | nil => trivial
  | cons a as ih => exact ⟨trivial, fun s' _ => ih s'⟩

/-! ### Views of a system -/

section Views

variable {τ : Type*} {step' : τ → α → Option τ} (view : σ → τ)
  (hview : ∀ s a s', step s a = some s' → step' (view s) a = some (view s'))

include hview

/-- **The view rule.** Where each step is a step of the view, a run is a run of the view. -/
theorem run_view {s s' : σ} {as : List α} (hrun : run step s as = some s') :
    run step' (view s) as = some (view s') := by
  induction as generalizing s with
  | nil => rw [run_nil, Option.some.inj hrun]
  | cons a as ih =>
      obtain ⟨t, ht, hrest⟩ := (run_cons_eq_some step).mp hrun
      rw [run_cons, hview s a t ht]
      exact ih hrest

/-- A run meets a guard on what is seen exactly when its view meets it. -/
theorem guarded_view_iff {guard : τ → α → Prop} {s s' : σ} {as : List α}
    (hrun : run step s as = some s') :
    Guarded step' guard (view s) as ↔ Guarded step (fun s a => guard (view s) a) s as := by
  induction as generalizing s with
  | nil => exact Iff.rfl
  | cons a as ih =>
      obtain ⟨t, ht, hrest⟩ := (run_cons_eq_some step).mp hrun
      refine and_congr_right fun _ => ⟨fun h t' ht' => ?_, fun h t' ht' => ?_⟩
      · obtain rfl := Option.some.inj (ht.symm.trans ht')
        exact (ih hrest).mp (h _ (hview s a t ht))
      · obtain rfl := Option.some.inj ((hview s a t ht).symm.trans ht')
        exact (ih hrest).mpr (h t ht)

/-- What holds along a run of what is seen holds along the run's view. -/
theorem alongRun_view_iff {P : τ → Prop} {s s' : σ} {as : List α}
    (hrun : run step s as = some s') :
    AlongRun step' P (view s) as ↔ AlongRun step (fun s => P (view s)) s as := by
  induction as generalizing s with
  | nil => rw [alongRun_nil_iff, alongRun_nil_iff]
  | cons a as ih =>
      obtain ⟨t, ht, hrest⟩ := (run_cons_eq_some step).mp hrun
      rw [alongRun_cons_iff (hview s a t ht), alongRun_cons_iff ht, ih hrest]

end Views

/-! ### What a run has done -/

/-- The state at the end of a run that goes one step further. -/
theorem run_snoc_eq_some {s s' : σ} {as : List α} {a : α} :
    run step s (as ++ [a]) = some s' ↔ ∃ t, run step s as = some t ∧ step t a = some s' := by
  rw [run_append, Option.bind_eq_some_iff]
  simp

/-- **The trace rule.** What holds of the empty run, and of a run with one more step whenever
it holds of the run, holds of every run. -/
theorem trace_invariant {s : σ} {P : List α → σ → Prop} (h₀ : P [] s)
    (hstep : ∀ as t a t', run step s as = some t → P as t → step t a = some t' → P (as ++ [a]) t')
    {as : List α} {s' : σ} (hrun : run step s as = some s') : P as s' := by
  induction as using List.reverseRecOn generalizing s' with
  | nil => exact Option.some.inj hrun ▸ h₀
  | append_singleton as a ih =>
      obtain ⟨t, ht, ha⟩ := run_snoc_eq_some.mp hrun
      exact hstep as t a s' ht (ih ht) ha

/-- The run has taken a step of this kind, which may depend on the actions before it. -/
def Happened (step : σ → α → Option σ) (s : σ) (E : List α → σ → α → Prop) (as : List α) : Prop :=
  ∃ before a after t, as = before ++ a :: after ∧ run step s before = some t ∧ E before t a

/-- What has happened has happened also later. -/
theorem Happened.append {s : σ} {E : List α → σ → α → Prop} {as : List α}
    (h : Happened step s E as) (bs : List α) : Happened step s E (as ++ bs) := by
  obtain ⟨before, a, after, t, rfl, hrun, hE⟩ := h
  exact ⟨before, a, after ++ bs, t, by simp, hrun, hE⟩

/-- The last step has happened. -/
theorem happened_snoc {s t : σ} {E : List α → σ → α → Prop} {as : List α} {a : α}
    (hrun : run step s as = some t) (hE : E as t a) : Happened step s E (as ++ [a]) :=
  ⟨as, a, [], t, rfl, hrun, hE⟩

/-- How many steps of the run of `as` from `s` are of a kind. -/
def tally (step : σ → α → Option σ) (kind : σ → α → Bool) : σ → List α → Nat
  | _, [] => 0
  | s, a :: as =>
      (if kind s a then 1 else 0) + ((step s a).map fun t => tally step kind t as).getD 0

/-- The count of a run that starts with a step. -/
theorem tally_cons {kind : σ → α → Bool} {s t : σ} {a : α} {as : List α} (ht : step s a = some t) :
    tally step kind s (a :: as) = (if kind s a then 1 else 0) + tally step kind t as := by
  rw [tally, ht]
  rfl

/-- A kind that does not depend on the state is counted in the actions. -/
theorem tally_eq_countP {p : α → Bool} {s s' : σ} {as : List α} (hrun : run step s as = some s') :
    tally step (fun _ a => p a) s as = as.countP p := by
  induction as generalizing s with
  | nil => rfl
  | cons a as ih =>
      obtain ⟨t, ht, hrest⟩ := (run_cons_eq_some step).mp hrun
      rw [tally_cons ht, ih hrest, List.countP_cons, Nat.add_comm]

/-- Two kinds of steps that are the same along a run are counted alike. -/
theorem tally_congr {guard : σ → α → Prop} {kind kind' : σ → α → Bool}
    (h : ∀ s a s', guard s a → step s a = some s' → kind s a = kind' s a)
    {s s' : σ} {as : List α} (hguard : Guarded step guard s as) (hrun : run step s as = some s') :
    tally step kind s as = tally step kind' s as := by
  induction as generalizing s with
  | nil => rfl
  | cons a as ih =>
      obtain ⟨t, ht, hrest⟩ := (run_cons_eq_some step).mp hrun
      rw [tally_cons ht, tally_cons ht, h s a t hguard.1 ht, ih (hguard.2 t ht) hrest]

/-- **The counting rule.** What relates a number to a state, and is kept when every step of the
kind adds one to it, relates the count of a run to its end. -/
theorem guarded_run_tally {guard : σ → α → Prop} {kind : σ → α → Bool} {P : Nat → σ → Prop}
    (hstep : ∀ n s a s', P n s → guard s a → step s a = some s' →
      P (n + if kind s a then 1 else 0) s')
    {n : Nat} {s s' : σ} {as : List α} (h₀ : P n s) (hguard : Guarded step guard s as)
    (hrun : run step s as = some s') : P (n + tally step kind s as) s' := by
  induction as generalizing n s with
  | nil => exact Option.some.inj hrun ▸ h₀
  | cons a as ih =>
      obtain ⟨t, ht, hrest⟩ := (run_cons_eq_some step).mp hrun
      rw [tally_cons ht, ← Nat.add_assoc]
      exact ih (hstep n s a t h₀ hguard.1 ht) (hguard.2 t ht) hrest

/-! ### Histories -/

/-- The history has grown from `old` to `new`, and `p` holds of each of the new events. -/
def GrewBy {ε : Type*} (p : ε → Prop) (old new : List ε) : Prop :=
  ∃ later, new = later ++ old ∧ ∀ e ∈ later, p e

namespace GrewBy

variable {ε : Type*} {p : ε → Prop} {old mid new : List ε}

/-- A history has grown by nothing at first. -/
theorem refl (h : List ε) : GrewBy p h h := ⟨[], rfl, by simp⟩

/-- One more event. -/
theorem cons (h : GrewBy p old new) {e : ε} (he : p e) : GrewBy p old (e :: new) := by
  obtain ⟨later, rfl, hlater⟩ := h
  exact ⟨e :: later, rfl, List.forall_mem_cons.mpr ⟨he, hlater⟩⟩

/-- A history grows and grows again. -/
theorem trans (h : GrewBy p old mid) (h' : GrewBy p mid new) : GrewBy p old new := by
  obtain ⟨first, rfl, hfirst⟩ := h
  obtain ⟨later, rfl, hlater⟩ := h'
  exact ⟨later ++ first, (List.append_assoc ..).symm, List.forall_mem_append.mpr ⟨hlater, hfirst⟩⟩

/-- An event recorded on the way is one of those the history has grown by. -/
theorem holds_of_between {q q' : ε → Prop} {e : ε} (h₀ : GrewBy q old mid)
    (h₁ : GrewBy q' (e :: mid) new) (h : GrewBy p old new) : p e := by
  obtain ⟨first, rfl, -⟩ := h₀
  obtain ⟨second, rfl, -⟩ := h₁
  obtain ⟨later, heq, hlater⟩ := h
  rw [← List.cons_append, ← List.append_assoc] at heq
  have hmem : e ∈ later := by
    rw [← List.append_cancel_right heq]
    simp
  exact hlater e hmem

end GrewBy

/-- **The history rule.** Where a step that does not meet the guard records an event that is
not `p`, a run after which the history has grown by `p` alone has met the guard. -/
theorem guarded_of_grewBy {ε : Type*} (history : σ → List ε) {guard : σ → α → Prop}
    {p : ε → Prop}
    (hgrows : ∀ s a s', step s a = some s' → GrewBy (fun _ => True) (history s) (history s'))
    (hrecords : ∀ s a s', step s a = some s' → ¬ guard s a →
      ∃ e, history s' = e :: history s ∧ ¬ p e)
    {s s' : σ} {as : List α} {old : List ε} (h₀ : GrewBy (fun _ => True) old (history s))
    (hrun : run step s as = some s') (h : GrewBy p old (history s')) : Guarded step guard s as := by
  induction as generalizing s with
  | nil => trivial
  | cons a as ih =>
      obtain ⟨t, ht, hrest⟩ := (run_cons_eq_some step).mp hrun
      refine ⟨?_, fun t' ht' => ?_⟩
      · by_contra hguard
        obtain ⟨e, hhistory, he⟩ := hrecords s a t ht hguard
        have hlater : GrewBy (fun _ => True) (history t) (history s') :=
          run_invariant (P := fun s => GrewBy (fun _ => True) (history t) (history s))
            (fun s a s' hs hstep => hs.trans (hgrows s a s' hstep)) (.refl _) hrest
        rw [hhistory] at hlater
        exact he (h₀.holds_of_between hlater h)
      · obtain rfl := Option.some.inj (ht.symm.trans ht')
        exact ih (h₀.trans (hgrows s a t ht)) hrest

/-- **The scar rule.** Where a step that does not meet the guard leaves something in the state
that no step removes, a run that ends without it has met the guard. An invariant may help. -/
theorem guarded_of_scar {guard : σ → α → Prop} {I scar : σ → Prop}
    (hinv : ∀ s a s', I s → step s a = some s' → I s')
    (hscar : ∀ s a s', I s → step s a = some s' → ¬ guard s a → scar s')
    (hkeeps : ∀ s a s', I s → scar s → step s a = some s' → scar s')
    {s s' : σ} {as : List α} (hI : I s) (hrun : run step s as = some s') (h : ¬ scar s') :
    Guarded step guard s as := by
  induction as generalizing s with
  | nil => trivial
  | cons a as ih =>
      obtain ⟨t, ht, hrest⟩ := (run_cons_eq_some step).mp hrun
      have hIt := hinv s a t hI ht
      refine ⟨?_, fun t' ht' => ?_⟩
      · by_contra hguard
        have hlast : I s' ∧ scar s' :=
          run_invariant (P := fun u => I u ∧ scar u)
            (fun u b u' hu hstep => ⟨hinv u b u' hu.1 hstep, hkeeps u b u' hu.1 hu.2 hstep⟩)
            ⟨hIt, hscar s a t hI ht hguard⟩ hrest
        exact h hlast.2
      · obtain rfl := Option.some.inj (ht.symm.trans ht')
        exact ih hIt hrest

end TransitionSystem
