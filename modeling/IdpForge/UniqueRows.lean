import IdpForge.TransitionSystem
import Mathlib.Data.List.Pairwise

/-!
# Tables with Unique Columns

A table that refuses a row which clashes with one it has, as under a unique index, and from which
rows are removed by a condition. Actions of any kind have such changes of the table as their
effects, or none. Besides the clashes that are refused there may be some that no insertion ever
meets, of values that are drawn at random.

A row is in the table after a run exactly when it stands: an action inserted it without a clash,
and no action since has removed it. A lookup by a column in which clashing rows agree therefore
finds the one row that stands.

## Main results

* `mem_iff_stands`: the rows of a table are those that stand.
* `pairwise_of_run`: no two of them clash.
* `find?_eq_some_iff`: a lookup.
-/

open TransitionSystem

namespace UniqueRows

/-- A change of a table. -/
inductive Change (ρ : Type*) where
  | insert (row : ρ)
  | remove (p : ρ → Bool)

variable {ρ α : Type*} (clash meets : ρ → ρ → Bool) (effect : α → Option (Change ρ))

/-- A row is inserted unless it clashes with another; it does not meet another in the values that
are drawn. -/
def apply (rows : List ρ) : Change ρ → Option (List ρ)
  | .insert row =>
      if rows.any (meets row) then none
      else some (if rows.any (clash row) then rows else rows ++ [row])
  | .remove p => some (rows.filter fun row => !p row)

/-- The step function: an action has its effect on the table. -/
def step (rows : List ρ) (a : α) : Option (List ρ) :=
  match effect a with
  | none => some rows
  | some c => apply clash meets rows c

/-- The action inserted the row, which has not been removed since. -/
def Stands (as : List α) (a : α) (row : ρ) : Prop :=
  ∃ before after rows, as = before ++ a :: after ∧
    run (step clash meets effect) [] before = some rows ∧
    effect a = some (.insert row) ∧ rows.any (clash row) = false ∧
    ∀ a' ∈ after, ∀ p, effect a' = some (.remove p) → p row = false

variable {clash meets effect} {as : List α} {rows rows' : List ρ} {row : ρ}

/-- A row stands after one more action when that has inserted it, or when it stood before and was
not removed. -/
theorem stands_snoc_iff {a b : α} (hrun : run (step clash meets effect) [] as = some rows) :
    Stands clash meets effect (as ++ [b]) a row ↔
      (a = b ∧ effect b = some (.insert row) ∧ rows.any (clash row) = false) ∨
        Stands clash meets effect as a row ∧
          ∀ p, effect b = some (.remove p) → p row = false := by
  constructor
  · rintro ⟨before, after, rows', has, hbefore, heffect, hclash, hafter⟩
    rcases List.eq_nil_or_concat after with rfl | ⟨after, c, rfl⟩
    · obtain ⟨rfl, hb⟩ := List.append_inj' has rfl
      obtain rfl := List.singleton_inj.mp hb
      obtain rfl := Option.some.inj (hrun.symm.trans hbefore)
      exact Or.inl ⟨rfl, heffect, hclash⟩
    · rw [List.concat_eq_append] at has hafter
      rw [← List.cons_append, ← List.append_assoc] at has
      obtain ⟨rfl, hb⟩ := List.append_inj' has rfl
      obtain rfl := List.singleton_inj.mp hb
      refine Or.inr ⟨⟨before, after, rows', rfl, hbefore, heffect, hclash, fun a' ha' => ?_⟩, ?_⟩
      · exact hafter a' (List.mem_append_left _ ha')
      · exact hafter b (List.mem_append_right _ (List.mem_singleton_self _))
  · rintro (⟨rfl, heffect, hclash⟩ | ⟨⟨before, after, rows', rfl, hrest⟩, hb⟩)
    · exact ⟨as, [], rows, rfl, hrun, heffect, hclash, by simp⟩
    · obtain ⟨hbefore, heffect, hclash, hafter⟩ := hrest
      refine ⟨before, after ++ [b], rows', by simp, hbefore, heffect, hclash, fun a' ha' => ?_⟩
      rcases List.mem_append.mp ha' with hmem | hmem
      · exact hafter a' hmem
      · exact List.mem_singleton.mp hmem ▸ hb

/-- What an insertion leaves. -/
theorem mem_insert_iff {new : ρ} (h : apply clash meets rows (.insert new) = some rows') :
    row ∈ rows' ↔ row ∈ rows ∨ (row = new ∧ rows.any (clash new) = false) := by
  rw [apply, Option.ite_none_left_eq_some, Option.some.injEq] at h
  obtain ⟨-, rfl⟩ := h
  cases rows.any (clash new) <;> simp

/-- **The rows of a table stand**, and no others do. -/
theorem mem_iff_stands (hrun : run (step clash meets effect) [] as = some rows) (row : ρ) :
    row ∈ rows ↔ ∃ a, Stands clash meets effect as a row := by
  induction as using List.reverseRecOn generalizing rows with
  | nil =>
      obtain rfl := Option.some.inj hrun
      simp [Stands]
  | append_singleton as b ih =>
      obtain ⟨rows₀, has, hstep⟩ := run_snoc_eq_some.mp hrun
      simp only [stands_snoc_iff has, exists_or, exists_eq_left]
      rw [exists_and_right, ← ih has]
      rw [step] at hstep
      split at hstep
      · next hnone =>
          obtain rfl := Option.some.inj hstep
          simp [hnone]
      · next c hc =>
          rw [hc]
          cases c with
          | insert new =>
              rw [mem_insert_iff hstep]
              constructor
              · rintro (hold | ⟨rfl, hclash⟩)
                · exact Or.inr ⟨hold, by simp⟩
                · exact Or.inl ⟨rfl, hclash⟩
              · rintro (⟨hnew, hclash⟩ | ⟨hold, -⟩)
                · obtain rfl : new = row := by simpa using hnew
                  exact Or.inr ⟨rfl, hclash⟩
                · exact Or.inl hold
          | remove p =>
              obtain rfl := Option.some.inj hstep
              simp

/-- **No two rows clash**, or meet in what is drawn. -/
theorem pairwise_of_run (hclash : ∀ r r', clash r r' = clash r' r)
    (hmeets : ∀ r r', meets r r' = meets r' r)
    (hrun : run (step clash meets effect) [] as = some rows) :
    rows.Pairwise fun r r' => clash r r' = false ∧ meets r r' = false := by
  induction as using List.reverseRecOn generalizing rows with
  | nil =>
      obtain rfl := Option.some.inj hrun
      exact List.Pairwise.nil
  | append_singleton as b ih =>
      obtain ⟨rows₀, has, hstep⟩ := run_snoc_eq_some.mp hrun
      rw [step] at hstep
      split at hstep
      · exact Option.some.inj hstep ▸ ih has
      · next c hc =>
          cases c with
          | insert new =>
              rw [apply, Option.ite_none_left_eq_some, Option.some.injEq] at hstep
              obtain ⟨hfresh, rfl⟩ := hstep
              split
              · exact ih has
              · next hnone =>
                  refine List.pairwise_append.mpr ⟨ih has, List.pairwise_singleton _ _, ?_⟩
                  intro r hr r' hr'
                  obtain rfl := List.mem_singleton.mp hr'
                  rw [hclash, hmeets]
                  exact ⟨by simpa using List.any_eq_false.mp (by simpa using hnone) r hr,
                    by simpa using List.any_eq_false.mp (by simpa using hfresh) r hr⟩
          | remove p =>
              obtain rfl := Option.some.inj hstep
              exact (ih has).filter _

section Lookup

variable {κ : Type*} (key : ρ → κ)

/-- The column tells the rows of a table apart. -/
theorem eq_of_key_eq (hclash : ∀ r r', clash r r' = clash r' r)
    (hmeets : ∀ r r', meets r r' = meets r' r)
    (hkey : ∀ r r', key r = key r' → clash r r' = true ∨ meets r r' = true)
    (hrun : run (step clash meets effect) [] as = some rows) {r r' : ρ} (hr : r ∈ rows)
    (hr' : r' ∈ rows) (h : key r = key r') : r = r' := by
  have hpairwise := pairwise_of_run hclash hmeets hrun
  have : Std.Symm fun r r' => clash r r' = false ∧ meets r r' = false :=
    ⟨fun r r' hrr' => by rwa [hclash, hmeets]⟩
  by_contra hne
  obtain ⟨hc, hm⟩ := hpairwise.forall hr hr' hne
  rcases hkey r r' h with htrue | htrue
  · simp [hc] at htrue
  · simp [hm] at htrue

/-- **A lookup finds the one row that stands**, by a column that tells rows apart. -/
theorem find?_eq_some_iff [DecidableEq κ] (hclash : ∀ r r', clash r r' = clash r' r)
    (hmeets : ∀ r r', meets r r' = meets r' r)
    (hkey : ∀ r r', key r = key r' → clash r r' = true ∨ meets r r' = true)
    (hrun : run (step clash meets effect) [] as = some rows) (k : κ) (row : ρ) :
    rows.find? (fun r => key r = k) = some row ↔
      (∃ a, Stands clash meets effect as a row) ∧ key row = k := by
  rw [← mem_iff_stands hrun]
  constructor
  · intro h
    exact ⟨List.mem_of_find?_eq_some h, by simpa using List.find?_some h⟩
  · rintro ⟨hmem, rfl⟩
    obtain ⟨r, hr⟩ : ∃ r, rows.find? (fun r => key r = key row) = some r :=
      Option.isSome_iff_exists.mp (List.find?_isSome.mpr ⟨row, hmem, by simp⟩)
    have hsame : key r = key row := by simpa using List.find?_some hr
    rw [hr, eq_of_key_eq key hclash hmeets hkey hrun (List.mem_of_find?_eq_some hr) hmem hsame]

end Lookup

/-! ### Reading the rows -/

section Reading

variable {δ ε : Type*} {read : ρ → Except ε δ} {shown : α → Option δ}

/-- Rows that are all readable are read. -/
theorem mapM_eq_ok (h : ∀ row ∈ rows, ∃ c, read row = .ok c) :
    ∃ l, rows.mapM read = .ok l ∧ ∀ c, c ∈ l ↔ ∃ row ∈ rows, read row = .ok c := by
  induction rows with
  | nil => exact ⟨[], rfl, by simp⟩
  | cons row rows ih =>
      obtain ⟨⟨c, hc⟩, hrows⟩ := List.forall_mem_cons.mp h
      obtain ⟨l, hl, hmem⟩ := ih hrows
      refine ⟨c :: l, ?_, fun c' => ?_⟩
      · rw [List.mapM_cons, hc, hl]
        rfl
      · rw [List.mem_cons, hmem, List.exists_mem_cons_iff, hc, Except.ok.injEq, eq_comm]

/-- **A table is read** as what the insertions show whose rows stand. -/
theorem mapM_iff_stands
    (hread : ∀ a row, effect a = some (.insert row) → ∃ c, shown a = some c ∧ read row = .ok c)
    (hrun : run (step clash meets effect) [] as = some rows) :
    ∃ l, rows.mapM read = .ok l ∧
      ∀ c, c ∈ l ↔ ∃ a row, Stands clash meets effect as a row ∧ shown a = some c := by
  have hstands : ∀ row, row ∈ rows ↔ ∃ a, Stands clash meets effect as a row :=
    mem_iff_stands hrun
  have hshown : ∀ {a row}, Stands clash meets effect as a row →
      ∃ c, shown a = some c ∧ read row = .ok c := by
    rintro a row ⟨-, -, -, -, -, heffect, -⟩
    exact hread a row heffect
  have hreadable : ∀ row ∈ rows, ∃ c, read row = .ok c := by
    intro row hrow
    obtain ⟨a, ha⟩ := (hstands row).mp hrow
    obtain ⟨c, -, hc⟩ := hshown ha
    exact ⟨c, hc⟩
  obtain ⟨l, hl, hmem⟩ := mapM_eq_ok hreadable
  refine ⟨l, hl, fun c => ?_⟩
  rw [hmem]
  constructor
  · rintro ⟨row, hrow, hc⟩
    obtain ⟨a, ha⟩ := (hstands row).mp hrow
    obtain ⟨c', hc', hok⟩ := hshown ha
    rw [hc] at hok
    exact ⟨a, row, ha, hc'.trans (congrArg some (Except.ok.inj hok).symm)⟩
  · rintro ⟨a, row, ha, hc⟩
    obtain ⟨c', hc', hok⟩ := hshown ha
    rw [hc] at hc'
    exact ⟨row, (hstands row).mpr ⟨a, ha⟩, hok.trans (congrArg _ (Option.some.inj hc').symm)⟩

end Reading

end UniqueRows
