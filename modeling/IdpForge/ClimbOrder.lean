import IdpForge.ParentWalk
import Mathlib.Data.List.Sort
import Mathlib.Logic.Function.Iterate
import Mathlib.Order.Lattice.Nat

/-!
# The Order of the Climbs

`climbAll` ends a climb at a node met before, and in any case after a fixed number of steps. A
climb that was cut short by its number of steps can then cut another one short, which would have
gone further, and what is collected depends on the order of the starts.

A node is safe from that when some start reaches it by a path such that every start which gets
onto the path gets to the node as well.

## Main results

* `mem_climb_iff`: what one climb collects.
* `mem_climbAll_of_covered`: safe nodes are collected in every order.
* `exists_perm_not_mem`: the others are missed in some order.
* `climbAll_perm_iff`: the order of the starts does not matter exactly when all nodes in reach are
  safe.
-/

namespace ParentWalk

variable {α : Type*} (parent : α → α) (stop : α)

/-- The climb is at the node after so many steps, and has not met the stop. -/
def Reaches (i : Nat) (h y : α) : Prop := parent^[i] h = y ∧ ∀ j ≤ i, parent^[j] h ≠ stop

/-- The climb gets to the node with fewer steps than there are. -/
def Near (fuel : Nat) (h y : α) : Prop := ∃ i < fuel, Reaches parent stop i h y

/-- Some start reaches the node by a path such that every start which gets onto the path gets to
the node as well. -/
def Covered (fuel : Nat) (starts : List α) (y : α) : Prop :=
  ∃ g ∈ starts, ∃ i < fuel, Reaches parent stop i g y ∧
    ∀ h ∈ starts, (∃ j ≤ i, Near parent stop fuel h (parent^[j] g)) → Near parent stop fuel h y

/-- Once a node of the path is collected, its last node is. -/
def Finishes (i : Nat) (g y : α) (seen : List α) : Prop :=
  (∃ j ≤ i, parent^[j] g ∈ seen) → y ∈ seen

/-- The least number of steps to the node. -/
noncomputable def distance (y h : α) : Nat := sInf {k | Reaches parent stop k h y}

variable {parent stop}

section Paths

variable {i j k : Nat} {h w y : α}

/-- A path starts where it starts. -/
theorem reaches_zero (hstop : h ≠ stop) : Reaches parent stop 0 h h :=
  ⟨rfl, fun j hj => by rwa [Nat.le_zero.mp hj]⟩

/-- A path does not start at the stop. -/
theorem Reaches.start_ne (hreach : Reaches parent stop i h y) : h ≠ stop :=
  hreach.2 0 (Nat.zero_le i)

/-- The first part of a path. -/
theorem Reaches.take (hreach : Reaches parent stop i h y) (hj : j ≤ i) :
    Reaches parent stop j h (parent^[j] h) :=
  ⟨rfl, fun l hl => hreach.2 l (hl.trans hj)⟩

/-- The rest of a path. -/
theorem Reaches.drop (hreach : Reaches parent stop i h y) (hj : j ≤ i) :
    Reaches parent stop (i - j) (parent^[j] h) y := by
  have hsplit : i = i - j + j := by omega
  refine ⟨?_, fun l hl => ?_⟩
  · rw [← Function.iterate_add_apply, ← hsplit]
    exact hreach.1
  · rw [← Function.iterate_add_apply]
    exact hreach.2 (l + j) (by omega)

/-- Two paths in a row. -/
theorem Reaches.trans (hfirst : Reaches parent stop i h w) (hrest : Reaches parent stop k w y) :
    Reaches parent stop (i + k) h y := by
  refine ⟨?_, fun l hl => ?_⟩
  · rw [Nat.add_comm, Function.iterate_add_apply, hfirst.1, hrest.1]
  · by_cases hle : l ≤ i
    · exact hfirst.2 l hle
    · obtain ⟨m, rfl⟩ := Nat.exists_eq_add_of_le (Nat.le_of_not_le hle)
      rw [Nat.add_comm, Function.iterate_add_apply, hfirst.1]
      exact hrest.2 m (by omega)

/-- One more step at the start of a path. -/
theorem Reaches.cons (hstop : h ≠ stop) (hrest : Reaches parent stop i (parent h) y) :
    Reaches parent stop (i + 1) h y := by
  rw [Nat.add_comm]
  refine Reaches.trans ⟨rfl, fun j hj => ?_⟩ hrest
  rcases Nat.le_one_iff_eq_zero_or_eq_one.mp hj with rfl | rfl
  · exact hstop
  · exact hrest.start_ne

/-- The least number of steps gets to a node that is reached at all. -/
theorem reaches_distance (hreach : Reaches parent stop i h y) :
    Reaches parent stop (distance parent stop y h) h y :=
  Nat.sInf_mem (s := {k | Reaches parent stop k h y}) ⟨i, hreach⟩

/-- It is the least one. -/
theorem distance_le (hreach : Reaches parent stop i h y) : distance parent stop y h ≤ i :=
  Nat.sInf_le hreach

/-- A climb too short to get to the node still brings the node nearer by its steps. -/
theorem distance_add {fuel : Nat} (hfar : ¬ Near parent stop fuel h y)
    (hfirst : Reaches parent stop i h w) (hi : i < fuel) (hrest : Reaches parent stop k w y) :
    distance parent stop y h = i + distance parent stop y w := by
  have hh := reaches_distance (hfirst.trans hrest)
  have hle := distance_le (hfirst.trans (reaches_distance hrest))
  have hlong : fuel ≤ distance parent stop y h := by
    by_contra hlt
    exact hfar ⟨_, Nat.lt_of_not_le hlt, hh⟩
  have hdrop := hh.drop (hi.le.trans hlong)
  rw [hfirst.1] at hdrop
  have hge := distance_le hdrop
  omega

end Paths

/-- The order of the starts does not matter for being safe. -/
theorem Covered.perm {fuel : Nat} {starts starts' : List α} {y : α}
    (hcovered : Covered parent stop fuel starts y) (hperm : starts'.Perm starts) :
    Covered parent stop fuel starts' y := by
  obtain ⟨g, hg, i, hi, hreach, hall⟩ := hcovered
  exact ⟨g, hperm.mem_iff.mpr hg, i, hi, hreach, fun h hh => hall h (hperm.mem_iff.mp hh)⟩

variable [DecidableEq α]

/-! ### One climb -/

/-- What a climb collects is on its path, and it has not met anything collected before. -/
theorem exists_reaches_of_mem_climb {fuel : Nat} {cur a : α} {seen : List α}
    (h : a ∈ climb parent stop fuel cur seen) :
    a ∈ seen ∨ ∃ i < fuel, Reaches parent stop i cur a ∧ ∀ j ≤ i, parent^[j] cur ∉ seen := by
  induction fuel generalizing cur seen with
  | zero => exact Or.inl h
  | succ fuel ih =>
      rw [climb] at h
      split at h
      · exact Or.inl h
      · next hgoes =>
          obtain ⟨hstop, hnew⟩ := not_or.mp hgoes
          rcases ih h with hseen | ⟨i, hi, hreach, hclear⟩
          · rcases List.mem_append.mp hseen with hseen | hself
            · exact Or.inl hseen
            · obtain rfl := List.mem_singleton.mp hself
              exact Or.inr ⟨0, Nat.succ_pos fuel, reaches_zero hstop, by simpa using hnew⟩
          · refine Or.inr ⟨i + 1, Nat.succ_lt_succ hi, hreach.cons hstop, fun j hj => ?_⟩
            cases j with
            | zero => exact hnew
            | succ j =>
                exact fun hmem => hclear j (by omega) (List.mem_append_left _ hmem)

/-- A climb collects what is on its path before anything collected before. -/
theorem mem_climb_of_reaches {fuel i : Nat} {cur a : α} {seen : List α} (hi : i < fuel)
    (hreach : Reaches parent stop i cur a) (hclear : ∀ j ≤ i, parent^[j] cur ∉ seen) :
    a ∈ climb parent stop fuel cur seen := by
  induction fuel generalizing cur seen i with
  | zero => exact absurd hi (Nat.not_lt_zero i)
  | succ fuel ih =>
      have hnew : cur ∉ seen := hclear 0 (Nat.zero_le i)
      rw [climb, if_neg (not_or.mpr ⟨hreach.start_ne, hnew⟩)]
      induction i using Nat.strong_induction_on with
      | _ i ihi =>
          by_cases hcycle : ∃ k, 0 < k ∧ k ≤ i ∧ parent^[k] cur = cur
          · -- the path comes back to its start, and a shorter one will do
            obtain ⟨k, hpos, hk, hback⟩ := hcycle
            have hshort := hreach.drop hk
            rw [hback] at hshort
            exact ihi (i - k) (by omega) (by omega) hshort fun j hj => hclear j (by omega)
          · cases i with
            | zero =>
                rw [← hreach.1]
                exact subset_climb _ _ _ (List.mem_append_right _ (List.mem_singleton.mpr rfl))
            | succ i =>
                refine ih (Nat.lt_of_succ_lt_succ hi) (hreach.drop (Nat.succ_le_succ i.zero_le)) ?_
                intro j hj hmem
                rw [← Function.iterate_succ_apply] at hmem
                rcases List.mem_append.mp hmem with hmem | hself
                · exact hclear (j + 1) (by omega) hmem
                · exact hcycle ⟨j + 1, by omega, by omega, List.mem_singleton.mp hself⟩

/-- **One climb.** It collects its path up to the first node collected before. -/
theorem mem_climb_iff {fuel : Nat} {cur a : α} {seen : List α} :
    a ∈ climb parent stop fuel cur seen ↔
      a ∈ seen ∨ ∃ i < fuel, Reaches parent stop i cur a ∧ ∀ j ≤ i, parent^[j] cur ∉ seen := by
  refine ⟨exists_reaches_of_mem_climb, ?_⟩
  rintro (hseen | ⟨i, hi, hreach, hclear⟩)
  · exact subset_climb _ _ _ hseen
  · exact mem_climb_of_reaches hi hreach hclear

/-! ### Several climbs -/

variable (parent stop) in
/-- Climbs from each start in turn onto what is collected already. -/
def climbOnto (fuel : Nat) (starts seen : List α) : List α :=
  starts.foldl (fun seen start => climb parent stop fuel start seen) seen

section Onto

variable {fuel : Nat} {starts starts' seen : List α} {h w y : α}

/-- The climbs of the one list, then of the other. -/
theorem climbOnto_append :
    climbOnto parent stop fuel (starts ++ starts') seen =
      climbOnto parent stop fuel starts' (climbOnto parent stop fuel starts seen) :=
  List.foldl_append

/-- The climbs keep what was collected. -/
theorem subset_climbOnto (starts seen : List α) :
    seen ⊆ climbOnto parent stop fuel starts seen := by
  induction starts generalizing seen with
  | nil => exact List.Subset.refl _
  | cons start starts ih => exact List.Subset.trans (subset_climb _ _ _) (ih _)

/-- The climbs collect only what some start gets to. -/
theorem near_of_mem_climbOnto (hmem : y ∈ climbOnto parent stop fuel starts seen) :
    y ∈ seen ∨ ∃ g ∈ starts, Near parent stop fuel g y := by
  induction starts generalizing seen with
  | nil => exact Or.inl hmem
  | cons start starts ih =>
      rcases ih hmem with hclimb | ⟨g, hg, hnear⟩
      · rcases mem_climb_iff.mp hclimb with hseen | ⟨i, hi, hreach, -⟩
        · exact Or.inl hseen
        · exact Or.inr ⟨start, List.mem_cons_self, i, hi, hreach⟩
      · exact Or.inr ⟨g, List.mem_cons_of_mem _ hg, hnear⟩

/-- The first start collects what it gets to. -/
theorem mem_climbAll_cons (hnear : Near parent stop fuel h y) :
    y ∈ climbAll parent stop fuel (h :: starts) := by
  obtain ⟨i, hi, hreach⟩ := hnear
  refine subset_climbOnto starts _ ?_
  exact mem_climb_of_reaches hi hreach fun j _ => List.not_mem_nil

end Onto

/-! ### Safe nodes -/

section Safe

variable {fuel i : Nat} {starts seen : List α} {g h y : α}

/-- **A climb keeps the path finished**, provided it gets to the end when it gets onto the path. -/
theorem Finishes.climb (hfinishes : Finishes parent i g y seen)
    (hreach : Reaches parent stop i g y)
    (hgets : (∃ j ≤ i, Near parent stop fuel h (parent^[j] g)) → Near parent stop fuel h y) :
    Finishes parent i g y (climb parent stop fuel h seen) := by
  rintro ⟨j, hj, hmem⟩
  by_cases hbefore : ∃ l ≤ i, parent^[l] g ∈ seen
  · exact subset_climb _ _ _ (hfinishes hbefore)
  -- the climb itself got onto the path, so nothing it met up to there was collected
  have houtside : ∀ l ≤ i, parent^[l] g ∉ seen := fun l hl hseen => hbefore ⟨l, hl, hseen⟩
  rcases mem_climb_iff.mp hmem with hseen | ⟨p, hp, hon, hclear⟩
  · exact absurd hseen (houtside j hj)
  have hthrough : ∀ l ≤ p + (i - j), parent^[l] h ∉ seen := by
    intro l hl
    by_cases hlp : l ≤ p
    · exact hclear l hlp
    · obtain ⟨m, rfl⟩ := Nat.exists_eq_add_of_le (Nat.le_of_not_le hlp)
      rw [Nat.add_comm p m, Function.iterate_add_apply, hon.1, ← Function.iterate_add_apply]
      exact houtside (m + j) (by omega)
  obtain ⟨m, hm, hend⟩ := hgets ⟨j, hj, p, hp, hon⟩
  by_cases hshort : m ≤ p + (i - j)
  · exact mem_climb_of_reaches hm hend fun l hl => hthrough l (hl.trans hshort)
  · exact mem_climb_of_reaches (by omega) (hon.trans (hreach.drop hj)) hthrough

/-- So do several climbs. -/
theorem Finishes.climbOnto (hfinishes : Finishes parent i g y seen)
    (hreach : Reaches parent stop i g y)
    (hgets : ∀ h ∈ starts,
      (∃ j ≤ i, Near parent stop fuel h (parent^[j] g)) → Near parent stop fuel h y) :
    Finishes parent i g y (climbOnto parent stop fuel starts seen) := by
  induction starts generalizing seen with
  | nil => exact hfinishes
  | cons start starts ih =>
      rw [List.forall_mem_cons] at hgets
      exact ih (hfinishes.climb hreach hgets.1) hgets.2

/-- **Safe nodes are collected**, whatever the order of the starts. -/
theorem mem_climbAll_of_covered (hcovered : Covered parent stop fuel starts y) :
    y ∈ climbAll parent stop fuel starts := by
  obtain ⟨g, hg, i, hi, hreach, hgets⟩ := hcovered
  obtain ⟨before, after, rfl⟩ := List.append_of_mem hg
  have hempty : Finishes parent i g y [] := fun ⟨_, _, hmem⟩ => absurd hmem List.not_mem_nil
  have hbefore : Finishes parent i g y (climbOnto parent stop fuel before []) :=
    hempty.climbOnto hreach fun h hh => hgets h (List.mem_append_left _ hh)
  change y ∈ climbOnto parent stop fuel (before ++ g :: after) []
  rw [climbOnto_append]
  refine subset_climbOnto after _ ?_
  by_cases hon : ∃ j ≤ i, parent^[j] g ∈ climbOnto parent stop fuel before []
  · exact subset_climb _ _ _ (hbefore hon)
  · exact mem_climb_of_reaches hi hreach fun j hj hmem => hon ⟨j, hj, hmem⟩

end Safe

/-! ### Other nodes -/

section Missed

variable {fuel k : Nat} {starts seen : List α} {h w y : α}

/-- **Far starts, nearest first.** When no start gets to the node and none comes before one that
is nearer, the climbs collect all that a start gets to on the way to the node. -/
theorem mem_climbOnto_of_leads (hfar : ∀ h ∈ starts, ¬ Near parent stop fuel h y)
    (hsorted : starts.Pairwise fun h h' => distance parent stop y h ≤ distance parent stop y h')
    (hh : h ∈ starts) (hnear : Near parent stop fuel h w) (hleads : Reaches parent stop k w y) :
    w ∈ climbOnto parent stop fuel starts [] := by
  induction starts using List.reverseRecOn generalizing h w k with
  | nil => exact absurd hh List.not_mem_nil
  | append_singleton starts last ih =>
      obtain ⟨hbefore, -, hlast⟩ := List.pairwise_append.mp hsorted
      have hearlier : ∀ {h' w' : α} {k' : Nat}, h' ∈ starts → Near parent stop fuel h' w' →
          Reaches parent stop k' w' y → w' ∈ climbOnto parent stop fuel starts [] := fun hh' =>
        ih (fun h' hh' => hfar h' (List.mem_append_left _ hh')) hbefore hh'
      rw [climbOnto_append]
      rcases List.mem_append.mp hh with hh | hh
      · exact subset_climb _ _ _ (hearlier hh hnear hleads)
      rw [List.mem_singleton.mp hh] at hnear
      obtain ⟨p, hp, hreach⟩ := hnear
      by_cases hclear : ∀ b ≤ p, parent^[b] last ∉ climbOnto parent stop fuel starts []
      · exact mem_climb_of_reaches hp hreach hclear
      -- an earlier start was here before; it is no farther from the node, so it got to `w` too
      push Not at hclear
      obtain ⟨b, hb, hmet⟩ := hclear
      obtain ⟨h', hh', a, ha, hmeets⟩ :=
        (near_of_mem_climbOnto hmet).resolve_left List.not_mem_nil
      have hrest := hreach.drop hb
      have hdist' := distance_add (hfar h' (List.mem_append_left _ hh')) hmeets ha
        (hrest.trans hleads)
      have hdist := distance_add (hfar last (List.mem_append_right _ (List.mem_singleton_self _)))
        (hreach.take hb) (hb.trans_lt hp) (hrest.trans hleads)
      have hle := hlast h' hh' last (List.mem_singleton_self _)
      have hsteps : a + (p - b) < fuel := by omega
      exact subset_climb _ _ _ (hearlier hh' ⟨_, hsteps, hmeets.trans hrest⟩ hleads)

/-- **Starts that are cut short.** When every path of the starts to the node has a collected node,
the climbs do not collect the node. -/
theorem not_mem_climbOnto_of_met (hnot : y ∉ seen)
    (hmet : ∀ g ∈ starts, ∀ i < fuel, Reaches parent stop i g y → ∃ j ≤ i, parent^[j] g ∈ seen) :
    y ∉ climbOnto parent stop fuel starts seen := by
  induction starts generalizing seen with
  | nil => exact hnot
  | cons start starts ih =>
      rw [List.forall_mem_cons] at hmet
      refine ih (fun hmem => ?_) fun g hg i hi hreach => ?_
      · rcases mem_climb_iff.mp hmem with hseen | ⟨i, hi, hreach, hclear⟩
        · exact hnot hseen
        · obtain ⟨j, hj, hseen⟩ := hmet.1 i hi hreach
          exact hclear j hj hseen
      · obtain ⟨j, hj, hseen⟩ := hmet.2 g hg i hi hreach
        exact ⟨j, hj, subset_climb _ _ _ hseen⟩

/-- **Other nodes are missed** in some order of the starts: first those that do not get to the
node, nearest first, and then the others. -/
theorem exists_perm_not_mem (huncovered : ¬ Covered parent stop fuel starts y) :
    ∃ starts' : List α, starts'.Perm starts ∧ y ∉ climbAll parent stop fuel starts' := by
  classical
  let far := (starts.filter fun g => ¬ Near parent stop fuel g y).insertionSort
    fun h h' => distance parent stop y h ≤ distance parent stop y h'
  let near := starts.filter fun g => Near parent stop fuel g y
  have hfar : ∀ h, h ∈ far ↔ h ∈ starts ∧ ¬ Near parent stop fuel h y := by
    simp [far, List.mem_insertionSort]
  refine ⟨far ++ near, ?_, ?_⟩
  · refine ((List.perm_insertionSort _ _).append_right near).trans ?_
    refine List.perm_append_comm.trans ?_
    simpa [near] using List.filter_append_perm (fun g => decide (Near parent stop fuel g y)) starts
  · change y ∉ climbOnto parent stop fuel (far ++ near) []
    rw [climbOnto_append]
    refine not_mem_climbOnto_of_met (fun hmem => ?_) fun g hg i hi hreach => ?_
    · obtain ⟨h, hh, hnear⟩ := (near_of_mem_climbOnto hmem).resolve_left List.not_mem_nil
      exact ((hfar h).mp hh).2 hnear
    · -- the node is not safe on this path, and the start that shows it was climbed before
      have hg' : g ∈ starts := (List.mem_filter.mp hg).1
      have hpath : ¬ ∀ h ∈ starts, (∃ j ≤ i, Near parent stop fuel h (parent^[j] g)) →
          Near parent stop fuel h y := fun hall => huncovered ⟨g, hg', i, hi, hreach, hall⟩
      push Not at hpath
      obtain ⟨h, hh, ⟨j, hj, hon⟩, hnot⟩ := hpath
      refine ⟨j, hj, mem_climbOnto_of_leads (fun h' hh' => ((hfar h').mp hh').2) ?_
        ((hfar h).mpr ⟨hh, hnot⟩) hon (hreach.drop hj)⟩
      exact List.pairwise_insertionSort _ _

end Missed

/-! ### The order of the starts -/

/-- **The order of the starts does not matter** for what is collected exactly when every node that
a start gets to is safe. -/
theorem climbAll_perm_iff {fuel : Nat} {starts : List α} :
    (∀ starts' : List α, starts'.Perm starts → ∀ y,
        y ∈ climbAll parent stop fuel starts' ↔ y ∈ climbAll parent stop fuel starts) ↔
      ∀ y, (∃ g ∈ starts, Near parent stop fuel g y) → Covered parent stop fuel starts y := by
  constructor
  · rintro hsame y ⟨g, hg, hnear⟩
    by_contra huncovered
    obtain ⟨starts', hperm, hmissed⟩ := exists_perm_not_mem huncovered
    -- with `g` first the node is collected
    have hfirst : y ∈ climbAll parent stop fuel (g :: starts.erase g) := mem_climbAll_cons hnear
    have hmem := (hsame _ (List.perm_cons_erase hg).symm y).mp hfirst
    exact hmissed ((hsame starts' hperm y).mpr hmem)
  · intro hsafe starts' hperm y
    have hcollected : ∀ {l : List α}, l.Perm starts →
        (y ∈ climbAll parent stop fuel l ↔ ∃ g ∈ starts, Near parent stop fuel g y) := by
      intro l hl
      constructor
      · intro hmem
        obtain ⟨g, hg, hnear⟩ := (near_of_mem_climbOnto hmem).resolve_left List.not_mem_nil
        exact ⟨g, hl.mem_iff.mp hg, hnear⟩
      · exact fun hnear => mem_climbAll_of_covered ((hsafe y hnear).perm hl)
    rw [hcollected hperm, hcollected (List.Perm.refl starts)]

/-- Where no start has more ancestors than there are steps, all nodes are safe. -/
theorem covered_of_within {fuel : Nat} {starts : List α}
    (hwithin : ∀ g ∈ starts, Within parent stop fuel g []) {y : α}
    (hnear : ∃ g ∈ starts, Near parent stop fuel g y) : Covered parent stop fuel starts y := by
  refine climbAll_perm_iff.mp (fun starts' hperm a => ?_) y hnear
  constructor <;> intro hmem
  · obtain ⟨g, hg, hanc⟩ := ancestor_of_mem_climbAll hmem
    exact mem_climbAll_of_ancestor hwithin (hperm.mem_iff.mp hg) hanc
  · obtain ⟨g, hg, hanc⟩ := ancestor_of_mem_climbAll hmem
    exact mem_climbAll_of_ancestor (fun g' hg' => hwithin g' (hperm.mem_iff.mp hg'))
      (hperm.mem_iff.mpr hg) hanc

end ParentWalk
