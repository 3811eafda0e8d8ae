import Mathlib.Data.List.Nodup
import Mathlib.Logic.Relation

/-!
# Climbing Parent Links

Each node of a hierarchy has at most one parent. From a list of starting nodes, `climbAll`
follows the links upward one start after the other and collects what it meets; it ends a
climb at a node met before, at the top, and in any case after a fixed number of steps, so
it also ends on cyclic links. A stop value marks the missing parent.

## Main results

* `mem_climbAll_of_ancestor`: where no start has more distinct ancestors than there are
  steps, every ancestor of every start is collected. A climb that ends at a collected node
  loses nothing, because what was collected before is closed under parents (`Closed`).
* `ancestor_of_mem_climbAll`: nothing else is collected.
* `climbAll_congr`: the links outside a set closed under parents do not matter in it.
-/

namespace ParentWalk

variable {α : Type*} (parent : α → α) (stop : α)

/-- The link from a node to its parent. -/
def Link (a b : α) : Prop :=
  a ≠ stop ∧ parent a = b ∧ b ≠ stop

/-- The ancestors of a node, itself included. -/
def Ancestor (a b : α) : Prop :=
  a ≠ stop ∧ Relation.ReflTransGen (Link parent stop) a b

/-- The parents of the collected nodes are collected, up to the node in hand. -/
def ClosedUpTo (cur : α) (seen : List α) : Prop :=
  ∀ a ∈ seen, parent a = stop ∨ parent a ∈ seen ∨ parent a = cur

/-- The parents of the collected nodes are collected. -/
def Closed (seen : List α) : Prop :=
  ∀ a ∈ seen, parent a = stop ∨ parent a ∈ seen

/-- A list of distinct ancestors of `cur` outside `seen` has at most `fuel` members. -/
def Within (fuel : Nat) (cur : α) (seen : List α) : Prop :=
  ∀ l : List α, l.Nodup → (∀ a ∈ l, Ancestor parent stop cur a ∧ a ∉ seen) → l.length ≤ fuel

section Walk

variable [DecidableEq α]

/-- Climbs from `cur` for at most `fuel` steps and appends what it meets to `seen`. -/
def climb : Nat → α → List α → List α
  | 0, _, seen => seen
  | fuel + 1, cur, seen =>
      if cur = stop ∨ cur ∈ seen then seen
      else climb fuel (parent cur) (seen ++ [cur])

/-- Climbs from each start in turn. -/
def climbAll (fuel : Nat) (starts : List α) : List α :=
  starts.foldl (fun seen start => climb parent stop fuel start seen) []

end Walk

variable {parent stop}

/-- The ancestors of a parent are ancestors. -/
theorem Ancestor.of_parent {a b : α} (ha : a ≠ stop) (h : Ancestor parent stop (parent a) b) :
    Ancestor parent stop a b :=
  ⟨ha, .head ⟨ha, rfl, h.1⟩ h.2⟩

/-- A closed list with a node in it has the node's ancestors. -/
theorem Closed.mem_of_ancestor {seen : List α} (hclosed : Closed parent stop seen) {a b : α}
    (ha : a ∈ seen) (h : Ancestor parent stop a b) : b ∈ seen := by
  obtain ⟨-, hlinks⟩ := h
  induction hlinks with
  | refl => exact ha
  | tail _ hlink ih =>
      obtain ⟨-, rfl, hne⟩ := hlink
      exact (hclosed _ ih).resolve_left hne

/-- A list closed up to a node is closed once the node is the top or in it. -/
theorem ClosedUpTo.closed {cur : α} {seen : List α} (h : ClosedUpTo parent stop cur seen)
    (hcur : cur = stop ∨ cur ∈ seen) : Closed parent stop seen := by
  intro a ha
  rcases h a ha with h | h | rfl
  · exact Or.inl h
  · exact Or.inr h
  · exact hcur

variable [DecidableEq α]

/-! ### One climb -/

/-- A climb keeps what was collected. -/
theorem subset_climb (fuel : Nat) (cur : α) (seen : List α) :
    seen ⊆ climb parent stop fuel cur seen := by
  induction fuel generalizing cur seen with
  | zero => exact List.Subset.refl _
  | succ fuel ih =>
      rw [climb]
      split
      · exact List.Subset.refl _
      · exact List.Subset.trans (List.subset_append_left _ _) (ih _ _)

/-- A climb collects ancestors of its start only. -/
theorem ancestor_of_mem_climb {fuel : Nat} {cur a : α} {seen : List α}
    (h : a ∈ climb parent stop fuel cur seen) : a ∈ seen ∨ Ancestor parent stop cur a := by
  induction fuel generalizing cur seen with
  | zero => exact Or.inl h
  | succ fuel ih =>
      rw [climb] at h
      split at h
      · exact Or.inl h
      · next hcur =>
          push Not at hcur
          rcases ih h with hseen | hanc
          · rcases List.mem_append.mp hseen with hseen | hself
            · exact Or.inl hseen
            · rw [List.mem_singleton.mp hself]
              exact Or.inr ⟨hcur.1, .refl⟩
          · exact Or.inr (hanc.of_parent hcur.1)

/-- **One climb** with enough steps collects its start and leaves a closed list. -/
theorem closed_climb {fuel : Nat} {cur : α} {seen : List α}
    (hwithin : Within parent stop fuel cur seen) (hclosed : ClosedUpTo parent stop cur seen) :
    Closed parent stop (climb parent stop fuel cur seen) ∧
      (cur = stop ∨ cur ∈ climb parent stop fuel cur seen) := by
  induction fuel generalizing cur seen with
  | zero =>
      -- no step is left, so the node in hand is the top or was met before
      have hcur : cur = stop ∨ cur ∈ seen := by
        by_contra hne
        push Not at hne
        have := hwithin [cur] (List.nodup_singleton _) (by
          intro a ha
          rw [List.mem_singleton.mp ha]
          exact ⟨⟨hne.1, .refl⟩, hne.2⟩)
        simp at this
      exact ⟨hclosed.closed hcur, hcur⟩
  | succ fuel ih =>
      rw [climb]
      split
      · next hcur => exact ⟨hclosed.closed hcur, hcur⟩
      · next hcur =>
          push Not at hcur
          obtain ⟨hne, hnew⟩ := hcur
          have hnext : Closed parent stop
              (climb parent stop fuel (parent cur) (seen ++ [cur])) := by
            refine (ih (fun l hl hall => ?_) (fun a ha => ?_)).1
            · -- `cur` itself is one more ancestor outside `seen`
              have hcons := hwithin (cur :: l) (List.nodup_cons.mpr ⟨fun hmem => ?_, hl⟩) ?_
              · rw [List.length_cons] at hcons
                omega
              · exact (hall cur hmem).2 (by simp)
              · intro a ha
                rcases List.mem_cons.mp ha with rfl | ha
                · exact ⟨⟨hne, .refl⟩, hnew⟩
                · obtain ⟨hanc, hout⟩ := hall a ha
                  exact ⟨hanc.of_parent hne, fun hm => hout (List.mem_append_left _ hm)⟩
            · rcases List.mem_append.mp ha with ha | ha
              · rcases hclosed a ha with h | h | h
                · exact Or.inl h
                · exact Or.inr (Or.inl (List.mem_append_left _ h))
                · exact Or.inr (Or.inl (by simp [h]))
              · rw [List.mem_singleton.mp ha]
                exact Or.inr (Or.inr rfl)
          exact ⟨hnext, Or.inr (subset_climb _ _ _ (by simp))⟩

/-! ### All starts -/

/-- The climbs from a list of starts onto what is collected already. -/
theorem foldl_climb {fuel : Nat} {starts : List α} {seen : List α}
    (hwithin : ∀ g ∈ starts, Within parent stop fuel g []) (hclosed : Closed parent stop seen) :
    let collected := starts.foldl (fun seen start => climb parent stop fuel start seen) seen
    Closed parent stop collected ∧ seen ⊆ collected ∧
      ∀ g ∈ starts, g = stop ∨ g ∈ collected := by
  induction starts generalizing seen with
  | nil => exact ⟨hclosed, List.Subset.refl _, by simp⟩
  | cons g starts ih =>
      rw [List.forall_mem_cons] at hwithin
      have hg : Within parent stop fuel g seen := fun l hl hall =>
        hwithin.1 l hl fun a ha => ⟨(hall a ha).1, by simp⟩
      obtain ⟨hclimb, hself⟩ := closed_climb hg (fun a ha => (hclosed a ha).imp_right Or.inl)
      obtain ⟨hall, hsub, hstarts⟩ := ih hwithin.2 hclimb
      refine ⟨hall, List.Subset.trans (subset_climb _ _ _) hsub, ?_⟩
      rw [List.forall_mem_cons]
      exact ⟨hself.imp_right fun hm => hsub hm, hstarts⟩

/-- **Every ancestor is collected** when no start has more ancestors than there are steps. -/
theorem mem_climbAll_of_ancestor {fuel : Nat} {starts : List α}
    (hwithin : ∀ g ∈ starts, Within parent stop fuel g []) {g a : α} (hg : g ∈ starts)
    (h : Ancestor parent stop g a) : a ∈ climbAll parent stop fuel starts := by
  have hempty : Closed parent stop [] := fun a ha => absurd ha List.not_mem_nil
  obtain ⟨hclosed, -, hstarts⟩ := foldl_climb hwithin hempty
  exact hclosed.mem_of_ancestor ((hstarts g hg).resolve_left h.1) h

/-- Only ancestors are collected. -/
theorem ancestor_of_mem_climbAll {fuel : Nat} {starts : List α} {a : α}
    (h : a ∈ climbAll parent stop fuel starts) :
    ∃ g ∈ starts, Ancestor parent stop g a := by
  have hfold : ∀ seen : List α,
      a ∈ starts.foldl (fun seen start => climb parent stop fuel start seen) seen →
        a ∈ seen ∨ ∃ g ∈ starts, Ancestor parent stop g a := by
    clear h
    induction starts with
    | nil => exact fun seen h => Or.inl h
    | cons g starts ih =>
        intro seen h
        rcases ih _ h with hclimb | ⟨g', hg', hanc⟩
        · rcases ancestor_of_mem_climb hclimb with hseen | hanc
          · exact Or.inl hseen
          · exact Or.inr ⟨g, List.mem_cons_self, hanc⟩
        · exact Or.inr ⟨g', List.mem_cons_of_mem _ hg', hanc⟩
  exact (hfold [] h).resolve_left List.not_mem_nil

/-! ### Other links elsewhere -/

section Congr

variable {parent' : α → α} {S : α → Prop}

/-- A climb within a set closed under parents reads only the links in it. -/
theorem climb_congr (hlinks : ∀ a, S a → parent' a = parent a ∧ (parent a = stop ∨ S (parent a)))
    {fuel : Nat} {cur : α} {seen : List α} (hcur : cur = stop ∨ S cur) :
    climb parent' stop fuel cur seen = climb parent stop fuel cur seen := by
  induction fuel generalizing cur seen with
  | zero => rfl
  | succ fuel ih =>
      rw [climb, climb]
      split
      · rfl
      · next hgoes =>
          push Not at hgoes
          obtain ⟨hsame, hparent⟩ := hlinks cur (hcur.resolve_left hgoes.1)
          rw [hsame]
          exact ih hparent

/-- So do the climbs from starts in the set. -/
theorem climbAll_congr
    (hlinks : ∀ a, S a → parent' a = parent a ∧ (parent a = stop ∨ S (parent a))) {fuel : Nat}
    {starts : List α} (hstarts : ∀ a ∈ starts, S a) :
    climbAll parent' stop fuel starts = climbAll parent stop fuel starts :=
  List.foldl_ext _ _ _ fun _ start hstart => climb_congr hlinks (.inr (hstarts start hstart))

end Congr

end ParentWalk
