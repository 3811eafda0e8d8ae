import Mathlib.Data.List.Chain
import IdpForge.ParentWalk

/-!
# The Path to the Top

Where parent links form no cycle, the nodes from a start upward are a path: a list of distinct
nodes, each the parent of the one before it. A climb from one start collects that path, and its
test for nodes met before never ends it.

## Main results

* `nodup_path`: a path has distinct nodes.
* `getLast_path`: a path that is shorter than it may be ends at the top.
* `climb_eq_append_path`: a climb collects the path.
-/

namespace ParentWalk

variable {α : Type*} {parent : α → α} {stop : α}

/-- The links form no cycle. -/
def Acyclic (parent : α → α) (stop : α) : Prop :=
  ∀ a, ¬ Relation.TransGen (Link parent stop) a a

/-- No ancestor of a parent is the node itself. -/
theorem Acyclic.not_ancestor_parent (hacyclic : Acyclic parent stop) {a : α} (ha : a ≠ stop) :
    ¬ Ancestor parent stop (parent a) a := by
  rintro ⟨hne, hlinks⟩
  exact hacyclic a (.head' ⟨ha, rfl, hne⟩ hlinks)

variable [DecidableEq α]

/-- The path from a node upward, with at most the given number of nodes. -/
def path (parent : α → α) (stop : α) : Nat → α → List α
  | 0, _ => []
  | n + 1, a => if a = stop then [] else a :: path parent stop n (parent a)

/-- The nodes of a path are ancestors of its start. -/
theorem ancestor_of_mem_path {n : Nat} {a b : α} (h : b ∈ path parent stop n a) :
    Ancestor parent stop a b := by
  induction n generalizing a with
  | zero => exact absurd h List.not_mem_nil
  | succ n ih =>
      rw [path] at h
      split at h
      · exact absurd h List.not_mem_nil
      · next ha =>
          rcases List.mem_cons.mp h with rfl | hrest
          · exact ⟨ha, .refl⟩
          · exact (ih hrest).of_parent ha

/-- **A path has distinct nodes.** -/
theorem nodup_path (hacyclic : Acyclic parent stop) (n : Nat) (a : α) :
    (path parent stop n a).Nodup := by
  induction n generalizing a with
  | zero => exact List.nodup_nil
  | succ n ih =>
      rw [path]
      split
      · exact List.nodup_nil
      · next ha =>
          refine List.nodup_cons.mpr ⟨fun hmem => ?_, ih (parent a)⟩
          exact hacyclic.not_ancestor_parent ha (ancestor_of_mem_path hmem)

/-- A path begins with its start. -/
theorem head_path {n : Nat} {a : α} (ha : a ≠ stop) :
    (path parent stop (n + 1) a).head? = some a := by
  rw [path, if_neg ha, List.head?_cons]

/-- The first node of a path, if there is one, is its start. -/
theorem eq_of_mem_head_path {n : Nat} {a b : α} (h : b ∈ (path parent stop n a).head?) :
    b = a ∧ a ≠ stop := by
  cases n with
  | zero => simp [path] at h
  | succ n =>
      rw [path] at h
      split at h
      · simp at h
      · next ha => exact ⟨by simpa using h.symm, ha⟩

/-- Each node of a path is linked to the next one. -/
theorem isChain_path (n : Nat) (a : α) :
    (path parent stop n a).IsChain (Link parent stop) := by
  induction n generalizing a with
  | zero => exact .nil
  | succ n ih =>
      rw [path]
      split
      · exact .nil
      · next ha =>
          refine (ih (parent a)).cons fun b hb => ?_
          obtain ⟨rfl, hne⟩ := eq_of_mem_head_path hb
          exact ⟨ha, rfl, hne⟩

/-- A shorter path is the beginning of a longer one. -/
theorem take_path {m n : Nat} (h : m ≤ n) (a : α) :
    (path parent stop n a).take m = path parent stop m a := by
  induction m generalizing n a with
  | zero => rfl
  | succ m ih =>
      obtain ⟨n, rfl⟩ : ∃ k, n = k + 1 := ⟨n - 1, by omega⟩
      rw [path, path]
      split
      · rfl
      · rw [List.take_succ_cons, ih (by omega)]

/-- A path that has ended stays as it is when it may be longer. -/
theorem path_eq_of_length_lt {m n : Nat} {a : α} (hlength : (path parent stop m a).length < m)
    (h : m ≤ n) : path parent stop n a = path parent stop m a := by
  induction m generalizing n a with
  | zero => omega
  | succ m ih =>
      obtain ⟨n, rfl⟩ : ∃ k, n = k + 1 := ⟨n - 1, by omega⟩
      rw [path] at hlength ⊢
      rw [path]
      split
      · rfl
      · next ha =>
          rw [if_neg ha, List.length_cons] at hlength
          rw [ih (by omega) (by omega)]

/-- **The end of a path** that is shorter than it may be has no parent. -/
theorem getLast_path {n : Nat} {a : α} (hlength : (path parent stop n a).length < n) :
    ∀ top ∈ (path parent stop n a).getLast?, parent top = stop := by
  induction n generalizing a with
  | zero => omega
  | succ n ih =>
      intro top htop
      rw [path] at hlength htop
      split at htop
      · simp at htop
      · next ha =>
          rw [if_neg ha, List.length_cons] at hlength
          have hrest := ih (a := parent a) (by omega)
          cases hpath : path parent stop n (parent a) with
          | nil =>
              -- nothing follows, and the path was not cut short
              rw [hpath] at htop hlength
              obtain rfl : a = top := by simpa using htop
              by_contra hne
              obtain ⟨n, rfl⟩ : ∃ k, n = k + 1 := ⟨n - 1, by simp at hlength; omega⟩
              rw [path, if_neg hne] at hpath
              exact List.cons_ne_nil _ _ hpath
          | cons b rest =>
              rw [hpath, List.getLast?_cons_cons] at htop
              rw [hpath] at hrest
              exact hrest top htop

/-- **A climb collects the path** of its start, when nothing on it was met before. -/
theorem climb_eq_append_path (hacyclic : Acyclic parent stop) (n : Nat) {a : α} {seen : List α}
    (hseen : ∀ b, Ancestor parent stop a b → b ∉ seen) :
    climb parent stop n a seen = seen ++ path parent stop n a := by
  induction n generalizing a seen with
  | zero => rw [climb, path, List.append_nil]
  | succ n ih =>
      rw [climb, path]
      by_cases ha : a = stop
      · rw [if_pos (.inl ha), if_pos ha, List.append_nil]
      · have hnew : a ∉ seen := hseen a ⟨ha, .refl⟩
        have hrest : ∀ b, Ancestor parent stop (parent a) b → b ∉ seen ++ [a] := by
          intro b hb hmem
          rcases List.mem_append.mp hmem with hold | hself
          · exact hseen b (hb.of_parent ha) hold
          · obtain rfl := List.mem_singleton.mp hself
            exact hacyclic.not_ancestor_parent ha hb
        rw [if_neg (not_or.mpr ⟨ha, hnew⟩), if_neg ha, ih hrest, List.append_assoc]
        rfl

end ParentWalk
