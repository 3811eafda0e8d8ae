import Mathlib.Data.List.Nodup
import Mathlib.Order.Defs.Unbundled

/-!
# Pages of a Sorted List

A list is cut into pages of one size, each page from an arrangement of its own: the elements are
sorted by a relation that need not tell them apart, and elements that are tied may stand in one
order on one page and in another on the next.

## Main results

* `existsUnique_page`: every element is on exactly one page if no boundary between two pages falls
  among tied elements.
* `mem_pages_swapTied`: otherwise one element is on two pages, of two arrangements.
* `unsplit_of_untied`: no boundary does where no elements are tied.
-/

namespace Paging

variable {α : Type*}

/-- A page. -/
def page (size i : Nat) (xs : List α) : List α := (xs.drop (i * size)).take size

/-- The elements of a page, by their positions. -/
theorem mem_page_iff {size i : Nat} {xs : List α} {x : α} :
    x ∈ page size i xs ↔ ∃ p, i * size ≤ p ∧ p < i * size + size ∧ xs[p]? = some x := by
  rw [page, List.mem_iff_getElem?]
  constructor
  · rintro ⟨k, hk⟩
    rw [List.getElem?_take, Option.ite_none_right_eq_some, List.getElem?_drop] at hk
    exact ⟨i * size + k, by omega, by omega, hk.2⟩
  · rintro ⟨p, hle, hlt, hp⟩
    refine ⟨p - i * size, ?_⟩
    rw [List.getElem?_take, if_pos (by omega), List.getElem?_drop, Nat.add_sub_cancel' hle, hp]

section Sorted

variable (r : α → α → Prop) [DecidableRel r]

/-- The list has the elements in an order that the relation allows. -/
structure Arranges (found xs : List α) : Prop where
  perm : xs.Perm found
  sorted : xs.Pairwise r

/-- How many elements come before all that are tied with one. -/
def ahead (found : List α) (x : α) : Nat := found.countP fun y => ¬ r x y

/-- How many elements come before one or are tied with it. -/
def upTo (found : List α) (x : α) : Nat := found.countP fun y => r y x

/-- No boundary between two pages falls among tied elements. -/
def Unsplit (size : Nat) (found : List α) : Prop :=
  ∀ x ∈ found, ∀ i, i * size ≤ ahead r found x ∨ upTo r found x ≤ i * size

/-- The elements at a position and the next one change places if they are tied. -/
def swapTied (m : Nat) (xs : List α) : List α :=
  xs.take m ++
    match xs.drop m with
    | a :: b :: rest => if r b a then b :: a :: rest else a :: b :: rest
    | rest => rest

end Sorted

/-! ### Counting by position -/

section Positions

variable {t : α → Bool} {xs : List α} {m : Nat}

/-- A test fails from a position on. -/
theorem countP_le_of_getElem? (h : ∀ p a, m ≤ p → xs[p]? = some a → t a = false) :
    xs.countP t ≤ m := by
  have hrest : (xs.drop m).countP t = 0 := by
    refine List.countP_eq_zero.mpr fun a ha => ?_
    obtain ⟨k, hk⟩ := List.mem_iff_getElem?.mp ha
    rw [List.getElem?_drop] at hk
    rw [h (m + k) a (Nat.le_add_right m k) hk]
    exact Bool.false_ne_true
  calc xs.countP t = (xs.take m ++ xs.drop m).countP t := by rw [List.take_append_drop]
    _ = (xs.take m).countP t := by rw [List.countP_append, hrest, Nat.add_zero]
    _ ≤ (xs.take m).length := List.countP_le_length
    _ ≤ m := List.length_take_le m xs

/-- A test holds up to a position. -/
theorem le_countP_of_getElem? (hm : m ≤ xs.length)
    (h : ∀ p a, p < m → xs[p]? = some a → t a = true) : m ≤ xs.countP t := by
  have hfirst : (xs.take m).countP t = (xs.take m).length := by
    refine List.countP_eq_length.mpr fun a ha => ?_
    obtain ⟨k, hk⟩ := List.mem_iff_getElem?.mp ha
    rw [List.getElem?_take, Option.ite_none_right_eq_some] at hk
    exact h k a hk.1 hk.2
  calc m = (xs.take m).countP t := by rw [hfirst, List.length_take, Nat.min_eq_left hm]
    _ ≤ xs.countP t := (List.take_sublist m xs).countP_le

end Positions

/-! ### Where tied elements stand -/

section Ties

variable {r : α → α → Prop} {found xs : List α} {x a b : α} {p q size : Nat}

/-- What stands before comes before. -/
theorem Arranges.rel (h : Arranges r found xs) (hlt : p < q) (ha : xs[p]? = some a)
    (hb : xs[q]? = some b) : r a b := by
  obtain ⟨hp, rfl⟩ := List.getElem?_eq_some_iff.mp ha
  obtain ⟨hq, rfl⟩ := List.getElem?_eq_some_iff.mp hb
  exact List.pairwise_iff_getElem.mp h.sorted p q hp hq hlt

/-- What does not stand after comes before or is tied. -/
theorem Arranges.rel_of_le [Std.Refl r] (h : Arranges r found xs) (hle : p ≤ q)
    (ha : xs[p]? = some a) (hb : xs[q]? = some b) : r a b := by
  rcases Nat.lt_or_eq_of_le hle with hlt | rfl
  · exact h.rel hlt ha hb
  · obtain rfl : a = b := Option.some.inj (ha.symm.trans hb)
    exact Std.Refl.refl a

variable [DecidableRel r]

/-- All that come before an element stand before it. -/
theorem Arranges.ahead_le [Std.Refl r] (h : Arranges r found xs) (hx : xs[p]? = some x) :
    ahead r found x ≤ p := by
  rw [ahead, ← h.perm.countP_eq]
  refine countP_le_of_getElem? fun q a hle ha => ?_
  simpa using h.rel_of_le hle hx ha

/-- All that stand up to an element come before it or are tied with it. -/
theorem Arranges.lt_upTo [Std.Refl r] (h : Arranges r found xs) (hx : xs[p]? = some x) :
    p < upTo r found x := by
  obtain ⟨hp, -⟩ := List.getElem?_eq_some_iff.mp hx
  rw [upTo, ← h.perm.countP_eq]
  refine le_countP_of_getElem? hp fun q a hlt ha => ?_
  simpa using h.rel_of_le (Nat.le_of_lt_succ hlt) ha hx

/-- An element comes before or is tied with what stands at a position after all that come before
it. -/
theorem Arranges.rel_of_ahead_le [Std.Refl r] [IsTrans α r] (h : Arranges r found xs)
    (hahead : ahead r found x ≤ p) (ha : xs[p]? = some a) : r x a := by
  by_contra hnot
  obtain ⟨hp, -⟩ := List.getElem?_eq_some_iff.mp ha
  have hfirst : p + 1 ≤ ahead r found x := by
    rw [ahead, ← h.perm.countP_eq]
    refine le_countP_of_getElem? hp fun q c hq hc => ?_
    have hca : r c a := h.rel_of_le (Nat.le_of_lt_succ hq) hc ha
    simpa using fun hxc => hnot (IsTrans.trans x c a hxc hca)
  omega

/-- What stands before the last of those tied with an element comes before it or is tied with
it. -/
theorem Arranges.rel_of_lt_upTo [Std.Refl r] [IsTrans α r] (h : Arranges r found xs)
    (hupTo : p < upTo r found x) (hb : xs[p]? = some b) : r b x := by
  by_contra hnot
  have hlast : upTo r found x ≤ p := by
    rw [upTo, ← h.perm.countP_eq]
    refine countP_le_of_getElem? fun q c hq hc => ?_
    have hbc : r b c := h.rel_of_le hq hb hc
    simpa using fun hcx => hnot (IsTrans.trans b c x hbc hcx)
  omega

/-- **Every element is on exactly one page**, whatever the arrangements, if no boundary falls among
tied elements. -/
theorem existsUnique_page [Std.Refl r] {arrangement : Nat → List α}
    (h : ∀ i, Arranges r found (arrangement i)) (hunsplit : Unsplit r size found)
    (hsize : 0 < size) (hx : x ∈ found) : ∃! i, x ∈ page size i (arrangement i) := by
  have hposition : ∀ i, ∃ p, (arrangement i)[p]? = some x :=
    fun i => List.mem_iff_getElem?.mp ((h i).perm.mem_iff.mpr hx)
  let j := ahead r found x / size
  have hlower : j * size ≤ ahead r found x := Nat.div_mul_le_self _ _
  have hupper : ahead r found x < (j + 1) * size := by
    rw [Nat.add_one_mul]
    exact Nat.lt_div_mul_add hsize
  have htied : upTo r found x ≤ (j + 1) * size :=
    (hunsplit x hx (j + 1)).resolve_left (Nat.not_le.mpr hupper)
  refine ⟨j, ?_, ?_⟩
  · obtain ⟨p, hp⟩ := hposition j
    have hle := (h j).ahead_le hp
    have hlt := (h j).lt_upTo hp
    rw [Nat.add_one_mul] at htied
    exact mem_page_iff.mpr ⟨p, by omega, by omega, hp⟩
  · intro i hi
    obtain ⟨p, hle, hlt, hp⟩ := mem_page_iff.mp hi
    have hfirst : j * size < (i + 1) * size := by
      have := (h i).ahead_le hp
      rw [Nat.add_one_mul]
      omega
    have hlast : i * size < (j + 1) * size := by
      have := (h i).lt_upTo hp
      omega
    have hji := Nat.lt_of_mul_lt_mul_right hfirst
    have hij := Nat.lt_of_mul_lt_mul_right hlast
    omega

/-- Where no two elements are tied, every boundary will do. -/
theorem unsplit_of_untied [Std.Refl r] (hnodup : found.Nodup)
    (huntied : ∀ a ∈ found, ∀ b ∈ found, r a b → r b a → a = b) : Unsplit r size found := by
  intro x hx i
  obtain ⟨s, t, hfound⟩ := List.append_of_mem hx
  have hperm : found.Perm (x :: (s ++ t)) := hfound ▸ List.perm_middle
  have hx : x ∉ s ++ t := (List.nodup_cons.mp (hperm.nodup_iff.mp hnodup)).1
  have hothers : ((s ++ t).countP fun y => r y x) ≤ (s ++ t).countP fun y => ¬ r x y := by
    refine List.countP_mono_left fun y hy hyx => ?_
    have hmem : ∀ z ∈ x :: (s ++ t), z ∈ found := fun z hz => hperm.mem_iff.mpr hz
    have hne : y ≠ x := fun heq => hx (heq ▸ hy)
    simpa using fun hxy => hne (huntied y (hmem y (List.mem_cons_of_mem x hy)) x
      (hmem x List.mem_cons_self) (by simpa using hyx) hxy)
  have hself : r x x := Std.Refl.refl x
  have hupTo : upTo r found x ≤ ahead r found x + 1 := by
    rw [upTo, ahead, hperm.countP_eq, hperm.countP_eq, List.countP_cons, List.countP_cons]
    simp only [hself, decide_true, if_true, not_true_eq_false, decide_false, Bool.false_eq_true,
      if_false]
    omega
  omega

/-- Two tied neighbours are exchanged. -/
theorem swapTied_getElem? {m : Nat} (ha : xs[m]? = some a) (hb : xs[m + 1]? = some b)
    (htied : r b a) : (swapTied r m xs)[m + 1]? = some a := by
  obtain ⟨hm, rfl⟩ := List.getElem?_eq_some_iff.mp ha
  obtain ⟨hm', rfl⟩ := List.getElem?_eq_some_iff.mp hb
  have hdrop : xs.drop m = xs[m] :: xs[m + 1] :: xs.drop (m + 2) := by
    rw [List.drop_eq_getElem_cons hm, List.drop_eq_getElem_cons hm']
  have hlength : (xs.take m).length = m := by
    rw [List.length_take]
    omega
  rw [swapTied, hdrop]
  simp only [if_pos htied]
  rw [List.getElem?_append_right (by omega), hlength]
  simp

/-- **An exchange of ties** is another arrangement. -/
theorem Arranges.swapTied [IsTrans α r] (h : Arranges r found xs) (m : Nat) :
    Arranges r found (swapTied r m xs) := by
  have hxs : xs.take m ++ xs.drop m = xs := List.take_append_drop m xs
  rw [Paging.swapTied]
  split
  · next a b rest hdrop =>
      rw [hdrop] at hxs
      split_ifs with htied
      · refine ⟨?_, ?_⟩
        · exact ((List.Perm.swap a b rest).append_left _).trans ((List.Perm.of_eq hxs).trans h.perm)
        · have hsorted := h.sorted
          rw [← hxs, List.pairwise_append, List.pairwise_cons, List.pairwise_cons] at hsorted
          obtain ⟨hfront, ⟨ha, hb, hrest⟩, hcross⟩ := hsorted
          rw [List.pairwise_append, List.pairwise_cons, List.pairwise_cons]
          refine ⟨hfront, ⟨?_, fun c hc => ha c (List.mem_cons_of_mem b hc), hrest⟩, ?_⟩
          · exact List.forall_mem_cons.mpr ⟨htied, hb⟩
          · intro c hc d hd
            exact hcross c hc d (((List.Perm.swap a b rest).mem_iff).mp hd)
      · rwa [hxs]
  · rwa [hxs]

/-- **An element on two pages**: where a boundary falls among tied elements, the last one before
the boundary comes after it when it is exchanged for the next. -/
theorem mem_pages_swapTied [Std.Refl r] [IsTrans α r] (h : Arranges r found xs)
    (hsplit : ¬ Unsplit r size found) :
    ∃ i, ∃ y ∈ found, y ∈ page size i xs ∧
      y ∈ page size (i + 1) (swapTied r ((i + 1) * size - 1) xs) := by
  simp only [Unsplit, not_forall, not_or, Nat.not_le] at hsplit
  obtain ⟨x, hx, k, hahead, hupTo⟩ := hsplit
  have hk : k ≠ 0 := by
    rintro rfl
    omega
  obtain ⟨i, rfl⟩ : ∃ i, k = i + 1 := Nat.exists_eq_succ_of_ne_zero hk
  have hsize : 0 < size := Nat.pos_of_mul_pos_left (Nat.zero_lt_of_lt hahead)
  obtain ⟨m, hm⟩ : ∃ m, (i + 1) * size = m + 1 := Nat.exists_eq_succ_of_ne_zero (by omega)
  have hlength : (i + 1) * size < xs.length := by
    rw [h.perm.length_eq]
    exact Nat.lt_of_lt_of_le hupTo List.countP_le_length
  obtain ⟨a, ha⟩ : ∃ a, xs[m]? = some a := ⟨_, List.getElem?_eq_getElem (by omega)⟩
  obtain ⟨b, hb⟩ : ∃ b, xs[m + 1]? = some b := ⟨_, List.getElem?_eq_getElem (by omega)⟩
  -- what stands on the two sides of the boundary is tied with the element between them
  have hxa : r x a := h.rel_of_ahead_le (by omega) ha
  have hbx : r b x := h.rel_of_lt_upTo (by omega) hb
  have htied : r b a := IsTrans.trans b x a hbx hxa
  refine ⟨i, a, h.perm.mem_iff.mp (List.mem_of_getElem? ha), ?_, ?_⟩
  · rw [Nat.add_one_mul] at hm
    exact mem_page_iff.mpr ⟨m, by omega, by omega, ha⟩
  · rw [hm, Nat.add_sub_cancel]
    exact mem_page_iff.mpr ⟨m + 1, by omega, by omega, swapTied_getElem? ha hb htied⟩

end Ties

end Paging
