import IdpForge.PartialMap
import Mathlib.Data.List.Infix

/-!
# Families of Keys in One Map

Several maps with keys and values of their own, kept in one expiring map whose keys tell the
families apart. A layout says under which key an entry stands and which values stand for which.
The one map holds the others at a time when the entries that have not expired by then agree.

Each operation on one of the maps has a counterpart on the one map that keeps this relation, and
a lookup finds the same in both. Keys made of a tag and a rest are told apart when no tag begins
with another.

## Main results

* `Layout.Holds.lookup`: a lookup finds a value that stands for the one in the family's map.
* `Layout.Holds.update`, `Layout.Holds.remove`, `Layout.Holds.bump`: the operations.
* `Layout.Holds.of_le`, `Layout.Holds.reap`: time passes, and what has expired is removed.
* `tag_append_inj`, `tag_isPrefix_iff`: tagged keys.
-/

open PartialMap

namespace KeyFamilies

variable {ι κ ω : Type*} {Key Val : ι → Type*}

/-! ### Operations -/

/-- Goes on from the value that is found, which keeps its deadline, or starts from a first one,
with a lifetime from a later reading of the clock. -/
def bump [DecidableEq κ] (m : Expiring κ ω) (now later : Int) (k : κ) (first : ω)
    (next : ω → ω) (ttl : Int) : ω × Expiring κ ω :=
  match reap m now k with
  | none => (first, PartialMap.set m later k first ttl)
  | some e => (next e.value, Function.update m k (some ⟨next e.value, e.expires⟩))

/-- A lookup finds the value of the entry that has not expired. -/
theorem get_eq_map_reap (m : Expiring κ ω) (now : Int) (k : κ) :
    get m now k = (reap m now k).map Entry.value := by
  rw [get.eq_def, reap]
  cases m k with
  | none => rfl
  | some e => cases hexpired : e.expired now <;> simp [Option.filter_some, hexpired]

/-- At one reading of the clock, a counter counts as `increment` does. -/
theorem bump_eq_increment [DecidableEq κ] (m : Expiring κ Nat) (now : Int) (k : κ) (ttl : Int) :
    bump m now now k 1 Nat.succ ttl = increment m now k ttl := by
  rw [bump, reap]
  cases hk : m k with
  | none => exact (increment_of_none hk).symm
  | some e =>
      cases hexpired : e.expired now with
      | true =>
          rw [increment_of_expired hk hexpired]
          simp [Option.filter_some, hexpired]
      | false =>
          rw [increment_of_held hk hexpired]
          simp [Option.filter_some, hexpired]

/-- One expiring map for each family. -/
abbrev Maps (Key Val : ι → Type*) := ∀ i, Expiring (Key i) (Val i)

namespace Maps

variable [DecidableEq ι] [∀ i, DecidableEq (Key i)] (t : Maps Key Val)

/-- Sets an entry of a family for a lifetime. -/
def set (now : Int) (i : ι) (k : Key i) (v : Val i) (ttl : Int) : Maps Key Val :=
  Function.update t i (PartialMap.set (t i) now k v ttl)

/-- Removes an entry of a family. -/
def delete (i : ι) (k : Key i) : Maps Key Val :=
  Function.update t i (PartialMap.delete (t i) k)

/-- Removes a family. -/
def clear (i : ι) : Maps Key Val := Function.update t i fun _ => none

/-- Goes on from an entry of a family. -/
def bump (now later : Int) (i : ι) (k : Key i) (first : Val i) (next : Val i → Val i)
    (ttl : Int) : Val i × Maps Key Val :=
  let (v, m) := KeyFamilies.bump (t i) now later k first next ttl
  (v, Function.update t i m)

end Maps

/-- Where the entries of the families stand in one map, and what stands for a value. -/
structure Layout (Key Val : ι → Type*) (κ ω : Type*) where
  key : ∀ i, Key i → κ
  Stores : ∀ i, Val i → ω → Prop
  key_injective : ∀ {i j : ι} {k : Key i} {l : Key j},
    key i k = key j l → (⟨i, k⟩ : Sigma Key) = ⟨j, l⟩

namespace Layout

variable (L : Layout Key Val κ ω) {m : Expiring κ ω} {t : Maps Key Val} {now : Int}

/-- An entry stands for another, up to the same deadline. -/
def SameEntry (i : ι) : Option (Entry (Val i)) → Option (Entry ω) → Prop :=
  Option.Rel fun e f => L.Stores i e.value f.value ∧ e.expires = f.expires

/-- The one map holds the families, up to what has expired. -/
def Holds (m : Expiring κ ω) (t : Maps Key Val) (now : Int) : Prop :=
  ∀ i k, L.SameEntry i (reap (t i) now k) (reap m now (L.key i k))

variable {L}

/-- Entries with the same deadline are past it at the same times. -/
theorem SameEntry.filter {i : ι} {e? : Option (Entry (Val i))} {f? : Option (Entry ω)}
    (h : L.SameEntry i e? f?) (now : Int) :
    L.SameEntry i (e?.filter fun e => !e.expired now) (f?.filter fun f => !f.expired now) := by
  cases h with
  | none => exact Option.Rel.none
  | @some e f hef =>
      have hexpired : e.expired now = f.expired now := by
        rw [Entry.expired, Entry.expired, hef.2]
      rw [Option.filter_some, Option.filter_some, hexpired]
      cases f.expired now with
      | false => exact Option.Rel.some hef
      | true => exact Option.Rel.none

/-- The empty map holds empty families. -/
theorem Holds.empty (now : Int) : L.Holds (fun _ => none) (fun _ _ => none) now :=
  fun _ _ => Option.Rel.none

/-- Time passes. -/
theorem Holds.of_le {later : Int} (h : L.Holds m t now) (hle : now ≤ later) :
    L.Holds m t later := by
  intro i k
  rw [← reap_reap_of_le (t i) hle, ← reap_reap_of_le m hle]
  exact (h i k).filter later

/-- What has expired is removed from the one map. -/
theorem Holds.reap {earlier : Int} (h : L.Holds m t now) (hle : earlier ≤ now) :
    L.Holds (reap m earlier) t now := by
  intro i k
  rw [reap_reap_of_le m hle]
  exact h i k

/-- A lookup in the one map finds what stands for what a lookup in the family's map finds. -/
theorem Holds.lookup (h : L.Holds m t now) (i : ι) (k : Key i) :
    Option.Rel (L.Stores i) (get (t i) now k) (get m now (L.key i k)) := by
  rw [get_eq_map_reap, get_eq_map_reap]
  have hentry := h i k
  cases he : PartialMap.reap (t i) now k <;>
    cases hf : PartialMap.reap m now (L.key i k) <;> rw [he, hf] at hentry <;> cases hentry
  · exact Option.Rel.none
  · next hef => exact Option.Rel.some hef.1

section Update

variable [DecidableEq ι] [DecidableEq κ] [∀ i, DecidableEq (Key i)]

/-- An entry is updated in both. -/
theorem Holds.update (h : L.Holds m t now) {i : ι} {k : Key i} {e? : Option (Entry (Val i))}
    {f? : Option (Entry ω)} (hef : L.SameEntry i e? f?) :
    L.Holds (Function.update m (L.key i k) f?)
      (Function.update t i (Function.update (t i) k e?)) now := by
  intro j l
  rw [PartialMap.reap, PartialMap.reap]
  by_cases hkey : L.key j l = L.key i k
  · obtain ⟨rfl, hk⟩ := Sigma.mk.inj (L.key_injective hkey)
    obtain rfl := eq_of_heq hk
    rw [Function.update_self, Function.update_self, Function.update_self]
    exact hef.filter now
  · rw [Function.update_of_ne hkey]
    by_cases hj : j = i
    · subst hj
      rw [Function.update_self, Function.update_of_ne fun hl => hkey (congrArg _ hl)]
      exact h j l
    · rw [Function.update_of_ne hj]
      exact h j l

/-- An entry is set in both. -/
theorem Holds.set (h : L.Holds m t now) (i : ι) (k : Key i) {v : Val i} {w : ω}
    (hvw : L.Stores i v w) (ttl : Int) :
    L.Holds (PartialMap.set m now (L.key i k) w ttl) (t.set now i k v ttl) now :=
  h.update (Option.Rel.some ⟨hvw, rfl⟩)

/-- An entry is removed from both. -/
theorem Holds.delete (h : L.Holds m t now) (i : ι) (k : Key i) :
    L.Holds (PartialMap.delete m (L.key i k)) (t.delete i k) now :=
  h.update Option.Rel.none

omit [DecidableEq κ] [∀ i, DecidableEq (Key i)] in
/-- A family is removed, and the keys of it from the one map. -/
theorem Holds.remove (h : L.Holds m t now) {i : ι} {p : κ → Bool}
    (hp : ∀ j (l : Key j), p (L.key j l) = decide (j = i)) :
    L.Holds (fun k => if p k then none else m k) (t.clear i) now := by
  intro j l
  rw [PartialMap.reap, PartialMap.reap, hp, Maps.clear]
  by_cases hj : j = i
  · subst hj
    rw [Function.update_self, decide_eq_true rfl, if_pos rfl]
    exact Option.Rel.none
  · rw [Function.update_of_ne hj, decide_eq_false hj, if_neg (by simp)]
    exact h j l

/-- An entry is gone on from in both. -/
theorem Holds.bump (h : L.Holds m t now) {later : Int} (hlater : now ≤ later) (i : ι) (k : Key i)
    (first : Val i) (next : Val i → Val i) (start : ω) (succ : ω → ω) (ttl : Int)
    (hfirst : L.Stores i first start)
    (hnext : ∀ v w, L.Stores i v w → L.Stores i (next v) (succ w)) :
    L.Stores i (t.bump now later i k first next ttl).1
        (KeyFamilies.bump m now later (L.key i k) start succ ttl).1 ∧
      L.Holds (KeyFamilies.bump m now later (L.key i k) start succ ttl).2
        (t.bump now later i k first next ttl).2 later := by
  have hentry := h i k
  rw [Maps.bump, KeyFamilies.bump, KeyFamilies.bump]
  cases he : PartialMap.reap (t i) now k <;>
    cases hf : PartialMap.reap m now (L.key i k) <;> rw [he, hf] at hentry <;> cases hentry
  · exact ⟨hfirst, (h.of_le hlater).set i k hfirst ttl⟩
  · next e f hef =>
      have hstores := hnext _ _ hef.1
      exact ⟨hstores, (h.of_le hlater).update (Option.Rel.some ⟨hstores, hef.2⟩)⟩

end Update

end Layout

/-! ### Tagged keys -/

section Tags

variable {α : Type*} {tag : ι → List α}

/-- The tag of a key is known when no tag begins with another. -/
theorem tag_isPrefix_iff (hfree : ∀ i j, tag i <+: tag j → i = j) {i j : ι} (rest : List α) :
    tag i <+: tag j ++ rest ↔ i = j := by
  constructor
  · intro h
    rcases List.prefix_or_prefix_of_prefix h (List.prefix_append (tag j) rest) with hij | hji
    · exact hfree i j hij
    · exact (hfree j i hji).symm
  · rintro rfl
    exact List.prefix_append _ _

/-- Keys of a tag and a rest are told apart by them. -/
theorem tag_append_inj (hfree : ∀ i j, tag i <+: tag j → i = j) {i j : ι} {rest rest' : List α}
    (h : tag i ++ rest = tag j ++ rest') : i = j ∧ rest = rest' := by
  obtain rfl : i = j := (tag_isPrefix_iff hfree rest').mp (h ▸ List.prefix_append _ _)
  exact ⟨rfl, List.append_cancel_left h⟩

end Tags

/-- A last separator tells what is before it from what is behind it. -/
theorem append_cons_inj_right {α : Type*} {c : α} {before before' behind behind' : List α}
    (hbehind : c ∉ behind) (hbehind' : c ∉ behind')
    (h : before ++ c :: behind = before' ++ c :: behind') :
    before = before' ∧ behind = behind' := by
  induction before generalizing before' with
  | nil =>
      cases before' with
      | nil => exact ⟨rfl, (List.cons.inj h).2⟩
      | cons d before' =>
          have hmem : c ∈ before' ++ c :: behind' := by simp
          exact absurd ((List.cons.inj h).2 ▸ hmem) hbehind
  | cons d before ih =>
      cases before' with
      | nil =>
          have hmem : c ∈ before ++ c :: behind := by simp
          exact absurd ((List.cons.inj h).2 ▸ hmem) hbehind'
      | cons d' before' =>
          obtain ⟨rfl, htail⟩ := List.cons.inj h
          obtain ⟨rfl, rfl⟩ := ih htail
          exact ⟨rfl, rfl⟩

end KeyFamilies
