import Mathlib.Logic.Function.Basic

/-!
# Partial Maps and Entries that Expire

A store read and written by key, as a function to `Option`; entries are set and removed with
`Function.update`. In an `Expiring` map an entry may carry a deadline, after which a lookup
no longer finds it, whether or not it has been removed.

## Main results

* `update_eq_some_iff`, `forall_update`: what an updated map holds.
* `get_eq_some_iff`: a lookup finds an entry that is held and not past its deadline.
* `get_of_le`, `get_of_get_set`, `get_of_get_delete`: where a found entry comes from.
* `forall_get_set`, `forall_get_delete`: what holds of all found entries.
* `get_set_iff`, `get_delete_iff`: what is found at any time.
* `increment_spec`: a counter counts.
* `increment_of_none`, `increment_of_held`: what a counter is left as.
* `reap_eq_some_iff`: sweeping out what is past its deadline.
* `reap_eq_of_reap_eq`, `reap_reap_of_le`: maps that differ in what is past its deadline only.
-/

namespace PartialMap

variable {κ ν : Type*} [DecidableEq κ]

/-- An updated map holds the new value at the key and the old ones elsewhere. -/
theorem update_eq_some_iff {m : κ → Option ν} {k k' : κ} {v? : Option ν} {v : ν} :
    Function.update m k v? k' = some v ↔ (k' = k ∧ v? = some v) ∨ (k' ≠ k ∧ m k' = some v) := by
  by_cases hk : k' = k
  · subst hk
    simp
  · simp [hk]

/-- A map without a key holds only what it held before. -/
theorem of_update_none {m : κ → Option ν} {k k' : κ} {v : ν}
    (h : Function.update m k none k' = some v) : k' ≠ k ∧ m k' = some v := by
  simpa using update_eq_some_iff.mp h

/-- What holds of the entries of a map holds of those left without one of them. -/
theorem forall_update_none {P : κ → ν → Prop} {m : κ → Option ν} {k : κ}
    (h : ∀ k' v', m k' = some v' → P k' v') :
    ∀ k' v', Function.update m k none k' = some v' → P k' v' :=
  fun k' v' hentry => h k' v' (of_update_none hentry).2

/-- What holds of the entries of a map and of a new one holds of the entries of the updated
map. -/
theorem forall_update {P : κ → ν → Prop} {m : κ → Option ν} {k : κ} {v : ν} (hnew : P k v)
    (hold : ∀ k' v', m k' = some v' → P k' v') :
    ∀ k' v', Function.update m k (some v) k' = some v' → P k' v' := by
  intro k' v' hentry
  rcases update_eq_some_iff.mp hentry with ⟨rfl, heq⟩ | ⟨-, hbefore⟩
  · exact Option.some.inj heq ▸ hnew
  · exact hold k' v' hbefore

/-- An entry under a new key leaves the others. -/
theorem update_of_new {m : κ → Option ν} {k k' : κ} {v v' : ν} (hnew : m k = none)
    (hentry : m k' = some v') : Function.update m k (some v) k' = some v' := by
  rw [Function.update_of_ne, hentry]
  rintro rfl
  rw [hnew] at hentry
  cases hentry

/-- A value with the last time at which it is found. -/
structure Entry (ν : Type*) where
  value : ν
  expires : Option Int
  deriving DecidableEq, Repr

/-- A map whose entries may carry deadlines. -/
abbrev Expiring (κ ν : Type*) := κ → Option (Entry ν)

/-- The entry's deadline has passed. -/
def Entry.expired (e : Entry ν) (now : Int) : Bool :=
  e.expires.any fun deadline => deadline < now

/-- A lookup at a time. -/
def get (m : Expiring κ ν) (now : Int) (k : κ) : Option ν :=
  match m k with
  | some e => if e.expired now then none else some e.value
  | none => none

/-- Sets an entry for a lifetime, for good when the lifetime is not positive. -/
def set (m : Expiring κ ν) (now : Int) (k : κ) (v : ν) (ttl : Int) : Expiring κ ν :=
  Function.update m k (some ⟨v, if 0 < ttl then some (now + ttl) else none⟩)

/-- Removes an entry. -/
def delete (m : Expiring κ ν) (k : κ) : Expiring κ ν :=
  Function.update m k none

/-- Counts one more under a key. A counter that is missing or past its deadline starts anew,
with a new lifetime. -/
def increment (m : Expiring κ Nat) (now : Int) (k : κ) (ttl : Int) : Nat × Expiring κ Nat :=
  match m k with
  | some e =>
      if e.expired now then (1, set m now k 1 ttl)
      else (e.value + 1, Function.update m k (some ⟨e.value + 1, e.expires⟩))
  | none => (1, set m now k 1 ttl)

omit [DecidableEq κ] in
/-- A lookup finds what is held and not past its deadline. -/
theorem get_eq_some_iff {m : Expiring κ ν} {now : Int} {k : κ} {v : ν} :
    get m now k = some v ↔ ∃ e, m k = some e ∧ e.value = v ∧ e.expired now = false := by
  rw [get]
  cases m k with
  | none => simp
  | some e => cases he : e.expired now <;> simp [he]

omit [DecidableEq κ] in
/-- An entry with a deadline is found no later than that. -/
theorem Entry.le_of_not_expired {e : Entry ν} {now deadline : Int}
    (h : e.expired now = false) (hd : e.expires = some deadline) : now ≤ deadline := by
  simpa [Entry.expired, hd] using h

omit [DecidableEq κ] in
/-- An entry without a lifetime, or one still in it, has not expired. -/
theorem Entry.not_expired_of_lifetime {v : ν} {now begun ttl : Int}
    (h : ttl ≤ 0 ∨ now ≤ begun + ttl) :
    (Entry.mk v (if 0 < ttl then some (begun + ttl) else none)).expired now = false := by
  rw [Entry.expired]
  split
  · simp only [Option.any_some, decide_eq_false_iff_not]
    omega
  · rfl

omit [DecidableEq κ] in
/-- What is found later was found before, as long as nothing was set. -/
theorem get_of_le {m : Expiring κ ν} {now now' : Int} {k : κ} {v : ν} (hle : now ≤ now')
    (h : get m now' k = some v) : get m now k = some v := by
  obtain ⟨e, he, hv, hexpired⟩ := get_eq_some_iff.mp h
  refine get_eq_some_iff.mpr ⟨e, he, hv, ?_⟩
  cases hd : e.expires with
  | none => simp [Entry.expired, hd]
  | some deadline =>
      have hdeadline := Entry.le_of_not_expired hexpired hd
      simp only [Entry.expired, hd, Option.any_some, decide_eq_false_iff_not]
      omega

/-- What is found after an entry was set is the entry or was found before. -/
theorem get_of_get_set {m : Expiring κ ν} {now : Int} {k k' : κ} {v v' : ν} {ttl : Int}
    (h : get (set m now k v ttl) now k' = some v') :
    (k' = k ∧ v' = v) ∨ get m now k' = some v' := by
  obtain ⟨e, he, hv, hexpired⟩ := get_eq_some_iff.mp h
  rcases update_eq_some_iff.mp he with ⟨rfl, hnew⟩ | ⟨-, hold⟩
  · obtain rfl := Option.some.inj hnew
    exact Or.inl ⟨rfl, hv.symm⟩
  · exact Or.inr (get_eq_some_iff.mpr ⟨e, hold, hv, hexpired⟩)

/-- What is found after a removal was found before. -/
theorem get_of_get_delete {m : Expiring κ ν} {now : Int} {k k' : κ} {v : ν}
    (h : get (delete m k) now k' = some v) : get m now k' = some v := by
  obtain ⟨e, he, hv, hexpired⟩ := get_eq_some_iff.mp h
  exact get_eq_some_iff.mpr ⟨e, (of_update_none he).2, hv, hexpired⟩

/-- What holds of what is found and of a new entry holds of what is found after it was set. -/
theorem forall_get_set {P : κ → ν → Prop} {m : Expiring κ ν} {now : Int} {k : κ} {v : ν} {ttl : Int}
    (hnew : P k v) (hold : ∀ k' v', get m now k' = some v' → P k' v') :
    ∀ k' v', get (set m now k v ttl) now k' = some v' → P k' v' := by
  intro k' v' hget
  rcases get_of_get_set hget with ⟨rfl, rfl⟩ | hbefore
  · exact hnew
  · exact hold k' v' hbefore

/-- What holds of what is found holds of what is found after a removal. -/
theorem forall_get_delete {P : κ → ν → Prop} {m : Expiring κ ν} {now : Int} {k : κ}
    (h : ∀ k' v', get m now k' = some v' → P k' v') :
    ∀ k' v', get (delete m k) now k' = some v' → P k' v' :=
  fun k' v' hget => h k' v' (get_of_get_delete hget)

/-- An entry set for a lifetime is found up to its end, and the other entries as before. -/
theorem get_set_iff {m : Expiring κ ν} {now t : Int} {k k' : κ} {v v' : ν} {ttl : Int}
    (httl : 0 < ttl) :
    get (set m now k v ttl) t k' = some v' ↔
      (k' = k ∧ v' = v ∧ t ≤ now + ttl) ∨ (k' ≠ k ∧ get m t k' = some v') := by
  by_cases hk : k' = k
  · subst hk
    have hentry : set m now k' v ttl k' = some ⟨v, some (now + ttl)⟩ := by simp [set, httl]
    rw [get_eq_some_iff]
    constructor
    · rintro ⟨e, he, rfl, hexpired⟩
      obtain rfl := Option.some.inj (hentry.symm.trans he)
      exact Or.inl ⟨rfl, rfl, Entry.le_of_not_expired hexpired rfl⟩
    · rintro (⟨-, rfl, ht⟩ | ⟨hne, -⟩)
      · exact ⟨_, hentry, rfl, by simpa [Entry.expired] using ht⟩
      · exact absurd rfl hne
  · simp [get, set, hk]

/-- An entry that was removed is not found, and the others as before. -/
theorem get_delete_iff {m : Expiring κ ν} {t : Int} {k k' : κ} {v : ν} :
    get (delete m k) t k' = some v ↔ k' ≠ k ∧ get m t k' = some v := by
  by_cases hk : k' = k
  · subst hk
    simp [get, delete]
  · simp [get, delete, hk]

/-- What was set is found at once. -/
theorem get_set_self {m : Expiring κ ν} {now : Int} {k : κ} {v : ν} {ttl : Int} :
    get (set m now k v ttl) now k = some v := by
  refine get_eq_some_iff.mpr ⟨_, Function.update_self .., rfl, ?_⟩
  exact Entry.not_expired_of_lifetime (by omega)

/-- What was removed is not found. -/
@[simp] theorem get_delete_self {m : Expiring κ ν} {now : Int} {k : κ} :
    get (delete m k) now k = none := by
  simp [get, delete]

/-- The counter that is found, zero when none is. -/
def counter (m : Expiring κ Nat) (now : Int) (k : κ) : Nat := (get m now k).getD 0

/-- Counting answers with one more than was found, and that is what is found then. -/
theorem increment_spec (m : Expiring κ Nat) (now : Int) (k : κ) (ttl : Int) :
    (increment m now k ttl).1 = counter m now k + 1 ∧
      counter (increment m now k ttl).2 now k = counter m now k + 1 := by
  rw [increment.eq_def, counter, counter, get]
  cases hk : m k with
  | none => exact ⟨rfl, by rw [get_set_self]; rfl⟩
  | some e =>
      cases hexpired : e.expired now with
      | true => simp [hexpired, get_set_self]
      | false =>
          have hexpired' : (Entry.mk (e.value + 1) e.expires).expired now = false := hexpired
          simp [hexpired, get, hexpired']

/-- A counter that is missing starts at one, with a lifetime. -/
theorem increment_of_none {m : Expiring κ Nat} {now : Int} {k : κ} {ttl : Int}
    (h : m k = none) : increment m now k ttl = (1, set m now k 1 ttl) := by
  rw [increment, h]

/-- A counter that is held counts one more, and keeps its lifetime. -/
theorem increment_of_held {m : Expiring κ Nat} {now : Int} {k : κ} {ttl : Int} {e : Entry Nat}
    (h : m k = some e) (hheld : e.expired now = false) :
    increment m now k ttl =
      (e.value + 1, Function.update m k (some ⟨e.value + 1, e.expires⟩)) := by
  rw [increment, h]
  simp [hheld]

/-- A counter that has expired starts at one again, with a new lifetime. -/
theorem increment_of_expired {m : Expiring κ Nat} {now : Int} {k : κ} {ttl : Int}
    {e : Entry Nat} (h : m k = some e) (hexpired : e.expired now = true) :
    increment m now k ttl = (1, set m now k 1 ttl) := by
  rw [increment, h]
  simp [hexpired]

/-- Counting leaves the other entries. -/
theorem increment_of_ne {m : Expiring κ Nat} {now : Int} {k k' : κ} {ttl : Int} (hne : k' ≠ k) :
    (increment m now k ttl).2 k' = m k' := by
  cases hk : m k with
  | none => simp [increment_of_none hk, set, hne]
  | some e =>
      cases hexpired : e.expired now with
      | false => simp [increment_of_held hk hexpired, hne]
      | true => simp [increment_of_expired hk hexpired, set, hne]

/-- Drops the entries that are past their deadline. -/
def reap (m : Expiring κ ν) (now : Int) : Expiring κ ν :=
  fun k => (m k).filter fun e => !e.expired now

omit [DecidableEq κ] in
/-- What is left is what was not past its deadline. -/
theorem reap_eq_some_iff {m : Expiring κ ν} {now : Int} {k : κ} {e : Entry ν} :
    reap m now k = some e ↔ m k = some e ∧ e.expired now = false := by
  simp [reap, Option.filter_eq_some_iff]

/-- What is past its deadline stays so. -/
theorem Entry.expired_of_le {e : Entry ν} {now now' : Int} (hle : now ≤ now')
    (h : e.expired now = true) : e.expired now' = true := by
  cases hd : e.expires with
  | none => simp [Entry.expired, hd] at h
  | some deadline =>
      simp only [Entry.expired, hd, Option.any_some, decide_eq_true_eq] at h ⊢
      omega

omit [DecidableEq κ] in
/-- A sweep at an earlier time is lost in a later one. -/
theorem reap_reap_of_le (m : Expiring κ ν) {now now' : Int} (hle : now ≤ now') :
    reap (reap m now) now' = reap m now' := by
  funext k
  refine Option.ext fun e => ?_
  rw [reap_eq_some_iff, reap_eq_some_iff, reap_eq_some_iff, and_assoc]
  refine and_congr_right fun _ => ⟨fun h => h.2, fun h => ⟨?_, h⟩⟩
  by_contra hnow
  rw [Entry.expired_of_le hle (by simpa using hnow)] at h
  cases h

omit [DecidableEq κ] in
/-- Maps that hold the same up to what is past its deadline still do later. -/
theorem reap_eq_of_reap_eq {m m' : Expiring κ ν} {now now' : Int} (hle : now ≤ now')
    (h : reap m now = reap m' now) : reap m now' = reap m' now' := by
  rw [← reap_reap_of_le m hle, h, reap_reap_of_le m' hle]

/-- Two maps that hold the same up to what is past its deadline, updated alike. -/
theorem reap_update_congr {m m' : Expiring κ ν} {now : Int} (h : reap m now = reap m' now) (k : κ)
    (e? : Option (Entry ν)) :
    reap (Function.update m k e?) now = reap (Function.update m' k e?) now := by
  funext k'
  by_cases hk : k' = k
  · subst hk
    simp [reap]
  · have hother := congrFun h k'
    simpa [reap, hk] using hother

omit [DecidableEq κ] in
/-- Two maps that hold the same up to what is past its deadline, without the same keys. -/
theorem reap_remove_congr {m m' : Expiring κ ν} {now : Int} (h : reap m now = reap m' now)
    (p : κ → Bool) :
    reap (fun k => if p k then none else m k) now =
      reap (fun k => if p k then none else m' k) now := by
  funext k
  have hother := congrFun h k
  rw [reap, reap] at hother
  by_cases hk : p k <;> simp [reap, hk, hother]

/-- Counting always changes the counter. -/
theorem increment_ne {m : Expiring κ Nat} {now : Int} {k : κ} {ttl : Int} :
    (increment m now k ttl).2 k ≠ m k := by
  rw [increment.eq_def]
  cases hk : m k with
  | none => simp [set]
  | some e =>
      dsimp only
      split
      · next hexpired =>
          intro h
          simp only [set, Function.update_self, Option.some.injEq] at h
          rw [← h, Entry.expired] at hexpired
          split at hexpired
          · have hpast : now + ttl < now := by simpa using hexpired
            omega
          · simp at hexpired
      · intro h
        simp only [Function.update_self, Option.some.injEq] at h
        have := congrArg Entry.value h
        simp at this

end PartialMap
