import Mathlib.Data.Finset.Filter
import Mathlib.Data.Finset.SDiff
import IdpForge.GlobPattern
import IdpForge.TransitionSystem

/-!
# Deletion by Prefix in Redis

`RedisCache.DeletePrefix` iterates over the keys that match the prefix and a star, and deletes them
in batches while it iterates: a `DEL` each time the batch is full, and one for what is left. Other
clients write and delete keys in between, and keys expire. What the iteration returns is up to
Redis: it may return a key several times, and it is relied on for returning each key that is there
all along.

## Main results

* `deletionInv_step`: only keys with the prefix are collected and deleted, in batches of 500 at
  most.
* `kept_step`: a key that no one else removes is deleted, or is waiting to be.
* `deletePrefix_exact`: a call that returns without an error has deleted what it should.
* `deletePrefix_alone`: the keys that are left when no one else writes.
-/

open GlobPattern TransitionSystem

namespace IdpForge

/-- The keys of a `DEL` at most. -/
def maxBatch : Nat := 500

/-- Where the call is: in the iteration, before a `DEL` of a full batch or of the last one, or back
with an error or without. -/
inductive DeletionStage where
  | scanning
  | full
  | last
  | returned (ok : Bool)
  deriving DecidableEq

/-- The keys of Redis, and the call. Beside its variables there is a record of the keys that have
been there since the call began, of those the iteration has returned, and of those the call has
deleted. -/
structure PrefixDeletion where
  keys : Finset Bytes
  batch : List Bytes
  stage : DeletionStage
  steady : Finset Bytes
  scanned : List Bytes
  deleted : List Bytes

/-- The call begins. -/
def PrefixDeletion.start (keys : Finset Bytes) : PrefixDeletion :=
  ⟨keys, [], .scanning, keys, [], []⟩

/-- The pattern of the iteration. -/
def scanPattern (pre : Bytes) : Bytes := pre ++ [star]

/-- `DEL` of the batch, which passes over keys that are not there. -/
def PrefixDeletion.del (s : PrefixDeletion) : PrefixDeletion :=
  { s with
    keys := s.keys.filter (· ∉ s.batch)
    steady := s.steady.filter (· ∉ s.batch)
    deleted := s.deleted ++ s.batch.filter (· ∈ s.keys) }

/-- The iteration returns a key, ends or fails; a `DEL` succeeds, or fails with its effect or
without; another client writes a key, or keys are removed by another client or expire. -/
inductive DeletionAction where
  | next (key : Bytes)
  | scanEnd
  | scanErr
  | del
  | delErr (applied : Bool)
  | put (key : Bytes)
  | remove (keys : List Bytes)

/-- The step function. -/
def deletionStep (s : PrefixDeletion) : DeletionAction → Option PrefixDeletion
  | .next key =>
      if s.stage = .scanning then
        let batch := s.batch ++ [key]
        some { s with
          batch
          scanned := s.scanned ++ [key]
          stage := if maxBatch ≤ batch.length then .full else .scanning }
      else none
  | .scanEnd =>
      if s.stage = .scanning then
        some { s with stage := if 0 < s.batch.length then .last else .returned true }
      else none
  | .scanErr => if s.stage = .scanning then some { s with stage := .returned false } else none
  | .del =>
      match s.stage with
      | .full => some { s.del with batch := [], stage := .scanning }
      | .last => some { s.del with stage := .returned true }
      | _ => none
  | .delErr applied =>
      if s.stage = .full ∨ s.stage = .last then
        some { (if applied then s.del else s) with stage := .returned false }
      else none
  | .put key => some { s with keys := insert key s.keys }
  | .remove ks =>
      some { s with keys := s.keys.filter (· ∉ ks), steady := s.steady.filter (· ∉ ks) }

/-- What `SCAN` with a pattern promises: it returns keys that match, and when it is through, it has
returned each one that was there all along. -/
def ScanPromise (pre : Bytes) (s : PrefixDeletion) : DeletionAction → Prop
  | .next key => globMatch (scanPattern pre) key = true
  | .scanEnd => ∀ k ∈ s.steady, globMatch (scanPattern pre) k = true → k ∈ s.scanned
  | _ => True

/-- The promise can be checked. -/
instance ScanPromise.decidable (pre : Bytes) (s : PrefixDeletion) :
    ∀ a, Decidable (ScanPromise pre s a)
  | .next key => inferInstanceAs (Decidable (globMatch (scanPattern pre) key = true))
  | .scanEnd =>
      inferInstanceAs
        (Decidable (∀ k ∈ s.steady, globMatch (scanPattern pre) k = true → k ∈ s.scanned))
  | .scanErr | .del | .delErr _ | .put _ | .remove _ => isTrue trivial

/-- The key is not removed by anyone else before the call has deleted it. -/
def HeldFor (k : Bytes) (s : PrefixDeletion) : DeletionAction → Prop
  | .remove ks => k ∈ ks → k ∈ s.deleted
  | _ => True

/-- The step is one of the call. -/
def OwnStep : DeletionAction → Prop
  | .put _ => False
  | .remove _ => False
  | _ => True

section Steps

variable {pre k : Bytes} {s s' : PrefixDeletion} {a : DeletionAction}

/-- What a step can do. -/
theorem deletionStep_cases (hstep : deletionStep s a = some s') :
    (∃ key, a = .next key ∧ s.stage = .scanning ∧
        s' = { s with
          batch := s.batch ++ [key]
          scanned := s.scanned ++ [key]
          stage := if maxBatch ≤ (s.batch ++ [key]).length then .full else .scanning }) ∨
      (a = .scanEnd ∧ s.stage = .scanning ∧
        s' = { s with stage := if 0 < s.batch.length then .last else .returned true }) ∨
      (a = .del ∧ s.stage = .full ∧ s' = { s.del with batch := [], stage := .scanning }) ∨
      (a = .del ∧ s.stage = .last ∧ s' = { s.del with stage := .returned true }) ∨
      (∃ t, OwnStep a ∧ (t = s ∨ t = s.del) ∧ s' = { t with stage := .returned false }) ∨
      (∃ key, a = .put key ∧ s' = { s with keys := insert key s.keys }) ∨
      ∃ ks, a = .remove ks ∧
        s' = { s with keys := s.keys.filter (· ∉ ks), steady := s.steady.filter (· ∉ ks) } := by
  cases a with
  | next key =>
      obtain ⟨hstage, heq⟩ := Option.ite_none_right_eq_some.mp hstep
      exact .inl ⟨key, rfl, hstage, (Option.some.inj heq).symm⟩
  | scanEnd =>
      obtain ⟨hstage, heq⟩ := Option.ite_none_right_eq_some.mp hstep
      exact .inr (.inl ⟨rfl, hstage, (Option.some.inj heq).symm⟩)
  | scanErr =>
      obtain ⟨-, heq⟩ := Option.ite_none_right_eq_some.mp hstep
      exact .inr (.inr (.inr (.inr (.inl ⟨s, trivial, .inl rfl, (Option.some.inj heq).symm⟩))))
  | del =>
      rw [deletionStep] at hstep
      split at hstep
      · next hstage => exact .inr (.inr (.inl ⟨rfl, hstage, (Option.some.inj hstep).symm⟩))
      · next hstage => exact .inr (.inr (.inr (.inl ⟨rfl, hstage, (Option.some.inj hstep).symm⟩)))
      · exact absurd hstep (Option.some_ne_none s').symm
  | delErr applied =>
      obtain ⟨-, heq⟩ := Option.ite_none_right_eq_some.mp hstep
      refine .inr (.inr (.inr (.inr (.inl ⟨_, trivial, ?_, (Option.some.inj heq).symm⟩))))
      cases applied with
      | false => exact .inl rfl
      | true => exact .inr rfl
  | put key =>
      exact .inr (.inr (.inr (.inr (.inr (.inl ⟨key, rfl, (Option.some.inj hstep).symm⟩)))))
  | remove ks =>
      exact .inr (.inr (.inr (.inr (.inr (.inr ⟨ks, rfl, (Option.some.inj hstep).symm⟩)))))

/-- A key that `DEL` takes was there and in the batch. -/
theorem mem_deleted_del_iff :
    k ∈ s.del.deleted ↔ k ∈ s.deleted ∨ (k ∈ s.batch ∧ k ∈ s.keys) := by
  simp [PrefixDeletion.del]

/-- A key that is there all along is so after a `DEL` if it is not in the batch. -/
theorem mem_steady_del_iff : k ∈ s.del.steady ↔ k ∈ s.steady ∧ k ∉ s.batch := by
  simp [PrefixDeletion.del]

/-! ### What is collected and deleted -/

/-- What holds between the steps of a call. -/
structure DeletionInv (pre : Bytes) (s : PrefixDeletion) : Prop where
  steady_keys : s.steady ⊆ s.keys
  batch_begins : ∀ k ∈ s.batch, pre <+: k
  deleted_begins : ∀ k ∈ s.deleted, pre <+: k
  batch_le : s.batch.length ≤ maxBatch
  batch_lt : s.stage = .scanning → s.batch.length < maxBatch

/-- It holds when a call begins. -/
theorem deletionInv_start (pre : Bytes) (keys : Finset Bytes) :
    DeletionInv pre (.start keys) where
  steady_keys := Finset.Subset.refl keys
  batch_begins := by simp [PrefixDeletion.start]
  deleted_begins := by simp [PrefixDeletion.start]
  batch_le := Nat.zero_le maxBatch
  batch_lt _ := (by decide : 0 < maxBatch)

/-- A `DEL` deletes keys with the prefix. -/
theorem DeletionInv.del (h : DeletionInv pre s) : DeletionInv pre s.del where
  steady_keys := Finset.filter_subset_filter _ h.steady_keys
  batch_begins := h.batch_begins
  deleted_begins k hk := by
    rcases mem_deleted_del_iff.mp hk with hk | ⟨hk, -⟩
    · exact h.deleted_begins k hk
    · exact h.batch_begins k hk
  batch_le := h.batch_le
  batch_lt := h.batch_lt

/-- Only keys with the prefix are collected and deleted, in batches of 500 at most. -/
theorem deletionInv_step (hpre : ∀ b ∈ pre, b ∉ metacharacters) (h : DeletionInv pre s)
    (hscan : ScanPromise pre s a) (hstep : deletionStep s a = some s') : DeletionInv pre s' := by
  rcases deletionStep_cases hstep with ⟨key, rfl, hstage, rfl⟩ | ⟨rfl, hstage, rfl⟩ |
    ⟨rfl, hstage, rfl⟩ | ⟨rfl, hstage, rfl⟩ | ⟨t, -, ht, rfl⟩ | ⟨key, rfl, rfl⟩ | ⟨ks, rfl, rfl⟩
  · have hlen : (s.batch ++ [key]).length = s.batch.length + 1 := by simp
    have hlt := h.batch_lt hstage
    refine { h with batch_begins := ?_, batch_le := ?_, batch_lt := ?_ }
    · intro k hk
      rcases List.mem_append.mp hk with hk | hk
      · exact h.batch_begins k hk
      · obtain rfl := List.mem_singleton.mp hk
        exact (globMatch_literal_star hpre).mp hscan
    · show (s.batch ++ [key]).length ≤ maxBatch
      omega
    · intro hscanning
      change (if maxBatch ≤ (s.batch ++ [key]).length then DeletionStage.full else .scanning) =
        .scanning at hscanning
      show (s.batch ++ [key]).length < maxBatch
      split at hscanning
      · exact DeletionStage.noConfusion hscanning
      · omega
  · refine { h with batch_lt := ?_ }
    intro hscanning
    split at hscanning <;> exact DeletionStage.noConfusion hscanning
  · have hdel := h.del
    exact { hdel with
      batch_begins := by simp
      batch_le := Nat.zero_le maxBatch
      batch_lt := fun _ => (by decide : 0 < maxBatch) }
  · exact { h.del with batch_lt := fun hscanning => DeletionStage.noConfusion hscanning }
  · rcases ht with rfl | rfl
    · exact { h with batch_lt := fun hscanning => DeletionStage.noConfusion hscanning }
    · exact { h.del with batch_lt := fun hscanning => DeletionStage.noConfusion hscanning }
  · exact { h with steady_keys := h.steady_keys.trans (Finset.subset_insert _ _) }
  · exact { h with steady_keys := Finset.filter_subset_filter _ h.steady_keys }

/-! ### What becomes of a key -/

/-- The call has not passed over the key: if the iteration has returned it, it is in the batch, and
in the last batch it is anyway. -/
def PrefixDeletion.Pending (s : PrefixDeletion) (k : Bytes) : Prop :=
  match s.stage with
  | .scanning => k ∈ s.scanned → k ∈ s.batch
  | .full => k ∈ s.scanned → k ∈ s.batch
  | .last => k ∈ s.batch
  | .returned ok => ok = false

/-- The call has deleted the key, or the key has been there all along and is pending. -/
def PrefixDeletion.Kept (s : PrefixDeletion) (k : Bytes) : Prop :=
  k ∈ s.deleted ∨ (k ∈ s.steady ∧ s.Pending k)

/-- What is deleted stays on record. -/
theorem deleted_subset_step (hstep : deletionStep s a = some s') : s.deleted ⊆ s'.deleted := by
  have hdel : s.deleted ⊆ s.del.deleted := List.subset_append_left ..
  rcases deletionStep_cases hstep with ⟨_, -, -, rfl⟩ | ⟨-, -, rfl⟩ | ⟨-, -, rfl⟩ | ⟨-, -, rfl⟩ |
    ⟨t, -, rfl | rfl, rfl⟩ | ⟨_, -, rfl⟩ | ⟨_, -, rfl⟩
  all_goals first | exact List.Subset.refl _ | exact hdel

/-- A `DEL` deletes a pending key, or leaves it there. -/
theorem kept_del (hinv : DeletionInv pre s) (hsteady : k ∈ s.steady) :
    k ∈ s.del.deleted ∨ (k ∉ s.batch ∧ k ∈ s.del.steady) := by
  by_cases hbatch : k ∈ s.batch
  · exact .inl (mem_deleted_del_iff.mpr (.inr ⟨hbatch, hinv.steady_keys hsteady⟩))
  · exact .inr ⟨hbatch, mem_steady_del_iff.mpr ⟨hsteady, hbatch⟩⟩

/-- A key with the prefix that no one else removes is deleted, or is waiting to be. -/
theorem kept_step (hpre : ∀ b ∈ pre, b ∉ metacharacters) (hk : pre <+: k)
    (hinv : DeletionInv pre s) (h : s.Kept k) (hscan : ScanPromise pre s a) (hheld : HeldFor k s a)
    (hstep : deletionStep s a = some s') : s'.Kept k := by
  rcases h with h | ⟨hsteady, hpending⟩
  · exact .inl (deleted_subset_step hstep h)
  rw [PrefixDeletion.Pending] at hpending
  rcases deletionStep_cases hstep with ⟨key, rfl, hstage, rfl⟩ | ⟨rfl, hstage, rfl⟩ |
    ⟨rfl, hstage, rfl⟩ | ⟨rfl, hstage, rfl⟩ | ⟨t, -, ht, rfl⟩ | ⟨key, rfl, rfl⟩ | ⟨ks, rfl, rfl⟩
  · -- a returned key goes into the batch, full or not
    rw [hstage] at hpending
    have hnext : k ∈ s.scanned ++ [key] → k ∈ s.batch ++ [key] := by
      intro hmem
      rcases List.mem_append.mp hmem with hmem | hmem
      · exact List.mem_append_left _ (hpending hmem)
      · exact List.mem_append_right _ hmem
    refine .inr ⟨hsteady, ?_⟩
    rw [PrefixDeletion.Pending]
    split_ifs
    · exact hnext
    · exact hnext
  · -- the iteration has returned the key, so there is a last batch, with it
    rw [hstage] at hpending
    have hbatch : k ∈ s.batch := hpending (hscan k hsteady ((globMatch_literal_star hpre).mpr hk))
    refine .inr ⟨hsteady, ?_⟩
    rw [PrefixDeletion.Pending, if_pos (List.length_pos_of_mem hbatch)]
    exact hbatch
  · -- a key that is not in the batch has not been returned yet
    rw [hstage] at hpending
    rcases kept_del hinv hsteady with hdeleted | ⟨hbatch, hleft⟩
    · exact .inl hdeleted
    · exact .inr ⟨hleft, fun hmem => absurd (hpending hmem) hbatch⟩
  · rw [hstage] at hpending
    rcases kept_del hinv hsteady with hdeleted | ⟨hbatch, -⟩
    · exact .inl hdeleted
    · exact absurd hpending hbatch
  · rcases ht with rfl | rfl
    · exact .inr ⟨hsteady, rfl⟩
    · rcases kept_del hinv hsteady with hdeleted | ⟨-, hleft⟩
      · exact .inl hdeleted
      · exact .inr ⟨hleft, rfl⟩
  · exact .inr ⟨hsteady, hpending⟩
  · by_cases hks : k ∈ ks
    · exact .inl (hheld hks)
    · exact .inr ⟨Finset.mem_filter.mpr ⟨hsteady, hks⟩, hpending⟩

end Steps

/-! ### A whole call -/

section Runs

variable {pre : Bytes} {keys : Finset Bytes} {as : List DeletionAction} {s : PrefixDeletion}

/-- What holds between the steps holds all along. -/
theorem deletionInv_run (hpre : ∀ b ∈ pre, b ∉ metacharacters)
    (hscan : Guarded deletionStep (ScanPromise pre) (.start keys) as)
    (hrun : run deletionStep (.start keys) as = some s) : DeletionInv pre s :=
  guarded_run_invariant (fun _ _ _ h hg hstep => deletionInv_step hpre h hg hstep)
    (deletionInv_start pre keys) hscan hrun

/-- A key that is there when the call begins is kept by a run in which no one else removes it. -/
theorem kept_run (hpre : ∀ b ∈ pre, b ∉ metacharacters)
    (hscan : Guarded deletionStep (ScanPromise pre) (.start keys) as)
    (hrun : run deletionStep (.start keys) as = some s) {k : Bytes} (hk : pre <+: k)
    (hmem : k ∈ keys) (hheld : Guarded deletionStep (HeldFor k) (.start keys) as) : s.Kept k := by
  have hstart : DeletionInv pre (.start keys) ∧ (PrefixDeletion.start keys).Kept k :=
    ⟨deletionInv_start pre keys, .inr ⟨hmem, fun h => absurd h List.not_mem_nil⟩⟩
  refine (guarded_run_invariant (P := fun s => DeletionInv pre s ∧ s.Kept k) ?_ hstart
    (hscan.and hheld) hrun).2
  rintro s a s' ⟨hinv, h⟩ ⟨hscan, hheld⟩ hstep
  exact ⟨deletionInv_step hpre hinv hscan hstep, kept_step hpre hk hinv h hscan hheld hstep⟩

/-- Such a key is deleted when the call returns without an error. -/
theorem deleted_of_returned (hpre : ∀ b ∈ pre, b ∉ metacharacters)
    (hscan : Guarded deletionStep (ScanPromise pre) (.start keys) as)
    (hrun : run deletionStep (.start keys) as = some s) (hnil : s.stage = .returned true)
    {k : Bytes} (hk : pre <+: k) (hmem : k ∈ keys)
    (hheld : Guarded deletionStep (HeldFor k) (.start keys) as) : k ∈ s.deleted := by
  rcases kept_run hpre hscan hrun hk hmem hheld with hdeleted | ⟨-, hpending⟩
  · exact hdeleted
  · rw [PrefixDeletion.Pending, hnil] at hpending
    exact Bool.noConfusion hpending

/-- The call alone removes what it deletes. -/
theorem keys_ownStep {t t' : PrefixDeletion} {a : DeletionAction}
    (h : t.keys = keys.filter (· ∉ t.deleted)) (hown : OwnStep a)
    (hstep : deletionStep t a = some t') : t'.keys = keys.filter (· ∉ t'.deleted) := by
  have hdel : t.del.keys = keys.filter (· ∉ t.del.deleted) := by
    ext k
    have hmem : k ∈ t.keys ↔ k ∈ keys ∧ k ∉ t.deleted := by rw [h, Finset.mem_filter]
    rw [Finset.mem_filter, mem_deleted_del_iff, PrefixDeletion.del, Finset.mem_filter, hmem]
    tauto
  rcases deletionStep_cases hstep with ⟨_, -, -, rfl⟩ | ⟨-, -, rfl⟩ | ⟨-, -, rfl⟩ | ⟨-, -, rfl⟩ |
    ⟨t, -, rfl | rfl, rfl⟩ | ⟨_, rfl, -⟩ | ⟨_, rfl, -⟩
  all_goals first | exact h | exact hdel | exact hown.elim

/-- The keys that are left when no one else writes: those without the prefix. -/
theorem deletePrefix_alone (hpre : ∀ b ∈ pre, b ∉ metacharacters)
    (hscan : Guarded deletionStep (ScanPromise pre) (.start keys) as)
    (hown : ∀ a ∈ as, OwnStep a) (hrun : run deletionStep (.start keys) as = some s)
    (hnil : s.stage = .returned true) : s.keys = keys.filter (¬ pre <+: ·) := by
  have hheld : ∀ k, Guarded deletionStep (HeldFor k) (.start keys) as := by
    refine fun k => guarded_of_forall_mem fun a ha s => ?_
    cases a with
    | remove ks => exact (hown _ ha).elim
    | _ => trivial
  have hkeys : s.keys = keys.filter (· ∉ s.deleted) :=
    guarded_run_invariant (P := fun s => s.keys = keys.filter (· ∉ s.deleted))
      (fun _ _ _ h hg hstep => keys_ownStep h hg hstep)
      (by simp [PrefixDeletion.start]) (guarded_of_forall_mem fun a ha _ => hown a ha) hrun
  rw [hkeys]
  refine Finset.filter_congr fun k hmem => not_congr ⟨?_, fun hk => ?_⟩
  · exact (deletionInv_run hpre hscan hrun).deleted_begins k
  · exact deleted_of_returned hpre hscan hrun hnil hk hmem (hheld k)

/-- A call that returns without an error has deleted every key with the prefix that was there when
it began and that no one else removed before, and no other key. -/
theorem deletePrefix_exact (hpre : ∀ b ∈ pre, b ∉ metacharacters)
    (hscan : Guarded deletionStep (ScanPromise pre) (.start keys) as)
    (hrun : run deletionStep (.start keys) as = some s) (hnil : s.stage = .returned true) :
    (∀ k ∈ keys, pre <+: k → Guarded deletionStep (HeldFor k) (.start keys) as → k ∈ s.deleted) ∧
      ∀ k ∈ s.deleted, pre <+: k := by
  exact ⟨fun k hmem hk hheld => deleted_of_returned hpre hscan hrun hnil hk hmem hheld,
    (deletionInv_run hpre hscan hrun).deleted_begins⟩

end Runs

/-- The keys of the resolved permissions, which `InvalidateAll` deletes. -/
def cacheKeyPrefix : Bytes := "rbac:user:".toList.map Char.toUInt8

/-- The key of a user with a name of one byte. -/
def exampleUserKey (b : UInt8) : Bytes := cacheKeyPrefix ++ [b]

/-- Two users and a counter. -/
def exampleRedisKeys : Finset Bytes := {exampleUserKey 1, exampleUserKey 2, [1, 2, 3]}

/-- The iteration returns one key twice, and meanwhile a third user is resolved. -/
def exampleDeletion : List DeletionAction :=
  [.next (exampleUserKey 2), .put (exampleUserKey 3), .next (exampleUserKey 1),
    .next (exampleUserKey 2), .scanEnd, .del]

/-- The theorem applied to that call. -/
theorem deletePrefix_exact_example :
    ∃ s, run deletionStep (.start exampleRedisKeys) exampleDeletion = some s ∧
      (∀ k ∈ exampleRedisKeys, cacheKeyPrefix <+: k →
        Guarded deletionStep (HeldFor k) (.start exampleRedisKeys) exampleDeletion →
          k ∈ s.deleted) ∧
      ∀ k ∈ s.deleted, cacheKeyPrefix <+: k :=
  ⟨_, rfl, deletePrefix_exact (by decide +kernel) (by decide) rfl rfl⟩

end IdpForge
