import IdpForge.PartialMap
import IdpForge.TransitionSystem

/-!
# Counters in Redis

`RedisCache.Increment` sends an `INCR`, and an `EXPIRE` when the answer is 1. The error of the
`EXPIRE` is dropped, and a later call, which gets a greater answer, does not send another. The
calls of any number of processes interleave at their commands; a command may have no effect, it
may have its effect and not answer, and a process may stop at any point.

## Main results

* `counterInv_step`: who has created a counter and not yet set its expiry.
* `tended_step`: while no creator ends early, each counter without an expiry has one.
* `orphaned_step`: a counter that has lost its creator never expires.
* `redis_counters_expire_iff`: the counters expire exactly when the creators finish.
-/

open PartialMap TransitionSystem

namespace IdpForge

/-- The arguments of an `Increment` with a positive lifetime. -/
structure CounterCall where
  key : String
  ttl : Int
  positive : 0 < ttl

/-- The command that a call is at: its `INCR`, or its `EXPIRE`. -/
inductive CounterStage where
  | counting
  | created
  deriving DecidableEq, Repr

/-- Redis with its clock, and the calls in progress. -/
structure RedisCounters where
  clock : Int
  keys : Expiring String Nat
  calls : Nat → Option (CounterCall × CounterStage)

/-- Redis without counters. -/
def RedisCounters.start (clock : Int) : RedisCounters := ⟨clock, fun _ => none, fun _ => none⟩

/-- `INCR`, which creates a key without an expiry. -/
def redisIncr (keys : Expiring String Nat) (now : Int) (key : String) :
    Nat × Expiring String Nat :=
  increment keys now key 0

/-- `EXPIRE`, which does nothing when there is no key. -/
def redisExpire (keys : Expiring String Nat) (now : Int) (key : String) (ttl : Int) :
    Expiring String Nat :=
  match keys key with
  | some e =>
      if e.expired now then keys else Function.update keys key (some ⟨e.value, some (now + ttl)⟩)
  | none => keys

/-- Time passes, or a call begins or comes to the end of a command. `incrLost` is an `INCR` whose
answer is lost, because the connection fails or the process stops, and `abandon` a command
without effect, because it fails or the process stops before it. -/
inductive CounterAction where
  | tick (now : Int)
  | begin (id : Nat) (c : CounterCall)
  | incr (id : Nat)
  | incrLost (id : Nat)
  | expire (id : Nat)
  | abandon (id : Nat)

/-- The call returns, with a result or an error, or is no more. -/
def RedisCounters.leave (s : RedisCounters) (id : Nat) : RedisCounters :=
  { s with calls := Function.update s.calls id none }

/-- The step function. -/
def counterStep (s : RedisCounters) : CounterAction → Option RedisCounters
  | .tick now => if s.clock ≤ now then some { s with clock := now } else none
  | .begin id c =>
      if (s.calls id).isNone then
        some { s with calls := Function.update s.calls id (some (c, .counting)) }
      else none
  | .incr id =>
      match s.calls id with
      | some (c, .counting) =>
          let (n, keys) := redisIncr s.keys s.clock c.key
          -- `if n == 1 && ttl > 0`
          if n = 1 ∧ 0 < c.ttl then
            some { s with keys := keys, calls := Function.update s.calls id (some (c, .created)) }
          else some ({ s with keys := keys }.leave id)
      | _ => none
  | .incrLost id =>
      match s.calls id with
      | some (c, .counting) =>
          some ({ s with keys := (redisIncr s.keys s.clock c.key).2 }.leave id)
      | _ => none
  | .expire id =>
      match s.calls id with
      | some (c, .created) =>
          some ({ s with keys := redisExpire s.keys s.clock c.key c.ttl }.leave id)
      | _ => none
  | .abandon id =>
      match s.calls id with
      | some _ => some (s.leave id)
      | none => none

/-- Every counter that Redis has, and on which no call is in progress, has an expiry. -/
def RedisCounters.CountersExpire (s : RedisCounters) : Prop :=
  ∀ key e, s.keys key = some e → e.expired s.clock = false →
    (∀ id c stage, s.calls id = some (c, stage) → c.key ≠ key) → e.expires ≠ none

/-- The step does not end a call that has created its counter, or creates it, without the
`EXPIRE`. -/
def CreatorFinishes (s : RedisCounters) : CounterAction → Prop
  | .incrLost id =>
      ∀ c, s.calls id = some (c, .counting) → (PartialMap.get s.keys s.clock c.key).isSome
  | .abandon id => ∀ c, s.calls id ≠ some (c, .created)
  | _ => True

/-! ### The commands -/

section Commands

variable {keys : Expiring String Nat} {now : Int} {key : String}

/-- A key without an expiry is there. -/
theorem get_of_no_expiry {e : Entry Nat} (h : keys key = some e) (hnone : e.expires = none) :
    PartialMap.get keys now key = some e.value :=
  get_eq_some_iff.mpr ⟨e, h, rfl, by simp [Entry.expired, hnone]⟩

/-- `INCR` counts on, or creates the key. -/
theorem redisIncr_cases (keys : Expiring String Nat) (now : Int) (key : String) :
    (∃ e, keys key = some e ∧ e.expired now = false ∧
      redisIncr keys now key =
        (e.value + 1, Function.update keys key (some ⟨e.value + 1, e.expires⟩))) ∨
    (PartialMap.get keys now key = none ∧
      redisIncr keys now key = (1, Function.update keys key (some ⟨1, none⟩))) := by
  rw [redisIncr, PartialMap.get]
  cases hkey : keys key with
  | none => exact .inr ⟨rfl, increment_of_none hkey⟩
  | some e =>
      cases hexpired : e.expired now with
      | false => exact .inl ⟨e, rfl, hexpired, increment_of_held hkey hexpired⟩
      | true => exact .inr ⟨by simp [hexpired], increment_of_expired hkey hexpired⟩

/-- `EXPIRE` on a key without an expiry sets one. -/
theorem redisExpire_of_no_expiry {e : Entry Nat} (h : keys key = some e) (hnone : e.expires = none)
    (ttl : Int) :
    redisExpire keys now key ttl =
      Function.update keys key (some ⟨e.value, some (now + ttl)⟩) := by
  rw [redisExpire, h]
  simp [Entry.expired, hnone]

end Commands

/-! ### Who has created a counter -/

/-- The invariant: counters are positive; a call that has created its counter has not yet set its
expiry, and it is the only one. -/
structure CounterInv (s : RedisCounters) : Prop where
  positive : ∀ key e, s.keys key = some e → 0 < e.value
  created : ∀ id c, s.calls id = some (c, .created) →
    ∃ e, s.keys c.key = some e ∧ e.expires = none
  unique : ∀ id id' c c', s.calls id = some (c, .created) → s.calls id' = some (c', .created) →
    c.key = c'.key → id = id'

section Steps

variable {s s' : RedisCounters} {a : CounterAction}

/-- What a step does. An `INCR` counts on, or creates the counter, and then the call goes on to
the `EXPIRE` or is lost. -/
theorem counterStep_cases (hinv : CounterInv s) (hstep : counterStep s a = some s') :
    (∃ now, a = .tick now ∧ s.clock ≤ now ∧ s' = { s with clock := now }) ∨
    (∃ id c, a = .begin id c ∧ s.calls id = none ∧
      s' = { s with calls := Function.update s.calls id (some (c, .counting)) }) ∨
    (∃ id c e, (a = .incr id ∨ a = .incrLost id) ∧ s.calls id = some (c, .counting) ∧
      s.keys c.key = some e ∧ e.expired s.clock = false ∧
      s' = { s with
        keys := Function.update s.keys c.key (some ⟨e.value + 1, e.expires⟩) }.leave id) ∨
    (∃ id c, a = .incr id ∧ s.calls id = some (c, .counting) ∧
      PartialMap.get s.keys s.clock c.key = none ∧
      s' = { s with
        keys := Function.update s.keys c.key (some ⟨1, none⟩)
        calls := Function.update s.calls id (some (c, .created)) }) ∨
    (∃ id c, a = .incrLost id ∧ s.calls id = some (c, .counting) ∧
      PartialMap.get s.keys s.clock c.key = none ∧
      s' = { s with keys := Function.update s.keys c.key (some ⟨1, none⟩) }.leave id) ∨
    (∃ id c e, a = .expire id ∧ s.calls id = some (c, .created) ∧ s.keys c.key = some e ∧
      e.expires = none ∧
      s' = { s with
        keys := Function.update s.keys c.key (some ⟨e.value, some (s.clock + c.ttl)⟩) }.leave id) ∨
    (∃ id, a = .abandon id ∧ s' = s.leave id) := by
  cases a with
  | tick now =>
      obtain ⟨hle, heq⟩ := Option.ite_none_right_eq_some.mp hstep
      exact .inl ⟨now, rfl, hle, (Option.some.inj heq).symm⟩
  | begin id c =>
      obtain ⟨hfree, heq⟩ := Option.ite_none_right_eq_some.mp hstep
      exact .inr (.inl ⟨id, c, rfl, Option.isNone_iff_eq_none.mp hfree, (Option.some.inj heq).symm⟩)
  | incr id =>
      rw [counterStep] at hstep
      split at hstep
      case h_2 => simp at hstep
      case h_1 c hcall =>
        rcases redisIncr_cases s.keys s.clock c.key with ⟨e, he, hheld, hincr⟩ | ⟨hget, hincr⟩
        · have hmany : e.value + 1 ≠ 1 := by
            have := hinv.positive c.key e he
            omega
          simp only [hincr, hmany, false_and, if_false, Option.some.injEq] at hstep
          exact .inr (.inr (.inl ⟨id, c, e, .inl rfl, hcall, he, hheld, hstep.symm⟩))
        · simp only [hincr, c.positive, and_self, if_true, Option.some.injEq] at hstep
          exact .inr (.inr (.inr (.inl ⟨id, c, rfl, hcall, hget, hstep.symm⟩)))
  | incrLost id =>
      rw [counterStep] at hstep
      split at hstep
      case h_2 => simp at hstep
      case h_1 c hcall =>
        rcases redisIncr_cases s.keys s.clock c.key with ⟨e, he, hheld, hincr⟩ | ⟨hget, hincr⟩
        · simp only [hincr, Option.some.injEq] at hstep
          exact .inr (.inr (.inl ⟨id, c, e, .inr rfl, hcall, he, hheld, hstep.symm⟩))
        · simp only [hincr, Option.some.injEq] at hstep
          exact .inr (.inr (.inr (.inr (.inl ⟨id, c, rfl, hcall, hget, hstep.symm⟩))))
  | expire id =>
      rw [counterStep] at hstep
      split at hstep
      case h_2 => simp at hstep
      case h_1 c hcall =>
        obtain ⟨e, he, hnone⟩ := hinv.created id c hcall
        rw [redisExpire_of_no_expiry he hnone, Option.some.injEq] at hstep
        exact .inr (.inr (.inr (.inr (.inr (.inl ⟨id, c, e, rfl, hcall, he, hnone, hstep.symm⟩)))))
  | abandon id =>
      rw [counterStep] at hstep
      split at hstep
      case h_2 => simp at hstep
      case h_1 =>
        exact .inr (.inr (.inr (.inr (.inr (.inr ⟨id, rfl, (Option.some.inj hstep).symm⟩)))))

/-- A call that is still there after another one has left. -/
theorem calls_leave {s : RedisCounters} {id id' : Nat} {p : CounterCall × CounterStage} :
    (s.leave id).calls id' = some p ↔ id' ≠ id ∧ s.calls id' = some p := by
  by_cases hid : id' = id <;> simp [RedisCounters.leave, hid]

/-- A counter that is to be created is not there, so no other call is about to set its expiry. -/
theorem CounterInv.not_created (h : CounterInv s) {key : String}
    (hget : PartialMap.get s.keys s.clock key = none) {id : Nat} {c : CounterCall}
    (hcall : s.calls id = some (c, .created)) : c.key ≠ key := by
  rintro rfl
  obtain ⟨e, he, hnone⟩ := h.created id c hcall
  simp [get_of_no_expiry he hnone] at hget

/-- The invariant speaks of the keys and of the calls that have created them alone. -/
theorem CounterInv.mono (h : CounterInv s) (hkeys : s'.keys = s.keys)
    (hcalls : ∀ id c, s'.calls id = some (c, .created) → s.calls id = some (c, .created)) :
    CounterInv s' where
  positive := hkeys ▸ h.positive
  created := fun id c hcall => hkeys ▸ h.created id c (hcalls id c hcall)
  unique := fun id₁ id₂ c₁ c₂ h₁ h₂ hkey =>
    h.unique id₁ id₂ c₁ c₂ (hcalls id₁ c₁ h₁) (hcalls id₂ c₂ h₂) hkey

/-- The invariant is kept when a call leaves. -/
theorem CounterInv.leave (h : CounterInv s) (id : Nat) : CounterInv (s.leave id) :=
  h.mono rfl fun _ _ hcall => (calls_leave.mp hcall).2

/-- The invariant is kept when a key is set that no call has created, or without an expiry. -/
theorem CounterInv.setKey (h : CounterInv s) (key : String) {e : Entry Nat} (hpos : 0 < e.value)
    (hkey : e.expires = none ∨ ∀ id c, s.calls id = some (c, .created) → c.key ≠ key) :
    CounterInv { s with keys := Function.update s.keys key (some e) } where
  positive := forall_update hpos h.positive
  created := fun id c hcall => by
    rcases eq_or_ne c.key key with rfl | hne
    · refine ⟨e, Function.update_self .., ?_⟩
      exact hkey.resolve_right fun hother => hother id c hcall rfl
    · obtain ⟨e', he', hnone⟩ := h.created id c hcall
      exact ⟨e', (Function.update_of_ne hne _ _).trans he', hnone⟩
  unique := h.unique

/-- **The invariant is kept** by every step. -/
theorem counterInv_step (h : CounterInv s) (hstep : counterStep s a = some s') :
    CounterInv s' := by
  rcases counterStep_cases h hstep with ⟨now, -, -, rfl⟩ | ⟨id, c, -, hfree, rfl⟩ |
    ⟨id, c, e, -, hcall, he, -, rfl⟩ | ⟨id, c, -, hcall, hget, rfl⟩ |
    ⟨id, c, -, hcall, hget, rfl⟩ | ⟨id, c, e, -, hcall, he, hnone, rfl⟩ | ⟨id, -, rfl⟩
  · exact h.mono rfl fun _ _ hcall => hcall
  · refine h.mono rfl fun id' c' hcall => ?_
    rcases update_eq_some_iff.mp hcall with ⟨-, heq⟩ | ⟨-, hold⟩
    · simp at heq
    · exact hold
  · refine CounterInv.leave (h.setKey c.key (Nat.succ_pos e.value) ?_) id
    refine or_iff_not_imp_left.mpr fun hdeadline id' c' hcall' hkey => ?_
    obtain ⟨e', he', hnone⟩ := h.created id' c' hcall'
    rw [hkey, he, Option.some.injEq] at he'
    exact hdeadline (he' ▸ hnone)
  · have hset := h.setKey c.key (e := ⟨1, none⟩) Nat.one_pos (.inl rfl)
    refine ⟨hset.positive, fun id' c' hcall' => ?_, fun id₁ id₂ c₁ c₂ h₁ h₂ hkey => ?_⟩
    · rcases update_eq_some_iff.mp hcall' with ⟨-, heq⟩ | ⟨-, hold⟩
      · simp only [Option.some.injEq, Prod.mk.injEq] at heq
        exact heq.1 ▸ ⟨_, Function.update_self .., rfl⟩
      · exact hset.created id' c' hold
    · rcases update_eq_some_iff.mp h₁ with ⟨rfl, heq₁⟩ | ⟨-, hold₁⟩ <;>
        rcases update_eq_some_iff.mp h₂ with ⟨rfl, heq₂⟩ | ⟨-, hold₂⟩
      · rfl
      · simp only [Option.some.injEq, Prod.mk.injEq] at heq₁
        exact absurd (heq₁.1 ▸ hkey.symm) (h.not_created hget hold₂)
      · simp only [Option.some.injEq, Prod.mk.injEq] at heq₂
        exact absurd (heq₂.1 ▸ hkey) (h.not_created hget hold₁)
      · exact h.unique id₁ id₂ c₁ c₂ hold₁ hold₂ hkey
  · exact (h.setKey c.key (e := ⟨1, none⟩) Nat.one_pos (.inl rfl)).leave id
  · refine (h.leave id).setKey c.key (e := ⟨e.value, some (s.clock + c.ttl)⟩)
      (h.positive c.key e he) (.inr fun id' c' hcall' hkey => ?_)
    obtain ⟨hne, hold⟩ := calls_leave.mp hcall'
    exact hne (h.unique id' id c' c hold hcall hkey)
  · exact h.leave id

/-! ### Counters with and without a creator -/

/-- Every counter without an expiry has a call that is about to set one. -/
def RedisCounters.Tended (s : RedisCounters) : Prop :=
  ∀ key e, s.keys key = some e → e.expires = none →
    ∃ id c, s.calls id = some (c, .created) ∧ c.key = key

/-- There is a counter without an expiry that no call is about to set. -/
def RedisCounters.Orphaned (s : RedisCounters) : Prop :=
  ∃ key e, s.keys key = some e ∧ e.expires = none ∧
    ∀ id c, s.calls id = some (c, .created) → c.key ≠ key

/-- Counters that have a creator or an expiry satisfy the property. -/
theorem RedisCounters.Tended.countersExpire (h : s.Tended) : s.CountersExpire := by
  intro key e hkey _ hidle hnone
  obtain ⟨id, c, hcall, rfl⟩ := h key e hkey hnone
  exact hidle id c .created hcall rfl

/-- With no call in progress, a counter that has lost its creator violates the property. -/
theorem RedisCounters.Orphaned.not_countersExpire (h : s.Orphaned)
    (hidle : ∀ id, s.calls id = none) : ¬ s.CountersExpire := by
  obtain ⟨key, e, hkey, hnone, -⟩ := h
  refine fun hexpire => hexpire key e hkey (by simp [Entry.expired, hnone]) ?_ hnone
  intro id c stage hcall
  simp [hidle id] at hcall

/-- A creator is still there after another call has left. -/
theorem creator_leave {id : Nat} {key : String} (hid : ∀ c, s.calls id ≠ some (c, .created))
    (h : ∃ id' c, s.calls id' = some (c, .created) ∧ c.key = key) :
    ∃ id' c, (s.leave id).calls id' = some (c, .created) ∧ c.key = key := by
  obtain ⟨id', c, hcall, hkey⟩ := h
  refine ⟨id', c, calls_leave.mpr ⟨?_, hcall⟩, hkey⟩
  rintro rfl
  exact hid c hcall

/-- **A step whose creators finish** leaves no counter without a creator or an expiry. -/
theorem tended_step (hinv : CounterInv s) (h : s.Tended) (hguard : CreatorFinishes s a)
    (hstep : counterStep s a = some s') : s'.Tended := by
  rcases counterStep_cases hinv hstep with ⟨now, -, -, rfl⟩ | ⟨id, c, -, hfree, rfl⟩ |
    ⟨id, c, e, -, hcall, he, -, rfl⟩ | ⟨id, c, -, hcall, hget, rfl⟩ |
    ⟨id, c, rfl, hcall, hget, rfl⟩ | ⟨id, c, e, -, hcall, he, hnone, rfl⟩ | ⟨id, rfl, rfl⟩
  · exact h
  · intro key e hkey hnone
    obtain ⟨id', c', hcreated, hkey'⟩ := h key e hkey hnone
    refine ⟨id', c', (Function.update_of_ne ?_ _ _).trans hcreated, hkey'⟩
    rintro rfl
    simp [hfree] at hcreated
  · intro key e' hkey hnone
    refine creator_leave (s := { s with keys := _ }) (fun c' => by simp [hcall]) ?_
    rcases update_eq_some_iff.mp hkey with ⟨rfl, heq⟩ | ⟨-, hold⟩
    · obtain rfl := Option.some.inj heq
      exact h c.key e he hnone
    · exact h key e' hold hnone
  · intro key e' hkey hnone
    rcases update_eq_some_iff.mp hkey with ⟨rfl, -⟩ | ⟨-, hold⟩
    · exact ⟨id, c, Function.update_self .., rfl⟩
    · obtain ⟨id', c', hcreated, hkey'⟩ := h key e' hold hnone
      refine ⟨id', c', (Function.update_of_ne ?_ _ _).trans hcreated, hkey'⟩
      rintro rfl
      simp [hcall] at hcreated
  · have hthere := hguard c hcall
    simp [hget] at hthere
  · intro key e' hkey hnone'
    rcases update_eq_some_iff.mp hkey with ⟨-, heq⟩ | ⟨hne, hold⟩
    · obtain rfl := Option.some.inj heq
      simp at hnone'
    · obtain ⟨id', c', hcreated, rfl⟩ := h key e' hold hnone'
      refine ⟨id', c', calls_leave.mpr ⟨?_, hcreated⟩, rfl⟩
      rintro rfl
      simp only [hcall, Option.some.injEq, Prod.mk.injEq, and_true] at hcreated
      exact hne (hcreated ▸ rfl)
  · intro key e hkey hnone
    exact creator_leave hguard (h key e hkey hnone)

/-- **A step that ends a creator early** leaves its counter without one. -/
theorem orphaned_of_not_guard (hinv : CounterInv s) (hstep : counterStep s a = some s')
    (hguard : ¬ CreatorFinishes s a) : s'.Orphaned := by
  rcases counterStep_cases hinv hstep with ⟨now, rfl, -, -⟩ | ⟨id, c, rfl, -, -⟩ |
    ⟨id, c, e, rfl | rfl, hcall, he, hheld, -⟩ | ⟨id, c, rfl, -, -, -⟩ |
    ⟨id, c, rfl, hcall, hget, rfl⟩ | ⟨id, c, e, rfl, -, -, -, -⟩ | ⟨id, rfl, rfl⟩
  case inr.inr.inl.inr =>
    refine absurd (fun c' hcall' => ?_) hguard
    simp only [hcall, Option.some.injEq, Prod.mk.injEq, and_true] at hcall'
    rw [← hcall', get_eq_some_iff.mpr ⟨e, he, rfl, hheld⟩]
    rfl
  case inr.inr.inr.inr.inl =>
    refine ⟨c.key, ⟨1, none⟩, Function.update_self .., rfl, fun id' c' hcall' => ?_⟩
    exact hinv.not_created hget (calls_leave.mp hcall').2
  case inr.inr.inr.inr.inr.inr =>
    have hcreator : ∃ c, s.calls id = some (c, .created) := by
      simpa [CreatorFinishes] using hguard
    obtain ⟨c, hcall⟩ := hcreator
    obtain ⟨e, he, hnone⟩ := hinv.created id c hcall
    refine ⟨c.key, e, he, hnone, fun id' c' hcall' hkey => ?_⟩
    obtain ⟨hne, hold⟩ := calls_leave.mp hcall'
    exact hne (hinv.unique id' id c' c hold hcall hkey)
  all_goals exact absurd trivial hguard

/-- **A counter that has lost its creator** never gets an expiry. -/
theorem orphaned_step (hinv : CounterInv s) (h : s.Orphaned)
    (hstep : counterStep s a = some s') : s'.Orphaned := by
  obtain ⟨key, e₀, hkey, hnone, horphan⟩ := h
  have hthere : PartialMap.get s.keys s.clock key ≠ none := by
    simp [get_of_no_expiry hkey hnone]
  have hlater : ∀ id id' c', (s.leave id).calls id' = some (c', .created) → c'.key ≠ key :=
    fun _ id' c' hcall' => horphan id' c' (calls_leave.mp hcall').2
  rcases counterStep_cases hinv hstep with ⟨now, -, -, rfl⟩ | ⟨id, c, -, hfree, rfl⟩ |
    ⟨id, c, e, -, hcall, he, -, rfl⟩ | ⟨id, c, -, hcall, hget, rfl⟩ |
    ⟨id, c, -, hcall, hget, rfl⟩ | ⟨id, c, e, -, hcall, he, -, rfl⟩ | ⟨id, -, rfl⟩
  · exact ⟨key, e₀, hkey, hnone, horphan⟩
  · refine ⟨key, e₀, hkey, hnone, fun id' c' hcall' => ?_⟩
    rcases update_eq_some_iff.mp hcall' with ⟨-, heq⟩ | ⟨-, hold⟩
    · simp at heq
    · exact horphan id' c' hold
  · rcases eq_or_ne key c.key with rfl | hne
    · obtain rfl := Option.some.inj (hkey.symm.trans he)
      exact ⟨c.key, ⟨e₀.value + 1, e₀.expires⟩, Function.update_self .., hnone, hlater id⟩
    · exact ⟨key, e₀, (Function.update_of_ne hne _ _).trans hkey, hnone, hlater id⟩
  · have hne : key ≠ c.key := by
      rintro rfl
      exact hthere hget
    refine ⟨key, e₀, (Function.update_of_ne hne _ _).trans hkey, hnone, fun id' c' hcall' => ?_⟩
    rcases update_eq_some_iff.mp hcall' with ⟨-, heq⟩ | ⟨-, hold⟩
    · simp only [Option.some.injEq, Prod.mk.injEq, and_true] at heq
      exact heq ▸ hne.symm
    · exact horphan id' c' hold
  · have hne : key ≠ c.key := by
      rintro rfl
      exact hthere hget
    exact ⟨key, e₀, (Function.update_of_ne hne _ _).trans hkey, hnone, hlater id⟩
  · have hne : key ≠ c.key := (horphan id c hcall).symm
    exact ⟨key, e₀, (Function.update_of_ne hne _ _).trans hkey, hnone, hlater id⟩
  · exact ⟨key, e₀, hkey, hnone, hlater id⟩

end Steps

/-- Redis without counters satisfies the invariant. -/
theorem counterInv_start (clock : Int) : CounterInv (.start clock) := by
  constructor <;> simp [RedisCounters.start]

/-- **When Redis counters expire.** In a run in which no call that creates its counter ends
without the `EXPIRE`, every counter that has no call in progress on it has an expiry, at any
time. In a run at the end of which no call is in progress, only then. -/
theorem redis_counters_expire_iff {clock : Int} {as : List CounterAction} {s : RedisCounters}
    (hrun : run counterStep (.start clock) as = some s) :
    (Guarded counterStep CreatorFinishes (.start clock) as → s.CountersExpire) ∧
      ((∀ id, s.calls id = none) →
        (s.CountersExpire ↔ Guarded counterStep CreatorFinishes (.start clock) as)) := by
  have hexpire : Guarded counterStep CreatorFinishes (.start clock) as → s.CountersExpire :=
    fun hguard => by
      have hboth : CounterInv s ∧ s.Tended :=
        guarded_run_invariant (P := fun s => CounterInv s ∧ s.Tended)
          (fun _ _ _ h hg hstep =>
            ⟨counterInv_step h.1 hstep, tended_step h.1 h.2 hg hstep⟩)
          ⟨counterInv_start clock, by simp [RedisCounters.Tended, RedisCounters.start]⟩ hguard hrun
      exact hboth.2.countersExpire
  refine ⟨hexpire, fun hidle => ⟨fun h => ?_, hexpire⟩⟩
  exact guarded_of_scar (fun _ _ _ => counterInv_step) (fun _ _ _ => orphaned_of_not_guard)
    (fun _ _ _ => orphaned_step) (counterInv_start clock) hrun
    fun horphan => horphan.not_countersExpire hidle h

/-- A login failure that is counted for a minute. -/
def exampleCounterCall : CounterCall := ⟨"login_fail:u", 60, by decide⟩

/-- The process stops between its two commands; the next failure is counted without an
`EXPIRE`. -/
def exampleLostExpire : List CounterAction :=
  [.begin 0 exampleCounterCall, .incr 0, .abandon 0, .tick 1000, .begin 1 exampleCounterCall,
    .incr 1]

/-- Where the example ends: two failures are counted, without an expiry, and no call is in
progress. -/
theorem exampleLostExpire_run :
    ∃ s, run counterStep (.start 0) exampleLostExpire = some s ∧
      s.keys "login_fail:u" = some ⟨2, none⟩ ∧ ∀ id, s.calls id = none := by
  refine ⟨_, rfl, rfl, fun id => ?_⟩
  simp [RedisCounters.leave, RedisCounters.start]

/-- The counter is left without an expiry. -/
theorem redis_counter_never_expires :
    ¬ ∀ clock as s, run counterStep (.start clock) as = some s → s.CountersExpire := by
  intro h
  obtain ⟨s, hs, hkey, hidle⟩ := exampleLostExpire_run
  exact h 0 _ s hs "login_fail:u" ⟨2, none⟩ hkey rfl (fun id c stage => by simp [hidle id]) rfl

/-- A second failure is counted before the first one's `EXPIRE`. -/
def exampleExpireLate : List CounterAction :=
  [.begin 0 exampleCounterCall, .incr 0, .begin 1 exampleCounterCall, .incr 1, .expire 0]

/-- The creator finishes, and the counter has its expiry. -/
theorem redis_counters_expire_iff_example :
    ∃ s, run counterStep (.start 0) exampleExpireLate = some s ∧
      s.keys "login_fail:u" = some ⟨2, some 60⟩ ∧ s.CountersExpire := by
  have hguard : Guarded counterStep CreatorFinishes (.start 0) exampleExpireLate :=
    ⟨trivial, fun _ _ => ⟨trivial, fun _ _ => ⟨trivial, fun _ _ => ⟨trivial, fun _ _ =>
      ⟨trivial, fun _ _ => trivial⟩⟩⟩⟩⟩
  have hrun : (run counterStep (.start 0) exampleExpireLate).map
      (fun s => s.keys "login_fail:u") = some (some ⟨2, some 60⟩) := by
    decide +kernel
  obtain ⟨s, hs, hkey⟩ := Option.map_eq_some_iff.mp hrun
  exact ⟨s, hs, hkey, (redis_counters_expire_iff hs).1 hguard⟩

end IdpForge
