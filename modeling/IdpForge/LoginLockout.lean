import IdpForge.AccountSteps

/-!
# Lockout under Concurrent Logins

`handleLogin` looks the lock up first, compares the password and the second factor, and only
then counts a failure and perhaps writes the lock, or clears both on success. Here any number
of requests for one user name take these steps in any order. Requests for the same user name
differ in nothing but where they stand, so the state counts how many stand at each step.

The lock is in force from its writing for `Duration`. Requests that were past the lookup by
then still compare, and one that passes deletes the lock: the bound holds as long as there are
never more requests past the lookup than the counter has room for.

## Main results

* `handleLogin_eq_run`: a request that runs alone does what `handleLogin` does.
* `lockoutInv_step`: the invariant behind the bound.
* `lockout_bounded`: the runs in which at most `MaxAttempts` comparisons fail before the lock
  is in force, and nothing compares or removes the lock while it is.
* `lockout_overrun`: concurrent requests exceed the bound.
-/

open PartialMap TransitionSystem

namespace IdpForge

/-! ### The steps of a login -/

/-- What becomes of a request between its lookup and the second factor. -/
inductive PasswordOutcome where
  /-- The captcha is not solved. -/
  | refused
  /-- There is no password to compare with, which counts as a failed attempt. -/
  | missing
  | wrong
  /-- The password is right and the user's row cannot be read. -/
  | unreadable
  | right (mfaEnabled : Bool)
  deriving DecidableEq, Repr

/-- The cache and the requests for one user name: how many have their password comparison
ahead of them, how many the second factor, the `Increment`, the `Set` of the lock and the
`Delete` of counter and lock. `failures` is the number of comparisons that failed so far, and
`lockedAt` the time the lock was last written. -/
structure LockoutState where
  now : Int
  loginFailures : Expiring String Nat
  loginLocks : Expiring String Unit
  comparing : Nat
  factor : Nat
  counting : Nat
  locking : Nat
  clearing : Nat
  failures : Nat
  lockedAt : Option Int

/-- One step of a request, where a flag says whether the cache answers, or the passing of
time. -/
inductive LockoutAction where
  | lookUp (ok : Bool)
  | password (outcome : PasswordOutcome)
  | code (valid : Bool)
  | count (ok : Bool)
  | lock (ok : Bool)
  | clear (ok : Bool)
  | tick (d : Nat)
  deriving DecidableEq, Repr

section Steps

variable (cfg : AccountConfig) (username : String) (s : LockoutState)

/-- `accountLocked`, which lets a request through when the cache does not answer. -/
def lookUpStep (ok : Bool) : LockoutState :=
  if ok && (get s.loginLocks s.now username).isSome then s
  else { s with comparing := s.comparing + 1 }

/-- The captcha, the password comparison and the reading of the user's row. -/
def passwordStep (outcome : PasswordOutcome) : Option LockoutState :=
  if s.comparing = 0 then none
  else
    let s' := { s with comparing := s.comparing - 1 }
    some (match outcome with
      | .refused => s'
      | .missing => { s' with counting := s.counting + 1 }
      | .wrong => { s' with counting := s.counting + 1, failures := s.failures + 1 }
      | .unreadable => s'
      | .right true => { s' with factor := s.factor + 1 }
      | .right false => { s' with clearing := s.clearing + 1 })

/-- The second factor. -/
def codeStep (valid : Bool) : Option LockoutState :=
  if s.factor = 0 then none
  else
    let s' := { s with factor := s.factor - 1 }
    some (if valid then { s' with clearing := s.clearing + 1 }
      else { s' with counting := s.counting + 1, failures := s.failures + 1 })

/-- The `Increment` of `recordLoginFailure`. -/
def countStep (ok : Bool) : Option LockoutState :=
  if s.counting = 0 then none
  else
    let s' := { s with counting := s.counting - 1 }
    if cfg.maxAttempts ≤ 0 || !ok then some s'
    else
      let counted := increment s.loginFailures s.now username cfg.window
      let s'' := { s' with loginFailures := counted.2 }
      some (if (counted.1 : Int) < cfg.maxAttempts then s''
        else { s'' with locking := s.locking + 1 })

/-- The `Set` of `recordLoginFailure`. -/
def lockStep (ok : Bool) : Option LockoutState :=
  if s.locking = 0 then none
  else
    let s' := { s with locking := s.locking - 1 }
    some (if ok then
      { s' with
        loginLocks := set s.loginLocks s.now username () cfg.duration
        lockedAt := some s.now }
    else s')

/-- `clearLoginFailures`. -/
def clearStep (ok : Bool) : Option LockoutState :=
  if s.clearing = 0 then none
  else
    let s' := { s with clearing := s.clearing - 1 }
    some (if ok then
      { s' with
        loginFailures := delete s.loginFailures username
        loginLocks := delete s.loginLocks username }
    else s')

/-- The step function. -/
def lockoutStep : LockoutAction → Option LockoutState
  | .lookUp ok => some (lookUpStep username s ok)
  | .password outcome => passwordStep s outcome
  | .code valid => codeStep s valid
  | .count ok => countStep cfg username s ok
  | .lock ok => lockStep cfg username s ok
  | .clear ok => clearStep username s ok
  | .tick d => some { s with now := s.now + d }

end Steps

/-- No counter, no lock and no request. -/
def LockoutState.start (now : Int) : LockoutState where
  now := now
  loginFailures := fun _ => none
  loginLocks := fun _ => none
  comparing := 0
  factor := 0
  counting := 0
  locking := 0
  clearing := 0
  failures := 0
  lockedAt := none

/-! ### A request that runs alone -/

/-- The cache of the server, no request under way. -/
def ServerState.lockout (s : ServerState) : LockoutState :=
  { LockoutState.start s.now with loginFailures := s.loginFailures, loginLocks := s.loginLocks }

section Alone

variable (cfg : AccountConfig) (ctx : RequestContext) (s : ServerState) (req : LoginRequest)

/-- The steps of a failed attempt. -/
def failureActions : List LockoutAction :=
  if cfg.maxAttempts ≤ 0 || ctx.fails .increment ||
      ((increment s.loginFailures s.now req.username cfg.window).1 : Int) < cfg.maxAttempts then
    [.count !ctx.fails .increment]
  else [.count true, .lock !ctx.fails .writeLock]

/-- A counted attempt, which compares when there is a password to compare with. -/
def failedOutcome : PasswordOutcome :=
  if (passwordHash ctx.fails s.users req.username).getD "" = "" then .missing else .wrong

/-- The steps `handleLogin` takes on a request, one after the other. -/
def loginActions : List LockoutAction :=
  .lookUp (!ctx.fails .readLock) ::
    if accountLocked ctx s req.username then []
    else if !ctx.captchaOK then [.password .refused]
    else
      match findByPassword cfg ctx s req.username req.password with
      | .error true => .password (failedOutcome ctx s req) :: failureActions cfg ctx s req
      | .error false => [.password .unreadable]
      | .ok user =>
          .password (.right user.mfaEnabled) ::
            if !passesMFA ctx s user req.mfaCode then .code false :: failureActions cfg ctx s req
            else if user.mfaEnabled then [.code true, .clear !ctx.fails .clearFailures]
            else [.clear !ctx.fails .clearFailures]

/-- No request is under way. -/
def LockoutState.Idle (s : LockoutState) : Prop :=
  s.comparing = 0 ∧ s.factor = 0 ∧ s.counting = 0 ∧ s.locking = 0 ∧ s.clearing = 0

variable {cfg ctx s req}

/-- The steps of a failed attempt do what `recordLoginFailure` does. -/
theorem recordLoginFailure_eq_run {t : LockoutState} (hnow : t.now = s.now)
    (hfailures : t.loginFailures = s.loginFailures) (hlocks : t.loginLocks = s.loginLocks)
    (hcounting : t.counting = 1) (hrest : t.comparing = 0 ∧ t.factor = 0 ∧ t.locking = 0 ∧
      t.clearing = 0) :
    ∃ s', run (lockoutStep cfg req.username) t (failureActions cfg ctx s req) = some s' ∧
      s'.Idle ∧
      s'.loginFailures = (recordLoginFailure cfg ctx s req.username).loginFailures ∧
      s'.loginLocks = (recordLoginFailure cfg ctx s req.username).loginLocks := by
  obtain ⟨hcomparing, hfactor, hlocking, hclearing⟩ := hrest
  rw [failureActions, recordLoginFailure]
  cases hincrement : ctx.fails .increment with
  | true =>
      simp [lockoutStep, countStep, LockoutState.Idle, hcounting, hcomparing, hfactor, hlocking,
        hclearing, hfailures, hlocks]
  | false =>
      by_cases hoff : cfg.maxAttempts ≤ 0
      · simp [lockoutStep, countStep, LockoutState.Idle, hcounting, hcomparing, hfactor, hlocking,
          hclearing, hfailures, hlocks, hoff]
      · by_cases hfew : ((increment s.loginFailures s.now req.username cfg.window).1 : Int) <
            cfg.maxAttempts
        · simp [lockoutStep, countStep, LockoutState.Idle, hcounting, hcomparing, hfactor,
            hlocking, hclearing, hfailures, hlocks, hoff, hfew, hnow]
        · cases hwrite : ctx.fails .writeLock <;>
            simp [lockoutStep, countStep, lockStep, LockoutState.Idle, hcounting, hcomparing,
              hfactor, hlocking, hclearing, hfailures, hlocks, hoff, hfew, hnow]

/-- The lookup lets a request through unless its user name is locked. -/
theorem lookUpStep_lockout :
    lookUpStep req.username s.lockout (!ctx.fails .readLock) =
      if accountLocked ctx s req.username then s.lockout
      else { s.lockout with comparing := 1 } := rfl

/-- A login that passes clears the counter and the lock, and then writes a session at most. -/
theorem handleLogin_lockout_of_pass {user : UserRow} (sessionID : String)
    (hlocked : accountLocked ctx s req.username = false) (hcaptcha : ctx.captchaOK = true)
    (hfind : findByPassword cfg ctx s req.username req.password = .ok user)
    (hfactor : passesMFA ctx s user req.mfaCode = true) :
    (handleLogin cfg ctx s (some req) sessionID).2.loginFailures =
        (clearLoginFailures ctx s req.username).loginFailures ∧
      (handleLogin cfg ctx s (some req) sessionID).2.loginLocks =
        (clearLoginFailures ctx s req.username).loginLocks := by
  simp only [handleLogin, hlocked, hcaptcha, hfind, hfactor, ServerState.createSession]
  cases ctx.fails .storeSession <;> exact ⟨rfl, rfl⟩

/-- **A request that runs alone does what `handleLogin` does.** Its steps, taken from the
server's state without another request under way, leave the counters and locks that
`handleLogin` leaves, and no request. -/
theorem handleLogin_eq_run (sessionID : String) :
    ∃ s', run (lockoutStep cfg req.username) s.lockout (loginActions cfg ctx s req) = some s' ∧
      s'.Idle ∧
      s'.loginFailures = (handleLogin cfg ctx s (some req) sessionID).2.loginFailures ∧
      s'.loginLocks = (handleLogin cfg ctx s (some req) sessionID).2.loginLocks := by
  rw [loginActions, run_cons, lockoutStep, lookUpStep_lockout, Option.bind_some]
  cases hlocked : accountLocked ctx s req.username with
  | true => exact ⟨_, rfl, ⟨rfl, rfl, rfl, rfl, rfl⟩, by simp [handleLogin, hlocked,
      ServerState.lockout]⟩
  | false =>
      simp only [Bool.false_eq_true, if_false]
      cases hcaptcha : ctx.captchaOK with
      | false => exact ⟨_, rfl, ⟨rfl, rfl, rfl, rfl, rfl⟩, by simp [handleLogin, hlocked, hcaptcha,
          ServerState.lockout]⟩
      | true =>
          cases hfind : findByPassword cfg ctx s req.username req.password with
          | error counted =>
              cases counted with
              | false => exact ⟨_, rfl, ⟨rfl, rfl, rfl, rfl, rfl⟩, by simp [handleLogin, hlocked,
                  hcaptcha, hfind, ServerState.lockout]⟩
              | true =>
                  have hcompare : lockoutStep cfg req.username
                      { s.lockout with comparing := 1 } (.password (failedOutcome ctx s req)) =
                      some { s.lockout with
                        counting := 1
                        failures := if failedOutcome ctx s req = .wrong then 1 else 0 } := by
                    rw [failedOutcome]
                    split <;> rfl
                  simp only [Bool.not_true, Bool.false_eq_true, if_false, run_cons, hcompare,
                    Option.bind_some, handleLogin, hlocked, hcaptcha, hfind, if_true]
                  exact recordLoginFailure_eq_run rfl rfl rfl rfl ⟨rfl, rfl, rfl, rfl⟩
          | ok user =>
              cases hfactor : passesMFA ctx s user req.mfaCode with
              | false =>
                  have henabled : user.mfaEnabled = true := by
                    by_contra hoff
                    simp [passesMFA, hoff] at hfactor
                  simp only [Bool.not_true, Bool.false_eq_true, if_false, handleLogin, hlocked,
                    hcaptcha, hfind, hfactor, henabled, Bool.not_false, if_true]
                  exact recordLoginFailure_eq_run
                    (t := { s.lockout with counting := 1, failures := 1 }) rfl rfl rfl rfl
                    ⟨rfl, rfl, rfl, rfl⟩
              | true =>
                  obtain ⟨hfailures, hlocks⟩ :=
                    handleLogin_lockout_of_pass sessionID hlocked hcaptcha hfind hfactor
                  rw [hfailures, hlocks, clearLoginFailures]
                  cases henabled : user.mfaEnabled <;> cases hclear : ctx.fails .clearFailures <;>
                    simp [lockoutStep, passwordStep, codeStep, clearStep, LockoutState.Idle,
                      LockoutState.start, ServerState.lockout, hfactor, henabled]

end Alone

/-! ### The invariant -/

section Bound

variable (cfg : AccountConfig) (username : String)

/-- The requests whose outcome is not on the counter yet. -/
def LockoutState.uncounted (s : LockoutState) : Nat :=
  s.comparing + s.factor + s.counting + s.clearing

/-- The failures on the counter. -/
def LockoutState.counted (s : LockoutState) : Nat := counter s.loginFailures s.now username

/-- A lock written at `T` is in force at `now`; one without a duration stays for good. -/
def InForce (T now : Int) : Prop := cfg.duration ≤ 0 ∨ now ≤ T + cfg.duration

/-- The bound: until the lock is first written at most `MaxAttempts` comparisons have failed,
and while it is in force it is in the cache and no request has a comparison or the removal of
the lock ahead of it. -/
structure LockoutBounded (s : LockoutState) : Prop where
  failures : s.lockedAt = none → (s.failures : Int) ≤ cfg.maxAttempts
  locked : ∀ T, s.lockedAt = some T → InForce cfg T s.now →
    get s.loginLocks s.now username = some () ∧ s.comparing = 0 ∧ s.factor = 0 ∧ s.clearing = 0

/-- The counter has room for the request, and nothing gets in its way: the cache answers; a
request gets past the lookup when no other is under way, or when none is about to write the
lock and the failures on the counter and the requests under way are fewer than `MaxAttempts`;
and before the lock is first written no success clears failures off the counter, and the
counter does not run out. -/
def HasRoom (s : LockoutState) : LockoutAction → Prop
  | .lookUp ok => ok = true ∧ (get s.loginLocks s.now username = none →
      (s.uncounted = 0 ∧ s.locking = 0) ∨
        (s.locking = 0 ∧ (s.counted username + s.uncounted : Int) < cfg.maxAttempts))
  | .count ok => ok = true
  | .lock ok => ok = true
  | .clear ok => ok = true → s.lockedAt = none → s.counted username = 0
  | .tick d => s.lockedAt = none →
      counter s.loginFailures (s.now + d) username = s.counted username
  | _ => True

instance (s : LockoutState) (a : LockoutAction) : Decidable (HasRoom cfg username s a) := by
  cases a <;> simp only [HasRoom] <;> infer_instance

/-- The invariant. The requests not counted yet fit on the counter, or there is one at most;
when a request is about to write the lock all are counted. Before the lock is written, the
failed comparisons are on the counter or about to be, and a full counter has a request about
to write the lock. While the lock is in force, no request is past the lookup but uncounted. -/
structure LockoutInv (s : LockoutState) : Prop where
  fits : s.uncounted ≤ 1 ∨ (s.counted username + s.uncounted : Int) ≤ cfg.maxAttempts
  allCounted : 0 < s.locking → s.uncounted = 0
  unlocked : s.lockedAt = none → s.loginLocks username = none
  failures : s.lockedAt = none → s.failures ≤ s.counted username + s.counting
  room : s.lockedAt = none → (s.counted username + s.uncounted : Int) ≤ cfg.maxAttempts
  full : s.lockedAt = none → cfg.maxAttempts ≤ s.counted username → 0 < s.locking
  locked : ∀ T, s.lockedAt = some T → InForce cfg T s.now → s.uncounted = 0 ∧
    s.loginLocks username = some ⟨(), if 0 < cfg.duration then some (T + cfg.duration) else none⟩

variable {cfg username} {s s' : LockoutState}

/-- A lock in force is found. -/
theorem LockoutInv.get_lock (h : LockoutInv cfg username s) {T : Int}
    (hat : s.lockedAt = some T) (hforce : InForce cfg T s.now) :
    get s.loginLocks s.now username = some () := by
  obtain ⟨-, hentry⟩ := h.locked T hat hforce
  exact get_eq_some_iff.mpr ⟨_, hentry, rfl, Entry.not_expired_of_lifetime hforce⟩

/-- A lookup lets a request past, or finds the lock. -/
theorem LockoutInv.lookUp (h : LockoutInv cfg username s) {ok : Bool}
    (hroom : HasRoom cfg username s (.lookUp ok)) :
    LockoutInv cfg username (lookUpStep username s ok) := by
  obtain ⟨rfl, hroom⟩ := hroom
  rw [lookUpStep]
  cases hlock : get s.loginLocks s.now username with
  | some u => exact h
  | none =>
      rw [if_neg (by simp)]
      have hpast := hroom hlock
      have hroomNever := h.room
      have hfull := h.full
      refine ⟨?_, ?_, h.unlocked, h.failures, ?_, hfull, fun T hat hforce => ?_⟩
      · dsimp only [LockoutState.uncounted, LockoutState.counted] at *
        omega
      · dsimp only [LockoutState.uncounted, LockoutState.counted] at *
        omega
      · intro hnever
        have hroomNever' := hroomNever hnever
        have hfull' := hfull hnever
        dsimp only [LockoutState.uncounted, LockoutState.counted] at *
        omega
      · have hfound := h.get_lock hat hforce
        simp [hlock] at hfound

/-- A request moves on or returns without touching the cache. The comparisons that failed are
about to be counted. -/
theorem LockoutInv.move (h : LockoutInv cfg username s) (hcache : s'.now = s.now ∧
      s'.loginFailures = s.loginFailures ∧ s'.loginLocks = s.loginLocks ∧
      s'.lockedAt = s.lockedAt ∧ s'.locking = s.locking)
    (hless : s'.uncounted ≤ s.uncounted)
    (hfailures : s'.failures + s.counting ≤ s.failures + s'.counting) :
    LockoutInv cfg username s' := by
  obtain ⟨hnow, hcounter, hlocks, hat, hlocking⟩ := hcache
  have hcounted : s'.counted username = s.counted username := by
    rw [LockoutState.counted, LockoutState.counted, hnow, hcounter]
  have hfits := h.fits
  have hall := h.allCounted
  refine ⟨?_, ?_, ?_, fun hnever => ?_, fun hnever => ?_, fun hnever hfull => ?_,
    fun T hT hforce => ?_⟩
  · omega
  · omega
  · rw [hat, hlocks]
    exact h.unlocked
  · have := h.failures (hat ▸ hnever)
    omega
  · have := h.room (hat ▸ hnever)
    omega
  · have := h.full (hat ▸ hnever)
    omega
  · obtain ⟨hzero, hentry⟩ := h.locked T (hat ▸ hT) (hnow ▸ hforce)
    rw [hlocks]
    exact ⟨by omega, hentry⟩

/-- The captcha, the password and the user's row. -/
theorem LockoutInv.password (h : LockoutInv cfg username s) {outcome : PasswordOutcome}
    (hstep : passwordStep s outcome = some s') : LockoutInv cfg username s' := by
  rw [passwordStep] at hstep
  split at hstep
  · simp at hstep
  · next hpositive =>
      obtain rfl := Option.some.inj hstep
      refine h.move ?_ ?_ ?_ <;>
        (cases outcome with
        | right enabled => cases enabled <;> simp [LockoutState.uncounted] <;> omega
        | _ => simp [LockoutState.uncounted] <;> omega)

/-- The second factor. -/
theorem LockoutInv.code (h : LockoutInv cfg username s) {valid : Bool}
    (hstep : codeStep s valid = some s') : LockoutInv cfg username s' := by
  rw [codeStep] at hstep
  split at hstep
  · simp at hstep
  · next hpositive =>
      obtain rfl := Option.some.inj hstep
      refine h.move ?_ ?_ ?_ <;>
        (cases valid <;> simp [LockoutState.uncounted] <;> omega)

/-- The counter goes up by a failure that was about to be counted; a full counter, and no other,
has a lock about to be written. -/
theorem LockoutInv.counted (h : LockoutInv cfg username s)
    (hsame : s'.now = s.now ∧ s'.loginLocks = s.loginLocks ∧ s'.lockedAt = s.lockedAt ∧
      s'.failures = s.failures)
    (hcounting : s'.counting + 1 = s.counting) (huncounted : s'.uncounted + 1 = s.uncounted)
    (hcounted : s'.counted username = s.counted username + 1)
    (hlocking : 0 < s'.locking ↔ cfg.maxAttempts ≤ s'.counted username) :
    LockoutInv cfg username s' := by
  obtain ⟨hnow, hlocks, hat, hfailed⟩ := hsame
  have hfits := h.fits
  refine ⟨?_, ?_, ?_, fun hnever => ?_, fun hnever => ?_, fun _ => hlocking.mpr,
    fun T hT hforce => ?_⟩
  · omega
  · omega
  · rw [hat, hlocks]
    exact h.unlocked
  · have := h.failures (hat ▸ hnever)
    omega
  · have := h.room (hat ▸ hnever)
    omega
  · -- while a lock is in force, no failure is about to be counted
    have := (h.locked T (hat ▸ hT) (hnow ▸ hforce)).1
    omega

/-- A failure is counted. -/
theorem LockoutInv.count (h : LockoutInv cfg username s) (hm : 0 < cfg.maxAttempts)
    (hstep : countStep cfg username s true = some s') : LockoutInv cfg username s' := by
  rw [countStep] at hstep
  split at hstep
  · simp at hstep
  · next hpositive =>
      rw [if_neg (by simpa using hm)] at hstep
      obtain rfl := Option.some.inj hstep
      obtain ⟨hfst, hsnd⟩ := increment_spec s.loginFailures s.now username cfg.window
      have hnone : s.locking = 0 := by
        have := h.allCounted
        dsimp only [LockoutState.uncounted] at this
        omega
      have hcounting : s.counting - 1 + 1 = s.counting := by omega
      split
      · next hfew =>
          refine h.counted ⟨rfl, rfl, rfl, rfl⟩ hcounting ?_ hsnd ?_
          · dsimp only [LockoutState.uncounted]
            omega
          · dsimp only [LockoutState.counted] at *
            omega
      · next hmany =>
          refine h.counted ⟨rfl, rfl, rfl, rfl⟩ hcounting ?_ hsnd ?_
          · dsimp only [LockoutState.uncounted]
            omega
          · dsimp only [LockoutState.counted] at *
            omega

/-- The lock is written. -/
theorem LockoutInv.lock (h : LockoutInv cfg username s)
    (hstep : lockStep cfg username s true = some s') : LockoutInv cfg username s' := by
  rw [lockStep] at hstep
  split at hstep
  · simp at hstep
  · next hpositive =>
      obtain rfl := Option.some.inj hstep
      have hzero : s.uncounted = 0 := h.allCounted (by omega)
      have hone : s.uncounted ≤ 1 := by omega
      refine ⟨Or.inl hone, fun _ => hzero, ?_, ?_, ?_, ?_, fun T hat _ => ⟨hzero, ?_⟩⟩
      · simp
      · simp
      · simp
      · simp
      · obtain rfl : s.now = T := by simpa using hat
        simp [PartialMap.set]

/-- Counter and lock are cleared. -/
theorem LockoutInv.clear (h : LockoutInv cfg username s) (hm : 0 < cfg.maxAttempts) {ok : Bool}
    (hroom : HasRoom cfg username s (.clear ok))
    (hstep : clearStep username s ok = some s') : LockoutInv cfg username s' := by
  rw [clearStep] at hstep
  split at hstep
  · simp at hstep
  · next hpositive =>
      obtain rfl := Option.some.inj hstep
      cases ok with
      | false => refine h.move ?_ ?_ ?_ <;> simp [LockoutState.uncounted]
      | true =>
          have hcleared : counter (delete s.loginFailures username) s.now username = 0 := by
            simp [counter]
          have hfits := h.fits
          have hall := h.allCounted
          have hfailures := h.failures
          have hroomNever := h.room
          have hempty : s.lockedAt = none → s.counted username = 0 := hroom rfl
          rw [if_pos rfl]
          refine ⟨?_, ?_, fun _ => by simp [delete], fun hnever => ?_, fun hnever => ?_,
            fun hnever hfull => ?_, fun T hat hforce => ?_⟩
          · dsimp only [LockoutState.uncounted, LockoutState.counted] at *
            omega
          · dsimp only [LockoutState.uncounted] at *
            omega
          · have := hfailures hnever
            have := hempty hnever
            dsimp only [LockoutState.counted] at *
            omega
          · have := hroomNever hnever
            dsimp only [LockoutState.uncounted, LockoutState.counted] at *
            omega
          · dsimp only [LockoutState.counted] at *
            omega
          · have := (h.locked T hat hforce).1
            dsimp only [LockoutState.uncounted] at this
            omega

/-- What is counted later was counted before. -/
theorem counter_le_of_le {m : Expiring String Nat} {now now' : Int} {k : String}
    (hle : now ≤ now') : counter m now' k ≤ counter m now k := by
  rw [counter]
  cases hlater : get m now' k with
  | none => exact Nat.zero_le _
  | some n => rw [counter, get_of_le hle hlater]

/-- Time passes. -/
theorem LockoutInv.tick (h : LockoutInv cfg username s) {d : Nat}
    (hroom : HasRoom cfg username s (.tick d)) :
    LockoutInv cfg username { s with now := s.now + d } := by
  have hless : counter s.loginFailures (s.now + d) username ≤ s.counted username :=
    counter_le_of_le (by omega)
  have hfits := h.fits
  have hroomNever := h.room
  refine ⟨?_, h.allCounted, h.unlocked, fun hnever => ?_, fun hnever => ?_,
    fun hnever hfull => ?_, fun T hat hforce => ?_⟩
  · dsimp only [LockoutState.uncounted, LockoutState.counted] at *
    omega
  · have hsame : counter s.loginFailures (s.now + d) username = s.counted username := hroom hnever
    have := h.failures hnever
    dsimp only [LockoutState.counted] at *
    omega
  · have := hroomNever hnever
    dsimp only [LockoutState.uncounted, LockoutState.counted] at *
    omega
  · have hsame : counter s.loginFailures (s.now + d) username = s.counted username := hroom hnever
    refine h.full hnever ?_
    dsimp only [LockoutState.counted] at *
    omega
  · refine h.locked T hat ?_
    rcases hforce with hnever | hbefore
    · exact .inl hnever
    · refine .inr ?_
      dsimp only at hbefore
      omega

/-- **The step lemma.** -/
theorem lockoutInv_step {a : LockoutAction} (hm : 0 < cfg.maxAttempts)
    (h : LockoutInv cfg username s) (hroom : HasRoom cfg username s a)
    (hstep : lockoutStep cfg username s a = some s') : LockoutInv cfg username s' := by
  cases a with
  | lookUp ok => exact Option.some.inj hstep ▸ h.lookUp hroom
  | password outcome => exact h.password hstep
  | code valid => exact h.code hstep
  | count ok =>
      obtain rfl : ok = true := hroom
      exact h.count hm hstep
  | lock ok =>
      obtain rfl : ok = true := hroom
      exact h.lock hstep
  | clear ok => exact h.clear hm hroom hstep
  | tick d => exact Option.some.inj hstep ▸ h.tick hroom

/-- Without a counter, a lock or a request the invariant holds. -/
theorem lockoutInv_start (now : Int) (hm : 0 < cfg.maxAttempts) :
    LockoutInv cfg username (LockoutState.start now) where
  fits := .inl (Nat.zero_le 1)
  allCounted := fun h => by simp [LockoutState.start] at h
  unlocked := fun _ => rfl
  failures := fun _ => Nat.zero_le _
  room := fun _ => by
    have hcounted : (LockoutState.start now).counted username = 0 := rfl
    have huncounted : (LockoutState.start now).uncounted = 0 := rfl
    omega
  full := fun _ hfull => by
    have hcounted : (LockoutState.start now).counted username = 0 := rfl
    omega
  locked := fun T hat => by simp [LockoutState.start] at hat

/-- The invariant bounds the failures. -/
theorem LockoutInv.bounded (h : LockoutInv cfg username s) : LockoutBounded cfg username s where
  failures := fun hnever => by
    have hfailures := h.failures hnever
    have hroom := h.room hnever
    dsimp only [LockoutState.uncounted] at hroom
    omega
  locked := fun T hat hforce => by
    have hzero := (h.locked T hat hforce).1
    dsimp only [LockoutState.uncounted] at hzero
    exact ⟨h.get_lock hat hforce, by omega, by omega, by omega⟩

end Bound

/-- **The lockout bound, as long as there is room.** In every run from no counter and no lock
whose steps find room on the counter, at most `MaxAttempts` password or second-factor
comparisons have failed until the lock is written, and while it is in force it stays in the
cache and no request has a comparison or the removal of the lock ahead of it. -/
theorem lockout_bounded (cfg : AccountConfig) (username : String) (now : Int)
    (as : List LockoutAction) (s : LockoutState) (hm : 0 < cfg.maxAttempts)
    (hroom : Guarded (lockoutStep cfg username) (HasRoom cfg username) (LockoutState.start now) as)
    (hrun : run (lockoutStep cfg username) (LockoutState.start now) as = some s) :
    LockoutBounded cfg username s :=
  (guarded_run_invariant (fun _ _ _ h hg hs => lockoutInv_step hm h hg hs)
    (lockoutInv_start now hm) hroom hrun).bounded

/-- Five failed attempts one after the other, and the lock. -/
def sequentialActions : List LockoutAction :=
  (List.replicate 5 [.lookUp true, .password .wrong, .count true]).flatten ++ [.lock true]

/-- The bound holds of five attempts one after the other. -/
theorem lockout_bounded_sequential :
    ∃ s, run (lockoutStep exampleAccounts "alice") (LockoutState.start 0) sequentialActions =
      some s ∧ s.failures = 5 ∧ s.lockedAt = some 0 ∧ LockoutBounded exampleAccounts "alice" s := by
  have hrun : (run (lockoutStep exampleAccounts "alice") (LockoutState.start 0)
      sequentialActions).map (fun s => (s.failures, s.lockedAt)) = some (5, some 0) := by
    decide +kernel
  obtain ⟨s, hrun, hs⟩ := Option.map_eq_some_iff.mp hrun
  obtain ⟨hfailures, hat⟩ := Prod.mk.inj hs
  exact ⟨s, hrun, hfailures, hat, lockout_bounded exampleAccounts "alice" 0 sequentialActions s
    (by decide) (by decide +kernel) hrun⟩

/-- Six requests look the lock up before any of them has failed. -/
def overrunActions : List LockoutAction :=
  List.replicate 6 (.lookUp true) ++ List.replicate 6 (.password .wrong)

/-- **Concurrent requests exceed the bound.** With five attempts allowed, six requests that
are past the lookup all have their comparison, and no lock has been written. -/
theorem lockout_overrun :
    ¬ ∀ (cfg : AccountConfig) (username : String) (now : Int) (as : List LockoutAction)
      (s : LockoutState), 0 < cfg.maxAttempts →
        run (lockoutStep cfg username) (LockoutState.start now) as = some s →
          LockoutBounded cfg username s := by
  intro h
  have hrun : (run (lockoutStep exampleAccounts "alice") (LockoutState.start 0)
      overrunActions).map (fun s => (s.failures, s.lockedAt)) = some (6, none) := by
    decide +kernel
  obtain ⟨s, hrun, hs⟩ := Option.map_eq_some_iff.mp hrun
  obtain ⟨hfailures, hat⟩ := Prod.mk.inj hs
  have hbound := (h exampleAccounts "alice" 0 overrunActions s (by decide) hrun).failures hat
  rw [hfailures] at hbound
  exact absurd hbound (by decide)

end IdpForge
