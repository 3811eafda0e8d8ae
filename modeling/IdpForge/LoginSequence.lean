import IdpForge.LoginLockout

/-!
# Logins One at a Time

The steps of `handleLogin` as in `LoginLockout`, but for one request at a time, whatever its user
name, over a cache that always answers. A request takes time, so counter and lock may expire
while it runs.

The counter of a user name lives for `Window` from its first failure, the lock for `Duration`
from its writing, and a success removes both. A counter that has reached the limit outlives the
lock, or the lock the counter.

## Main results

* `loginAs_eq_run`: `handleLogin` takes these steps.
* `sequenceStep_other`: other user names are left alone.
* `refused_of_locked`: a locked user name gets no request past the lookup.
* `failures_bounded`: the failed attempts of one lifetime of the counter.
* `locked_for_duration`: a full counter keeps the user name out for `Duration`.
* `sequential_lockout`: all of these, along every run.
-/

open PartialMap TransitionSystem

namespace IdpForge

/-! ### The steps -/

/-- What a request that is past the lookup does next. -/
inductive LoginStage where
  | comparing | factor | counting | locking | clearing
  deriving DecidableEq, Repr

/-- The clock, the counters, the locks, and the request under way with its user name. -/
structure SequenceState where
  now : Int
  loginFailures : Expiring String Nat
  loginLocks : Expiring String Unit
  request : Option (String × LoginStage)

/-- A step of the request, the next request, or the passing of time. -/
inductive SequenceAction where
  | login (username : String)
  | password (outcome : PasswordOutcome)
  | code (valid : Bool)
  | count
  | lock
  | clear
  | tick (d : Nat)
  deriving DecidableEq, Repr

/-- No counter, no lock and no request. -/
def SequenceState.start (now : Int) : SequenceState :=
  ⟨now, fun _ => none, fun _ => none, none⟩

/-- What follows the password comparison. -/
def PasswordOutcome.next (username : String) : PasswordOutcome → Option (String × LoginStage)
  | .refused | .unreadable => none
  | .missing | .wrong => some (username, .counting)
  | .right true => some (username, .factor)
  | .right false => some (username, .clearing)

section Steps

variable (cfg : AccountConfig) (s : SequenceState)

/-- The `Increment` of `recordLoginFailure`. -/
def countedFailure (username : String) : Nat × Expiring String Nat :=
  increment s.loginFailures s.now username cfg.window

/-- One step. -/
def sequenceStep : SequenceAction → Option SequenceState
  | .login username =>
      if s.request.isSome then none
      else if (get s.loginLocks s.now username).isSome then some s
      else some { s with request := some (username, .comparing) }
  | .password outcome =>
      match s.request with
      | some (username, .comparing) => some { s with request := outcome.next username }
      | _ => none
  | .code valid =>
      match s.request with
      | some (username, .factor) =>
          some { s with request := some (username, if valid then .clearing else .counting) }
      | _ => none
  | .count =>
      match s.request with
      | some (username, .counting) =>
          if cfg.maxAttempts ≤ 0 then some { s with request := none }
          else
            some { s with
              loginFailures := (countedFailure cfg s username).2
              request :=
                if ((countedFailure cfg s username).1 : Int) < cfg.maxAttempts then none
                else some (username, .locking) }
      | _ => none
  | .lock =>
      match s.request with
      | some (username, .locking) =>
          some { s with
            loginLocks := set s.loginLocks s.now username () cfg.duration
            request := none }
      | _ => none
  | .clear =>
      match s.request with
      | some (username, .clearing) =>
          some { s with
            loginFailures := delete s.loginFailures username
            loginLocks := delete s.loginLocks username
            request := none }
      | _ => none
  | .tick d => some { s with now := s.now + d }

/-- The user name of the request under way. -/
def SequenceState.requester : Option String := s.request.map (·.1)

/-- The user name of the request that takes the step. -/
def SequenceState.actor : SequenceAction → Option String
  | .login username => some username
  | .tick _ => none
  | _ => s.requester

/-- The request of the user name fails: there is no such user or password, the password is wrong,
or the code. -/
def FailsAttempt (username : String) : SequenceAction → Bool
  | .password .missing | .password .wrong | .code false => s.requester = some username
  | _ => false

/-- The lock of the user name is in force. -/
def Locked (username : String) : Prop := get s.loginLocks s.now username = some ()

end Steps

/-! ### The handler takes these steps -/

section Handler

variable (cfg : AccountConfig) (ctx : RequestContext) (s : ServerState) (name : String)
  (req : LoginRequest)

/-- `handleLogin` on a parsed body, where the database finds the row of this name for the user name
of the request. -/
def loginAs (sessionID : String) : Reply LoginResponse :=
  if accountLocked ctx s req.username then
    (newError 429 "too many failed attempts, try again later", s)
  else if !ctx.captchaOK then (newError 403 "captcha verification failed", s)
  else
    match findByPassword cfg ctx s name req.password with
    | .error counted =>
        (newError 401 "invalid credentials",
          if counted then recordLoginFailure cfg ctx s req.username else s)
    | .ok user =>
        if !passesMFA ctx s user req.mfaCode then
          (newError 401 "invalid MFA code", recordLoginFailure cfg ctx s req.username)
        else
          let s' := clearLoginFailures ctx s req.username
          let changeRequired := passwordChangeRequired cfg ctx s user.id user.forcePasswordChange
          match s'.createSession ctx sessionID user.id changeRequired with
          | none => (newError 500 "could not create session", s')
          | some s'' => (.ok ⟨user.id, user.mfaEnabled, changeRequired⟩, s'')

/-- The steps of a failed attempt. -/
def failureSteps : List SequenceAction :=
  if cfg.maxAttempts ≤ 0 ∨
      ((increment s.loginFailures s.now req.username cfg.window).1 : Int) < cfg.maxAttempts then
    [.count]
  else [.count, .lock]

/-- The steps of a request. -/
def loginSteps : List SequenceAction :=
  .login req.username ::
    if accountLocked ctx s req.username then []
    else if !ctx.captchaOK then [.password .refused]
    else
      match findByPassword cfg ctx s name req.password with
      | .error true =>
          .password (failedOutcome ctx s { req with username := name }) :: failureSteps cfg s req
      | .error false => [.password .unreadable]
      | .ok user =>
          .password (.right user.mfaEnabled) ::
            if !passesMFA ctx s user req.mfaCode then .code false :: failureSteps cfg s req
            else if user.mfaEnabled then [.code true, .clear]
            else [.clear]

/-- The cache answers the request. -/
structure CacheAnswers : Prop where
  readLock : ctx.fails .readLock = false
  increment : ctx.fails .increment = false
  writeLock : ctx.fails .writeLock = false
  clearFailures : ctx.fails .clearFailures = false

/-- The clock and the cache of the server. -/
structure SequenceState.Shows (t : SequenceState) (s : ServerState) : Prop where
  now : t.now = s.now
  loginFailures : t.loginFailures = s.loginFailures
  loginLocks : t.loginLocks = s.loginLocks

variable {cfg ctx s name req} {t : SequenceState}

/-- `handleLogin` looks the user name up as it stands in the request. -/
theorem handleLogin_eq_loginAs (sessionID : String) :
    handleLogin cfg ctx s (some req) sessionID = loginAs cfg ctx s req.username req sessionID :=
  rfl

/-- The steps of a failed attempt do what `recordLoginFailure` does. -/
theorem recordLoginFailure_eq_steps (hcache : CacheAnswers ctx) (ht : t.Shows s)
    (hrequest : t.request = some (req.username, .counting)) :
    ∃ t', run (sequenceStep cfg) t (failureSteps cfg s req) = some t' ∧ t'.request = none ∧
      t'.Shows (recordLoginFailure cfg ctx s req.username) := by
  obtain ⟨hnow, hfailures, hlocks⟩ := ht
  have hcounted : countedFailure cfg t req.username =
      increment s.loginFailures s.now req.username cfg.window := by
    rw [countedFailure, hfailures, hnow]
  rw [failureSteps, recordLoginFailure, hcache.increment, hcache.writeLock]
  by_cases hoff : cfg.maxAttempts ≤ 0
  · refine ⟨{ t with request := none }, ?_, rfl, ?_⟩
    · simp [sequenceStep, hrequest, hoff]
    · simpa [hoff] using ⟨hnow, hfailures, hlocks⟩
  · by_cases hfew : ((increment s.loginFailures s.now req.username cfg.window).1 : Int) <
        cfg.maxAttempts
    · refine ⟨_, by simp [sequenceStep, hrequest, hoff, hcounted, hfew]; rfl, rfl, ?_⟩
      simpa [hoff, hfew] using ⟨hnow, rfl, hlocks⟩
    · refine ⟨_, by simp [sequenceStep, hrequest, hoff, hcounted, hfew]; rfl, rfl, ?_⟩
      rw [if_neg (by simpa using hoff)]
      simp only [hfew, decide_false, Bool.or_self, Bool.false_eq_true, if_false]
      exact ⟨hnow, rfl, by rw [← hlocks, ← hnow]⟩

/-- The lookup of the handler. -/
theorem login_eq_accountLocked (hcache : CacheAnswers ctx) (ht : t.Shows s)
    (hidle : t.request = none) :
    sequenceStep cfg t (.login req.username) =
      some (if accountLocked ctx s req.username then t
        else { t with request := some (req.username, .comparing) }) := by
  have hlookup : (get t.loginLocks t.now req.username).isSome =
      accountLocked ctx s req.username := by
    rw [accountLocked, hcache.readLock, ht.loginLocks, ht.now]
    rfl
  rw [sequenceStep, hidle, hlookup]
  cases accountLocked ctx s req.username <;> rfl

/-- A success clears the counter and the lock, and touches neither afterwards. -/
theorem shows_of_pass {user : UserRow} (hcache : CacheAnswers ctx) (ht : t.Shows s)
    (hlocked : accountLocked ctx s req.username = false) (hcaptcha : ctx.captchaOK = true)
    (hfind : findByPassword cfg ctx s name req.password = .ok user)
    (hfactor : passesMFA ctx s user req.mfaCode = true) (sessionID : String) :
    SequenceState.Shows
      { t with
        loginFailures := delete t.loginFailures req.username
        loginLocks := delete t.loginLocks req.username
        request := none }
      (loginAs cfg ctx s name req sessionID).2 := by
  obtain ⟨hnow, hfailures, hlocks⟩ := ht
  simp only [loginAs, hlocked, hcaptcha, hfind, hfactor, ServerState.createSession,
    clearLoginFailures, hcache.clearFailures]
  cases ctx.fails .storeSession <;>
    exact ⟨hnow, congrArg (delete · _) hfailures, congrArg (delete · _) hlocks⟩

/-- **The refinement.** A request that runs without others takes the steps, and leaves the counters
and locks that the handler leaves. -/
theorem loginAs_eq_run (hcache : CacheAnswers ctx) (ht : t.Shows s) (hidle : t.request = none)
    (sessionID : String) :
    ∃ t', run (sequenceStep cfg) t (loginSteps cfg ctx s name req) = some t' ∧
      t'.request = none ∧ t'.Shows (loginAs cfg ctx s name req sessionID).2 := by
  rw [loginSteps, run_cons, login_eq_accountLocked hcache ht hidle, Option.bind_some]
  cases hlocked : accountLocked ctx s req.username with
  | true => exact ⟨t, rfl, hidle, by simpa [loginAs, hlocked] using ht⟩
  | false =>
      simp only [Bool.false_eq_true, if_false]
      have hcompare (outcome : PasswordOutcome) :
          sequenceStep cfg { t with request := some (req.username, .comparing) }
            (.password outcome) = some { t with request := outcome.next req.username } := rfl
      have hfails (request : String × LoginStage) (hrequest : request = (req.username, .counting)) :
          ∃ t', run (sequenceStep cfg) { t with request := some request }
              (failureSteps cfg s req) = some t' ∧ t'.request = none ∧
            t'.Shows (recordLoginFailure cfg ctx s req.username) :=
        recordLoginFailure_eq_steps hcache ⟨ht.now, ht.loginFailures, ht.loginLocks⟩
          (congrArg some hrequest)
      cases hcaptcha : ctx.captchaOK with
      | false =>
          exact ⟨{ t with request := none }, rfl, rfl, by
            simpa [loginAs, hlocked, hcaptcha] using ⟨ht.now, ht.loginFailures, ht.loginLocks⟩⟩
      | true =>
          cases hfind : findByPassword cfg ctx s name req.password with
          | error counted =>
              cases counted with
              | false =>
                  exact ⟨{ t with request := none }, rfl, rfl, by
                    simpa [loginAs, hlocked, hcaptcha, hfind] using
                      ⟨ht.now, ht.loginFailures, ht.loginLocks⟩⟩
              | true =>
                  have hnext : (failedOutcome ctx s { req with username := name }).next
                      req.username = some (req.username, .counting) := by
                    rw [failedOutcome]
                    split <;> rfl
                  simp only [Bool.not_true, Bool.false_eq_true, if_false, run_cons, hcompare,
                    Option.bind_some, hnext, loginAs, hlocked, hcaptcha, hfind, if_true]
                  exact hfails _ rfl
          | ok user =>
              cases hfactor : passesMFA ctx s user req.mfaCode with
              | false =>
                  have henabled : user.mfaEnabled = true := by
                    by_contra hoff
                    simp [passesMFA, hoff] at hfactor
                  simp only [Bool.not_true, Bool.not_false, Bool.false_eq_true, if_false, run_cons,
                    hcompare, Option.bind_some, henabled, loginAs, hlocked, hcaptcha, hfind,
                    hfactor, if_true]
                  exact hfails _ rfl
              | true =>
                  have hpass := shows_of_pass hcache ht hlocked hcaptcha hfind hfactor sessionID
                  refine ⟨_, ?_, rfl, hpass⟩
                  cases henabled : user.mfaEnabled <;>
                    simp [hfactor, henabled, PasswordOutcome.next, sequenceStep]

end Handler

/-! ### What a step does -/

/-- What a step does. -/
inductive Moves (cfg : AccountConfig) : SequenceState → SequenceAction → SequenceState → Prop
  | refused {s username} : s.request = none → Locked s username →
      Moves cfg s (.login username) s
  | admitted {s username} : s.request = none → ¬ Locked s username →
      Moves cfg s (.login username) { s with request := some (username, .comparing) }
  | password {s username outcome} : s.request = some (username, .comparing) →
      Moves cfg s (.password outcome) { s with request := outcome.next username }
  | code {s username valid} : s.request = some (username, .factor) →
      Moves cfg s (.code valid)
        { s with request := some (username, if valid then .clearing else .counting) }
  | disabled {s username} : s.request = some (username, .counting) → cfg.maxAttempts ≤ 0 →
      Moves cfg s .count { s with request := none }
  | few {s username} : s.request = some (username, .counting) →
      ((countedFailure cfg s username).1 : Int) < cfg.maxAttempts →
      Moves cfg s .count
        { s with loginFailures := (countedFailure cfg s username).2, request := none }
  | full {s username} : s.request = some (username, .counting) → 0 < cfg.maxAttempts →
      cfg.maxAttempts ≤ (countedFailure cfg s username).1 →
      Moves cfg s .count
        { s with
          loginFailures := (countedFailure cfg s username).2
          request := some (username, .locking) }
  | lock {s username} : s.request = some (username, .locking) →
      Moves cfg s .lock
        { s with
          loginLocks := set s.loginLocks s.now username () cfg.duration
          request := none }
  | clear {s username} : s.request = some (username, .clearing) →
      Moves cfg s .clear
        { s with
          loginFailures := delete s.loginFailures username
          loginLocks := delete s.loginLocks username
          request := none }
  | tick {s} (d : Nat) : Moves cfg s (.tick d) { s with now := s.now + d }

variable {cfg : AccountConfig} {s s' t t' : SequenceState} {a : SequenceAction}
  {username : String}

/-- The step function moves like that. -/
theorem moves_of_step (h : sequenceStep cfg s a = some s') : Moves cfg s a s' := by
  cases a with
  | login username =>
      rw [sequenceStep] at h
      split at h
      · cases h
      · next hidle =>
          have hnone : s.request = none := Option.not_isSome_iff_eq_none.mp hidle
          split at h
          · next hlocked =>
              obtain ⟨u, hu⟩ := Option.isSome_iff_exists.mp hlocked
              exact Option.some.inj h ▸ .refused hnone hu
          · next hfree =>
              refine Option.some.inj h ▸ .admitted hnone fun hlocked => hfree ?_
              rw [show get s.loginLocks s.now username = some () from hlocked]
              rfl
  | password outcome =>
      rw [sequenceStep] at h
      split at h
      · next hrequest => exact Option.some.inj h ▸ .password hrequest
      · cases h
  | code valid =>
      rw [sequenceStep] at h
      split at h
      · next hrequest => exact Option.some.inj h ▸ .code hrequest
      · cases h
  | count =>
      rw [sequenceStep] at h
      split at h
      · next hrequest =>
          split at h
          · next hoff => exact Option.some.inj h ▸ .disabled hrequest hoff
          · next hon =>
              obtain rfl := Option.some.inj h
              split
              · next hfew => exact .few hrequest hfew
              · next hfull => exact .full hrequest (by omega) (by omega)
      · cases h
  | lock =>
      rw [sequenceStep] at h
      split at h
      · next hrequest => exact Option.some.inj h ▸ .lock hrequest
      · cases h
  | clear =>
      rw [sequenceStep] at h
      split at h
      · next hrequest => exact Option.some.inj h ▸ .clear hrequest
      · cases h
  | tick d => exact Option.some.inj h ▸ .tick d

/-- The clock does not go back. -/
theorem now_le_of_step (h : sequenceStep cfg s a = some s') : s.now ≤ s'.now := by
  cases moves_of_step h with
  | tick d => exact Int.le_add_of_nonneg_right (Int.natCast_nonneg d)
  | _ => exact le_rfl

/-- The clock does not go back along a run. -/
theorem now_le_of_run {as : List SequenceAction} (h : run (sequenceStep cfg) s as = some s') :
    s.now ≤ s'.now :=
  run_invariant (P := fun t => s.now ≤ t.now)
    (fun _ _ _ hle hstep => hle.trans (now_le_of_step hstep))
    le_rfl h

/-! ### Other user names -/

/-- The user name of the request under way. -/
theorem requester_of_request {u : String} {stage : LoginStage}
    (hrequest : s.request = some (u, stage)) : s.requester = some u := by
  rw [SequenceState.requester, hrequest]
  rfl

/-- Another user name than that of the request. -/
theorem ne_of_requester_ne {u : String} {stage : LoginStage}
    (hrequest : s.request = some (u, stage)) (h : s.requester ≠ some username) : username ≠ u := by
  rintro rfl
  exact h (requester_of_request hrequest)

/-- A step leaves the counter and the lock of every user name but that of the request under way. -/
theorem entries_of_requester_ne (h : sequenceStep cfg s a = some s')
    (hrequester : s.requester ≠ some username) :
    s'.loginFailures username = s.loginFailures username ∧
      s'.loginLocks username = s.loginLocks username := by
  cases moves_of_step h with
  | few hrequest hfew => exact ⟨increment_of_ne (ne_of_requester_ne hrequest hrequester), rfl⟩
  | full hrequest hon hfull =>
      exact ⟨increment_of_ne (ne_of_requester_ne hrequest hrequester), rfl⟩
  | lock hrequest =>
      exact ⟨rfl, Function.update_of_ne (ne_of_requester_ne hrequest hrequester) ..⟩
  | clear hrequest =>
      have hne := ne_of_requester_ne hrequest hrequester
      exact ⟨Function.update_of_ne hne .., Function.update_of_ne hne ..⟩
  | _ => exact ⟨rfl, rfl⟩

/-- **Other user names.** A step leaves the counter and the lock of every user name but that of
its request. -/
theorem sequenceStep_other (h : sequenceStep cfg s a = some s')
    (hactor : s.actor a ≠ some username) :
    s'.loginFailures username = s.loginFailures username ∧
      s'.loginLocks username = s.loginLocks username := by
  cases a with
  | login u => cases moves_of_step h <;> exact ⟨rfl, rfl⟩
  | tick d =>
      cases moves_of_step h
      exact ⟨rfl, rfl⟩
  | _ => exact entries_of_requester_ne h hactor

/-! ### Locked user names -/

/-- The user name of the request under way is not locked. -/
def RequestUnlocked (s : SequenceState) : Prop :=
  ∀ username stage, s.request = some (username, stage) → ¬ Locked s username

/-- A request that is under way after a step was under way before it, or has just got past the
lookup; and no lock was touched. -/
theorem request_of_step {stage : LoginStage} (h : sequenceStep cfg s a = some s')
    (hrequest' : s'.request = some (username, stage)) :
    s'.loginLocks = s.loginLocks ∧ (a = .login username ∧ ¬ Locked s username ∨
      ∃ stage', s.request = some (username, stage')) := by
  cases moves_of_step h with
  | refused hrequest hlocked => exact ⟨rfl, Or.inr ⟨stage, hrequest'⟩⟩
  | admitted hrequest hfree =>
      obtain ⟨rfl, -⟩ := Prod.mk.inj (Option.some.inj hrequest')
      exact ⟨rfl, Or.inl ⟨rfl, hfree⟩⟩
  | @password u outcome hrequest =>
      have huser : u = username := by
        cases outcome with
        | right enabled => cases enabled <;> simp [PasswordOutcome.next] at hrequest' <;> simp_all
        | _ => simp [PasswordOutcome.next] at hrequest' <;> simp_all
      exact ⟨rfl, Or.inr ⟨_, huser ▸ hrequest⟩⟩
  | code hrequest =>
      obtain ⟨rfl, -⟩ := Prod.mk.inj (Option.some.inj hrequest')
      exact ⟨rfl, Or.inr ⟨_, hrequest⟩⟩
  | disabled hrequest hoff => cases hrequest'
  | few hrequest hfew => cases hrequest'
  | full hrequest hon hfull =>
      obtain ⟨rfl, -⟩ := Prod.mk.inj (Option.some.inj hrequest')
      exact ⟨rfl, Or.inr ⟨_, hrequest⟩⟩
  | lock hrequest => cases hrequest'
  | clear hrequest => cases hrequest'
  | tick d => exact ⟨rfl, Or.inr ⟨stage, hrequest'⟩⟩

/-- A request gets past the lookup when its user name is not locked, and nobody else locks it. -/
theorem RequestUnlocked.step (h : RequestUnlocked s) (hstep : sequenceStep cfg s a = some s') :
    RequestUnlocked s' := by
  intro username stage hrequest' hlocked'
  obtain ⟨hlocks, hbefore⟩ := request_of_step hstep hrequest'
  rw [Locked, hlocks] at hlocked'
  have hlocked : Locked s username := get_of_le (now_le_of_step hstep) hlocked'
  rcases hbefore with ⟨-, hfree⟩ | ⟨stage', hrequest⟩
  · exact hfree hlocked
  · exact h username stage' hrequest hlocked

/-- **A locked user name.** None of its requests is past the lookup, and the lookup refuses the
next one, which leaves everything as it is. -/
theorem refused_of_locked {now : Int} {as : List SequenceAction}
    (hrun : run (sequenceStep cfg) (.start now) as = some s) (hlocked : Locked s username) :
    (∀ stage, s.request ≠ some (username, stage)) ∧
      ∀ s', sequenceStep cfg s (.login username) = some s' → s' = s := by
  have hunlocked : RequestUnlocked s :=
    run_invariant (fun _ _ _ h hstep => h.step hstep)
      (fun _ _ h => by simp [SequenceState.start] at h) hrun
  refine ⟨fun stage hrequest => hunlocked username stage hrequest hlocked, fun s' hstep => ?_⟩
  cases moves_of_step hstep with
  | refused hrequest hlocked => rfl
  | admitted hrequest hfree => exact absurd hlocked hfree

/-! ### One lifetime of a counter -/

/-- Before a lock: the counter, which lives up to the deadline, holds the failed attempts so far,
but for the one that is about to be counted; a request is about to write the lock when the
counter is full. -/
def FailedSoFar (cfg : AccountConfig) (username : String) (deadline : Int) (attempts : Nat)
    (s : SequenceState) : Prop :=
  ∃ n : Nat, s.loginFailures username = some ⟨n, some deadline⟩ ∧
    ((s.request = some (username, .counting) ∧ attempts = n + 1 ∧ (n : Int) < cfg.maxAttempts) ∨
      (s.request = some (username, .locking) ∧ attempts = n ∧ (n : Int) = cfg.maxAttempts) ∨
      (s.request ≠ some (username, .counting) ∧ s.request ≠ some (username, .locking) ∧
        attempts = n ∧ (n : Int) < cfg.maxAttempts))

/-- They are at most `MaxAttempts`. -/
theorem FailedSoFar.le {deadline : Int} {attempts : Nat}
    (h : FailedSoFar cfg username deadline attempts s) : (attempts : Int) ≤ cfg.maxAttempts := by
  obtain ⟨n, -, h⟩ := h
  omega

/-- The step removes the counter of the user name, or locks it. -/
def EndsCount (username : String) (s : SequenceState) (a : SequenceAction) : Prop :=
  (a = .lock ∨ a = .clear) ∧ s.requester = some username

/-- A counter in its lifetime counts one more. -/
theorem countedFailure_of_held {n : Nat} {deadline : Int}
    (hentry : s.loginFailures username = some ⟨n, some deadline⟩) (hlife : s.now ≤ deadline) :
    countedFailure cfg s username =
      (n + 1, Function.update s.loginFailures username (some ⟨n + 1, some deadline⟩)) :=
  increment_of_held hentry (by simpa [Entry.expired] using hlife)

/-- The requests of other user names do not fail an attempt of this one. -/
theorem failsAttempt_of_ne (h : s.requester ≠ some username) :
    FailsAttempt s username a = false := by
  rw [FailsAttempt.eq_def]
  split <;> simp [h]

/-- The requests of other user names do not count. -/
theorem FailedSoFar.step_of_ne {deadline : Int} {attempts : Nat}
    (h : FailedSoFar cfg username deadline attempts s) (hrequester : s.requester ≠ some username)
    (hstep : sequenceStep cfg s a = some s') : FailedSoFar cfg username deadline attempts s' := by
  have hnone : ∀ stage, s.request ≠ some (username, stage) := fun _ hrequest =>
    hrequester (requester_of_request hrequest)
  have hnew : ∀ stage, s'.request = some (username, stage) → stage = .comparing := by
    intro stage hrequest'
    rcases (request_of_step hstep hrequest').2 with ⟨rfl, -⟩ | ⟨stage', hrequest⟩
    · cases moves_of_step hstep with
      | refused => exact absurd hrequest' (hnone stage)
      | admitted => exact (Prod.mk.inj (Option.some.inj hrequest')).2.symm
    · exact absurd hrequest (hnone stage')
  obtain ⟨n, hn, hcount⟩ := h
  refine ⟨n, (entries_of_requester_ne hstep hrequester).1.trans hn, Or.inr (Or.inr ⟨?_, ?_, ?_⟩)⟩
  · exact fun hcounting => by simpa using hnew _ hcounting
  · exact fun hlocking => by simpa using hnew _ hlocking
  · simpa [hnone] using hcount

/-- **One step in the lifetime.** As long as the counter lives and is neither removed nor followed
by a lock, it holds the failed attempts. -/
theorem FailedSoFar.step {deadline : Int} {attempts : Nat}
    (h : FailedSoFar cfg username deadline attempts s) (hlife : s.now ≤ deadline)
    (hgoes : ¬ EndsCount username s a) (hstep : sequenceStep cfg s a = some s') :
    FailedSoFar cfg username deadline (attempts + if FailsAttempt s username a then 1 else 0)
      s' := by
  by_cases hrequester : s.requester = some username
  case neg =>
    rw [failsAttempt_of_ne hrequester]
    exact h.step_of_ne hrequester hstep
  have hown {u : String} {stage : LoginStage} (hrequest : s.request = some (u, stage)) :
      u = username := Option.some.inj ((requester_of_request hrequest).symm.trans hrequester)
  obtain ⟨n, hn, hcount⟩ := h
  cases moves_of_step hstep with
  | refused hrequest => simp [SequenceState.requester, hrequest] at hrequester
  | admitted hrequest => simp [SequenceState.requester, hrequest] at hrequester
  | @password u outcome hrequest =>
      obtain rfl := hown hrequest
      have hopen : attempts = n ∧ (n : Int) < cfg.maxAttempts := by simpa [hrequest] using hcount
      refine ⟨n, hn, ?_⟩
      cases outcome with
      | right enabled => cases enabled <;> simpa [FailsAttempt, PasswordOutcome.next] using hopen
      | _ => simpa [FailsAttempt, PasswordOutcome.next, hrequester] using hopen
  | @code u valid hrequest =>
      obtain rfl := hown hrequest
      have hopen : attempts = n ∧ (n : Int) < cfg.maxAttempts := by simpa [hrequest] using hcount
      refine ⟨n, hn, ?_⟩
      cases valid <;> simpa [FailsAttempt, hrequester] using hopen
  | disabled hrequest hoff =>
      obtain rfl := hown hrequest
      have hopen : attempts = n + 1 ∧ (n : Int) < cfg.maxAttempts := by
        simpa [hrequest] using hcount
      omega
  | few hrequest hfew =>
      obtain rfl := hown hrequest
      have hopen : attempts = n + 1 ∧ (n : Int) < cfg.maxAttempts := by
        simpa [hrequest] using hcount
      rw [countedFailure_of_held hn hlife] at hfew ⊢
      refine ⟨n + 1, Function.update_self .., Or.inr (Or.inr ⟨by simp, by simp, ?_, hfew⟩)⟩
      simpa [FailsAttempt] using hopen.1
  | full hrequest hon hfull =>
      obtain rfl := hown hrequest
      have hopen : attempts = n + 1 ∧ (n : Int) < cfg.maxAttempts := by
        simpa [hrequest] using hcount
      rw [countedFailure_of_held hn hlife] at hfull ⊢
      refine ⟨n + 1, Function.update_self .., Or.inr (Or.inl ⟨rfl, ?_, ?_⟩)⟩
      · simpa [FailsAttempt] using hopen.1
      · omega
  | lock => exact absurd ⟨Or.inl rfl, hrequester⟩ hgoes
  | clear => exact absurd ⟨Or.inr rfl, hrequester⟩ hgoes
  | tick d => exact ⟨n, hn, hcount⟩

/-- A failure that finds no counter starts one. -/
theorem failedSoFar_of_new (hm : 0 < cfg.maxAttempts) (hw : 0 < cfg.window)
    (hrequest : s.request = some (username, .counting))
    (hnew : get s.loginFailures s.now username = none)
    (hstep : sequenceStep cfg s .count = some s') :
    FailedSoFar cfg username (s.now + cfg.window) 1 s' := by
  have hcounted : countedFailure cfg s username =
      (1, PartialMap.set s.loginFailures s.now username 1 cfg.window) := by
    rw [countedFailure]
    cases hentry : s.loginFailures username with
    | none => exact increment_of_none hentry
    | some e =>
        cases hexpired : e.expired s.now with
        | true => exact increment_of_expired hentry hexpired
        | false =>
            have := get_eq_some_iff.mpr ⟨e, hentry, rfl, hexpired⟩
            rw [hnew] at this
            cases this
  have hentry : (PartialMap.set s.loginFailures s.now username 1 cfg.window) username =
      some ⟨1, some (s.now + cfg.window)⟩ := by simp [PartialMap.set, hw]
  cases moves_of_step hstep with
  | disabled hown hoff => omega
  | few hown hfew =>
      obtain ⟨rfl, -⟩ := Prod.mk.inj (Option.some.inj (hrequest.symm.trans hown))
      rw [hcounted] at hfew ⊢
      exact ⟨1, hentry, Or.inr (Or.inr ⟨by simp, by simp, rfl, hfew⟩)⟩
  | full hown hon hfull =>
      obtain ⟨rfl, -⟩ := Prod.mk.inj (Option.some.inj (hrequest.symm.trans hown))
      rw [hcounted] at hfull ⊢
      exact ⟨1, hentry, Or.inr (Or.inl ⟨rfl, rfl, by omega⟩)⟩

/-- **One lifetime of a counter.** From the failure that starts it until it expires or is removed,
at most `MaxAttempts` attempts fail before a lock is written. -/
theorem failures_bounded (hm : 0 < cfg.maxAttempts) (hw : 0 < cfg.window)
    {as : List SequenceAction} (hrequest : s.request = some (username, .counting))
    (hnew : get s.loginFailures s.now username = none)
    (hrun : run (sequenceStep cfg) s (.count :: as) = some s')
    (hlife : s'.now ≤ s.now + cfg.window)
    (hguard : Guarded (sequenceStep cfg) (fun t a => ¬ EndsCount username t a) s (.count :: as)) :
    ((1 + tally (sequenceStep cfg) (fun t => FailsAttempt t username) s (.count :: as) : Nat) :
        Int) ≤
      cfg.maxAttempts := by
  obtain ⟨t, ht, hrest⟩ := (run_cons_eq_some _).mp hrun
  have hclock : Guarded (sequenceStep cfg) (fun t _ => t.now ≤ s'.now) t as :=
    guarded_of_run (R := fun t t' => t.now ≤ t'.now) (fun _ _ _ => now_le_of_run) hrest
  have hafter : FailedSoFar cfg username (s.now + cfg.window)
      (1 + tally (sequenceStep cfg) (fun t => FailsAttempt t username) t as) s' :=
    guarded_run_tally (fun _ _ _ _ h hg hstep => h.step (hg.2.trans hlife) hg.1 hstep)
      (failedSoFar_of_new hm hw hrequest hnew ht) ((hguard.2 t ht).and hclock) hrest
  rw [tally_cons ht]
  simpa [FailsAttempt] using hafter.le

/-! ### After a full counter -/

/-- The lock was written at a time, and until it expires the user name has no request past the
lookup. -/
def LockedSince (cfg : AccountConfig) (username : String) (T : Int) (s : SequenceState) : Prop :=
  s.now ≤ T + cfg.duration → s.loginLocks username = some ⟨(), some (T + cfg.duration)⟩ ∧
    ∀ stage, s.request ≠ some (username, stage)

/-- A lock in its lifetime is in force. -/
theorem LockedSince.locked {T : Int} (h : LockedSince cfg username T s)
    (hlife : s.now ≤ T + cfg.duration) : Locked s username :=
  get_eq_some_iff.mpr ⟨_, (h hlife).1, rfl, by simpa [Entry.expired] using hlife⟩

/-- The lock that is written now. -/
theorem lockedSince_of_lock (hd : 0 < cfg.duration)
    (hrequest : s.request = some (username, .locking))
    (hstep : sequenceStep cfg s .lock = some s') : LockedSince cfg username s.now s' := by
  cases moves_of_step hstep with
  | lock hown =>
      obtain ⟨rfl, -⟩ := Prod.mk.inj (Option.some.inj (hrequest.symm.trans hown))
      exact fun _ => ⟨by simp [PartialMap.set, hd], by simp⟩

/-- **One step after the lock.** The user name stays locked until the lock expires. -/
theorem LockedSince.step {T : Int} (h : LockedSince cfg username T s)
    (hstep : sequenceStep cfg s a = some s') : LockedSince cfg username T s' := by
  intro hlife'
  have hlife : s.now ≤ T + cfg.duration := (now_le_of_step hstep).trans hlife'
  obtain ⟨hentry, hnone⟩ := h hlife
  have hrequester : s.requester ≠ some username := by
    intro hown
    obtain ⟨⟨u, stage⟩, hrequest, rfl⟩ := Option.map_eq_some_iff.mp hown
    exact hnone stage hrequest
  refine ⟨(entries_of_requester_ne hstep hrequester).2.trans hentry, fun stage hrequest' => ?_⟩
  rcases (request_of_step hstep hrequest').2 with ⟨-, hfree⟩ | ⟨stage', hrequest⟩
  · exact hfree (h.locked hlife)
  · exact hnone stage' hrequest

/-- The steps are the passing of time. -/
def OnlyTicks (as : List SequenceAction) : Prop := ∀ a ∈ as, ∃ d, a = .tick d

/-- What has happened since a failure made the counter full: only time has passed, or the lock was
written at some time after it. -/
def AfterFull (cfg : AccountConfig) (username : String) (t : SequenceState)
    (as : List SequenceAction) (s : SequenceState) : Prop :=
  (OnlyTicks as ∧ s.request = some (username, .locking)) ∨
    ∃ before after q, as = before ++ .lock :: after ∧ OnlyTicks before ∧
      run (sequenceStep cfg) t before = some q ∧ LockedSince cfg username q.now s

/-- **One step after a full counter.** -/
theorem AfterFull.step (hd : 0 < cfg.duration) {as : List SequenceAction}
    (hrun : run (sequenceStep cfg) t as = some s) (h : AfterFull cfg username t as s)
    (hstep : sequenceStep cfg s a = some s') : AfterFull cfg username t (as ++ [a]) s' := by
  rcases h with ⟨hticks, hrequest⟩ | ⟨before, after, q, rfl, hticks, hbefore, hlocked⟩
  · cases moves_of_step hstep with
    | tick d =>
        refine Or.inl ⟨fun b hb => ?_, hrequest⟩
        rcases List.mem_append.mp hb with hb | hb
        · exact hticks b hb
        · exact ⟨d, List.mem_singleton.mp hb⟩
    | lock hown =>
        exact Or.inr ⟨as, [], s, rfl, hticks, hrun, lockedSince_of_lock hd hrequest hstep⟩
    | _ => simp_all
  · exact Or.inr ⟨before, after ++ [a], q, by simp, hticks, hbefore, hlocked.step hstep⟩

/-- **After a full counter.** A failed attempt that fills the counter is followed by the lock, and
no request of the user name gets past the lookup until `Duration` has passed since. -/
theorem locked_for_duration (hm : 0 < cfg.maxAttempts) (hd : 0 < cfg.duration)
    {as : List SequenceAction} {stage : LoginStage}
    (hrequest : s.request = some (username, .counting))
    (hcount : sequenceStep cfg s .count = some t)
    (hfull : cfg.maxAttempts ≤ counter t.loginFailures t.now username)
    (hrun : run (sequenceStep cfg) t as = some s')
    (hpast : s'.request = some (username, stage)) (hstage : stage ≠ .locking) :
    ∃ before after q, as = before ++ .lock :: after ∧ OnlyTicks before ∧
      run (sequenceStep cfg) t before = some q ∧ q.now + cfg.duration < s'.now := by
  have hlocking : t.request = some (username, .locking) := by
    cases moves_of_step hcount with
    | disabled hown hoff => omega
    | few hown hfew =>
        obtain ⟨rfl, -⟩ := Prod.mk.inj (Option.some.inj (hrequest.symm.trans hown))
        obtain ⟨hfst, hsnd⟩ := increment_spec s.loginFailures s.now username cfg.window
        rw [countedFailure] at hfew hfull
        dsimp only at hfull
        omega
    | full hown hon hfull =>
        obtain ⟨rfl, -⟩ := Prod.mk.inj (Option.some.inj (hrequest.symm.trans hown))
        rfl
  have hafter : AfterFull cfg username t as s' :=
    trace_invariant (P := AfterFull cfg username t) (Or.inl ⟨by simp [OnlyTicks], hlocking⟩)
      (fun _ _ _ _ hrun h hstep => h.step hd hrun hstep) hrun
  rcases hafter with ⟨-, hrequest'⟩ | ⟨before, after, q, hsplit, hticks, hbefore, hlocked⟩
  · obtain ⟨-, rfl⟩ := Prod.mk.inj (Option.some.inj (hpast.symm.trans hrequest'))
    exact absurd rfl hstage
  · refine ⟨before, after, q, hsplit, hticks, hbefore, ?_⟩
    by_contra hlife
    exact (hlocked (by omega)).2 stage hpast

/-- **The lockout, one request at a time.** Along every run from an empty cache: a locked user name
has no request past the lookup, and its next one is refused and changes nothing; from the failure
that starts a counter until it expires or is removed, at most `MaxAttempts` attempts fail before a
lock is written; a failure that fills the counter is followed by the lock, and no request of the
user name gets past the lookup until `Duration` has passed since; and the requests of other user
names leave the counter and the lock. -/
theorem sequential_lockout {now : Int} {as : List SequenceAction} (hm : 0 < cfg.maxAttempts)
    (hw : 0 < cfg.window) (hd : 0 < cfg.duration)
    (hrun : run (sequenceStep cfg) (.start now) as = some s) (username : String) :
    (Locked s username → (∀ stage, s.request ≠ some (username, stage)) ∧
      ∀ s', sequenceStep cfg s (.login username) = some s' → s' = s) ∧
    (∀ bs s', s.request = some (username, .counting) →
      get s.loginFailures s.now username = none →
      run (sequenceStep cfg) s (.count :: bs) = some s' → s'.now ≤ s.now + cfg.window →
      Guarded (sequenceStep cfg) (fun t a => ¬ EndsCount username t a) s (.count :: bs) →
      ((1 + tally (sequenceStep cfg) (fun t => FailsAttempt t username) s (.count :: bs) : Nat) :
        Int) ≤ cfg.maxAttempts) ∧
    (∀ t bs s' stage, s.request = some (username, .counting) →
      sequenceStep cfg s .count = some t →
      cfg.maxAttempts ≤ counter t.loginFailures t.now username →
      run (sequenceStep cfg) t bs = some s' → s'.request = some (username, stage) →
      stage ≠ .locking →
      ∃ before after q, bs = before ++ .lock :: after ∧ OnlyTicks before ∧
        run (sequenceStep cfg) t before = some q ∧ q.now + cfg.duration < s'.now) ∧
    (∀ a s', sequenceStep cfg s a = some s' → s.actor a ≠ some username →
      s'.loginFailures username = s.loginFailures username ∧
        s'.loginLocks username = s.loginLocks username) :=
  ⟨fun hlocked => refused_of_locked hrun hlocked,
    fun _ _ hrequest hnew hrest hlife hguard =>
      failures_bounded hm hw hrequest hnew hrest hlife hguard,
    fun _ _ _ _ hrequest hcount hfull hrest hpast hstage =>
      locked_for_duration hm hd hrequest hcount hfull hrest hpast hstage,
    fun _ _ hstep hactor => sequenceStep_other hstep hactor⟩

/-- Five failed attempts one after the other, with the lock of the last one. -/
def fiveFailures : List SequenceAction :=
  (List.replicate 5 [.login "alice", .password .wrong, .count]).flatten ++ [.lock]

/-- After five failed attempts the next login is refused. -/
theorem sequential_lockout_example :
    ∃ s, run (sequenceStep exampleAccounts) (.start 0) fiveFailures = some s ∧
      Locked s "alice" ∧
      ∀ s', sequenceStep exampleAccounts s (.login "alice") = some s' → s' = s := by
  have hlocks : (run (sequenceStep exampleAccounts) (.start 0) fiveFailures).map
      (fun s => get s.loginLocks s.now "alice") = some (some ()) := by decide +kernel
  obtain ⟨s, hrun, hlocked⟩ := Option.map_eq_some_iff.mp hlocks
  exact ⟨s, hrun, hlocked,
    ((sequential_lockout (by decide) (by decide) (by decide) hrun "alice").1 hlocked).2⟩

end IdpForge
