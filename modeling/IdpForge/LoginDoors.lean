import IdpForge.AccountSteps

/-!
# The Two Login Doors

`handleLogin` and `handleExternalLogin` check the same user name and password, but only the
first looks at the lock, asks for the second factor and counts failures. For every state and
request, this module says when the two nevertheless decide alike and leave the counter and
the lock of the user name alike.

## Main results

* `doors_agree_iff`: the exact condition.
* `doors_disagree_on_locked`: the external door accepts a locked user name.
-/

open PartialMap

namespace IdpForge

/-- The user name has a password, which can be read, and the request carries it. -/
def PasswordFits (cfg : AccountConfig) (ctx : RequestContext) (s : ServerState)
    (req : LoginRequest) : Prop :=
  ∃ hash, passwordHash ctx.fails s.users req.username = some hash ∧ hash ≠ "" ∧
    cfg.verifyPassword hash req.password = true

/-- The counter and the lock of a user name are the same in the two states. -/
def SameLockout (username : String) (s s' : ServerState) : Prop :=
  s'.loginFailures username = s.loginFailures username ∧
    s'.loginLocks username = s.loginLocks username

/-- The two doors agree on a request: both accept it or both reject it, and when they reject
it they leave the same counter and the same lock. `handleExternalLogin` writes nothing, so the
state it leaves is `s` itself. -/
def DoorsAgree (cfg : AccountConfig) (ctx : RequestContext) (s : ServerState)
    (req : LoginRequest) (sessionID : String) : Prop :=
  ((∃ user, handleExternalLogin cfg ctx s (some req) = .ok user) ↔
      ∃ resp, (handleLogin cfg ctx s (some req) sessionID).1 = .ok resp) ∧
    ((∃ e, handleExternalLogin cfg ctx s (some req) = .error e) →
      (∃ e, (handleLogin cfg ctx s (some req) sessionID).1 = .error e) →
        SameLockout req.username s (handleLogin cfg ctx s (some req) sessionID).2)

/-- With the right password nothing but the password matters, and with a wrong one nothing is
counted. -/
structure NothingElseMatters (cfg : AccountConfig) (ctx : RequestContext) (s : ServerState)
    (req : LoginRequest) : Prop where
  right : ∀ user, Presents cfg ctx s req user → accountLocked ctx s req.username = false ∧
    passesMFA ctx s user req.mfaCode = true ∧ ctx.fails .storeSession = false
  wrong : ¬ PasswordFits cfg ctx s req → accountLocked ctx s req.username = true ∨
    cfg.maxAttempts ≤ 0 ∨ ctx.fails .increment = true

section

variable {cfg : AccountConfig} {ctx : RequestContext} {s : ServerState} {req : LoginRequest}

/-- An attempt is counted when its password does not fit. -/
theorem findByPassword_counted_iff :
    findByPassword cfg ctx s req.username req.password = .error true ↔
      ¬ PasswordFits cfg ctx s req := by
  rw [findByPassword.eq_def, PasswordFits]
  cases passwordHash ctx.fails s.users req.username with
  | none => simp
  | some hash =>
      dsimp only
      split
      · next hfits => simpa [imp_iff_not_or] using hfits
      · next hfits =>
          have hfits' : hash ≠ "" ∧ cfg.verifyPassword hash req.password = true := by
            simpa using hfits
          split <;> simp [hfits']

/-- Counting a failure leaves the counter alone only when lockout is off or the counter cannot
be written. -/
theorem sameLockout_recordLoginFailure_iff (username : String) :
    SameLockout username s (recordLoginFailure cfg ctx s username) ↔
      cfg.maxAttempts ≤ 0 ∨ ctx.fails .increment = true := by
  rw [recordLoginFailure.eq_def]
  split
  · next hoff => simpa [SameLockout] using hoff
  · next hon =>
      have hon' : ¬ (cfg.maxAttempts ≤ 0 ∨ ctx.fails .increment = true) := by simpa using hon
      refine ⟨fun h => absurd h.1 ?_, fun h => absurd h hon'⟩
      dsimp only
      split <;> exact increment_ne

/-- `handleExternalLogin` accepts the right password. -/
theorem handleExternalLogin_ok_iff :
    (∃ user, handleExternalLogin cfg ctx s (some req) = .ok user) ↔
      ∃ user, Presents cfg ctx s req user := by
  constructor
  · rintro ⟨user, h⟩
    refine ⟨user, findByPassword_eq_ok ?_⟩
    rw [handleExternalLogin] at h
    cases hfind : findByPassword cfg ctx s req.username req.password with
    | error counted => simp [hfind, newError] at h
    | ok found =>
        simp only [hfind] at h
        rw [Except.ok.inj h]
  · rintro ⟨user, h⟩
    exact ⟨user, by simp [handleExternalLogin, h.findByPassword]⟩

/-- `handleLogin` accepts what `Admits` says. -/
theorem handleLogin_ok_iff (sessionID : String) :
    (∃ resp, (handleLogin cfg ctx s (some req) sessionID).1 = .ok resp) ↔
      ∃ user, Admits cfg ctx s req user := by
  constructor
  · rintro ⟨resp, h⟩
    rcases @handleLogin_spec cfg ctx s (some req) sessionID with
      ⟨e, he, -⟩ | ⟨req', user, changeRequired, s', hreq, hadmits, -⟩
    · simp [he] at h
    · obtain rfl := Option.some.inj hreq
      exact ⟨user, hadmits⟩
  · rintro ⟨user, h⟩
    obtain ⟨resp, s', hlogin, -⟩ := h.handleLogin sessionID
    exact ⟨resp, by rw [hlogin]⟩

/-- A login without a fitting password is refused, and counted unless the user name is
locked. -/
theorem handleLogin_of_not_fits (hcaptcha : ctx.captchaOK = true)
    (h : ¬ PasswordFits cfg ctx s req) (sessionID : String) :
    (handleLogin cfg ctx s (some req) sessionID).2 =
      if accountLocked ctx s req.username then s
      else recordLoginFailure cfg ctx s req.username := by
  rw [handleLogin]
  split
  · rfl
  · simp [hcaptcha, findByPassword_counted_iff.mpr h]

/-- A login whose password fits but whose row cannot be read changes nothing. -/
theorem handleLogin_of_unreadable (hcaptcha : ctx.captchaOK = true)
    (hfits : PasswordFits cfg ctx s req) (h : ∀ user, ¬ Presents cfg ctx s req user)
    (sessionID : String) : (handleLogin cfg ctx s (some req) sessionID).2 = s := by
  rw [handleLogin]
  split
  · rfl
  · cases hfind : findByPassword cfg ctx s req.username req.password with
    | ok user => exact absurd (findByPassword_eq_ok hfind) (h user)
    | error counted =>
        cases counted with
        | true => exact absurd hfits (findByPassword_counted_iff.mp hfind)
        | false => simp [hcaptcha]

/-- The password of a user who can be read fits. -/
theorem Presents.fits {user : UserRow} (h : Presents cfg ctx s req user) :
    PasswordFits cfg ctx s req := by
  by_contra hnot
  have := h.findByPassword.symm.trans (findByPassword_counted_iff.mpr hnot)
  simp at this

/-- Without the password of a readable user, both doors reject. -/
theorem rejected_of_not_presents (h : ∀ user, ¬ Presents cfg ctx s req user)
    (sessionID : String) :
    (∃ e, handleExternalLogin cfg ctx s (some req) = .error e) ∧
      ∃ e, (handleLogin cfg ctx s (some req) sessionID).1 = .error e := by
  constructor
  · cases hexternal : handleExternalLogin cfg ctx s (some req) with
    | error e => exact ⟨e, rfl⟩
    | ok user =>
        obtain ⟨user, hpresents⟩ := handleExternalLogin_ok_iff.mp ⟨user, hexternal⟩
        exact absurd hpresents (h user)
  · cases hlogin : (handleLogin cfg ctx s (some req) sessionID).1 with
    | error e => exact ⟨e, rfl⟩
    | ok resp =>
        obtain ⟨user, hadmits⟩ := (handleLogin_ok_iff sessionID).mp ⟨resp, hlogin⟩
        exact absurd hadmits.presents (h user)

/-- The accounting of a rejected login, whose password is not that of a readable user. -/
theorem sameLockout_iff_of_not_presents (hcaptcha : ctx.captchaOK = true)
    (h : ∀ user, ¬ Presents cfg ctx s req user) (sessionID : String) :
    SameLockout req.username s (handleLogin cfg ctx s (some req) sessionID).2 ↔
      (¬ PasswordFits cfg ctx s req → accountLocked ctx s req.username = true ∨
        cfg.maxAttempts ≤ 0 ∨ ctx.fails .increment = true) := by
  by_cases hfits : PasswordFits cfg ctx s req
  · rw [handleLogin_of_unreadable hcaptcha hfits h]
    exact ⟨fun _ hnot => absurd hfits hnot, fun _ => ⟨rfl, rfl⟩⟩
  · rw [handleLogin_of_not_fits hcaptcha hfits]
    split
    · next hlocked => exact ⟨fun _ _ => .inl hlocked, fun _ => ⟨rfl, rfl⟩⟩
    · next hunlocked =>
        rw [sameLockout_recordLoginFailure_iff]
        exact ⟨fun hoff _ => .inr hoff, fun hoff => (hoff hfits).resolve_left hunlocked⟩

end

/-- **The two doors agree when nothing but the password matters.** For every state and login
request with a solved captcha, `handleExternalLogin` and `handleLogin` decide alike, and leave
the same counter and lock behind a rejected attempt, exactly when a right password comes with
no lock, a second factor that passes and a session that can be stored, and a wrong password
comes to a user name that is locked already or is not counted. -/
theorem doors_agree_iff (cfg : AccountConfig) (ctx : RequestContext) (s : ServerState)
    (req : LoginRequest) (sessionID : String) (hcaptcha : ctx.captchaOK = true) :
    DoorsAgree cfg ctx s req sessionID ↔ NothingElseMatters cfg ctx s req := by
  rw [DoorsAgree, handleExternalLogin_ok_iff, handleLogin_ok_iff]
  by_cases hpresents : ∃ user, Presents cfg ctx s req user
  · obtain ⟨user, huser⟩ := hpresents
    constructor
    · rintro ⟨haccept, -⟩
      obtain ⟨user', hadmits⟩ := haccept.mp ⟨user, huser⟩
      refine ⟨fun other hother => ?_, fun hnot => absurd huser.fits hnot⟩
      obtain rfl := hother.unique hadmits.presents
      exact ⟨hadmits.unlocked, hadmits.factor, hadmits.stored⟩
    · intro h
      obtain ⟨hunlocked, hfactor, hstored⟩ := h.right user huser
      have hadmits : Admits cfg ctx s req user :=
        ⟨hunlocked, hcaptcha, huser, hfactor, hstored⟩
      refine ⟨⟨fun _ => ⟨user, hadmits⟩, fun _ => ⟨user, huser⟩⟩, fun _ hrejected => ?_⟩
      obtain ⟨resp, hok⟩ := (handleLogin_ok_iff sessionID).mpr ⟨user, hadmits⟩
      obtain ⟨e, he⟩ := hrejected
      simp [he] at hok
  · rw [not_exists] at hpresents
    obtain ⟨hexternal, hlogin⟩ := rejected_of_not_presents hpresents sessionID
    have hsame := sameLockout_iff_of_not_presents hcaptcha hpresents sessionID
    constructor
    · rintro ⟨-, haccounting⟩
      exact ⟨fun user huser => absurd huser (hpresents user),
        hsame.mp (haccounting hexternal hlogin)⟩
    · intro h
      refine ⟨⟨fun ⟨user, huser⟩ => absurd huser (hpresents user),
        fun ⟨user, hadmits⟩ => absurd hadmits.presents (hpresents user)⟩, fun _ _ => ?_⟩
      exact hsame.mpr h.wrong

/-- A server on which the user name `alice` is locked. -/
def exampleLocked : ServerState :=
  { exampleStart with loginLocks := set exampleStart.loginLocks 0 "alice" () 900 }

/-- **The external door accepts a locked user name.** `handleLogin` refuses the right password
of the locked user, and `handleExternalLogin` accepts it. -/
theorem doors_disagree_on_locked :
    ¬ ∀ (cfg : AccountConfig) (ctx : RequestContext) (s : ServerState) (req : LoginRequest)
      (sessionID : String), ctx.captchaOK = true → DoorsAgree cfg ctx s req sessionID := by
  intro h
  have hexternal : handleExternalLogin exampleAccounts {} exampleLocked
      (some ⟨"alice", "p", ""⟩) = .ok exampleUser := by
    decide +kernel
  have hlogin : (handleLogin exampleAccounts {} exampleLocked (some ⟨"alice", "p", ""⟩) "sid").1 =
      newError 429 "too many failed attempts, try again later" := by
    decide +kernel
  obtain ⟨resp, hok⟩ := (h exampleAccounts {} exampleLocked ⟨"alice", "p", ""⟩ "sid" rfl).1.mp
    ⟨exampleUser, hexternal⟩
  simp [hlogin, newError] at hok

/-- The doors agree on the right password of a user without a lock or a second factor. -/
theorem doors_agree_iff_example :
    DoorsAgree exampleAccounts {} exampleStart ⟨"alice", "p", ""⟩ "sid" := by
  refine (doors_agree_iff exampleAccounts {} exampleStart ⟨"alice", "p", ""⟩ "sid" rfl).mpr
    ⟨fun user huser => ⟨by decide +kernel, ?_, rfl⟩, fun hnot => absurd ?_ hnot⟩
  · obtain rfl : exampleUser = user := Option.some.inj huser.row
    decide +kernel
  · exact ⟨"h", by decide +kernel, by decide, by decide⟩

end IdpForge
