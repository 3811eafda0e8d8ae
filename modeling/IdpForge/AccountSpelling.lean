import IdpForge.LoginSequence

/-!
# Lockout and the Spelling of User Names

`handleLogin` looks the account up with the database's comparison of user names, and its counter
and lock up with the bytes of the user name in the request. Where the database compares without
regard to case, say, "alice" and "Alice" are one account with two counters and two locks.

The comparison of the database is an arbitrary equivalence `same`.

## Main results

* `find?_collatedName`: all spellings of a user name reach one account.
* `collatedLogin_eq_run`: a login on such a database takes the steps of `LoginSequence`.
* `lockout_follows_account_iff`: the accounts whose lockout does not depend on the spelling.
* `spelling_evades_lockout`: a locked account that is open under another spelling.
-/

open PartialMap TransitionSystem

namespace IdpForge

/-! ### The database's comparison -/

section Collation

variable (same : String → String → Bool)

/-- The user name of the row that `WHERE username = ?` selects. -/
def collatedName (rows : List UserRow) (username : String) : String :=
  ((rows.find? fun row => same row.username username).map (·.username)).getD username

/-- `handleLogin` on a database that compares user names with `same`. -/
def collatedLogin (cfg : AccountConfig) (ctx : RequestContext) (s : ServerState)
    (req : LoginRequest) (sessionID : String) : Reply LoginResponse :=
  loginAs cfg ctx s (collatedName same s.users req.username) req sessionID

variable {same} (hsame : Equivalence fun a b => same a b = true)

include hsame

/-- **One account.** The row under the selected name is the row that the comparison selects, and
so the same one for every spelling. -/
theorem find?_collatedName {rows : List UserRow} {row : UserRow} {username username' : String}
    (h : rows.find? (fun row => same row.username username) = some row)
    (hspelling : same username username' = true) :
    rows.find? (fun r => r.username = collatedName same rows username') = some row := by
  have hselect : (fun row : UserRow => same row.username username') =
      fun row => same row.username username := by
    funext row
    refine Bool.eq_iff_iff.mpr ⟨fun h' => ?_, fun h' => hsame.trans h' hspelling⟩
    exact hsame.trans h' (hsame.symm hspelling)
  have hname : collatedName same rows username' = row.username := by
    rw [collatedName, hselect, h]
    rfl
  rw [hname]
  obtain ⟨hrow, before, after, rfl, hbefore⟩ := List.find?_eq_some_iff_append.mp h
  refine List.find?_eq_some_iff_append.mpr ⟨by simp, before, after, rfl, fun r hr => ?_⟩
  have hother := hbefore r hr
  simp only [Bool.not_eq_true', decide_eq_false_iff_not]
  intro heq
  rw [heq, hrow] at hother
  cases hother

end Collation

/-- A login on such a database takes the steps of one request. -/
theorem collatedLogin_eq_run {same : String → String → Bool} {cfg : AccountConfig}
    {ctx : RequestContext} {s : ServerState} {req : LoginRequest} {t : SequenceState}
    (hcache : CacheAnswers ctx) (ht : t.Shows s) (hidle : t.request = none) (sessionID : String) :
    ∃ t', run (sequenceStep cfg) t
        (loginSteps cfg ctx s (collatedName same s.users req.username) req) = some t' ∧
      t'.request = none ∧ t'.Shows (collatedLogin same cfg ctx s req sessionID).2 :=
  loginAs_eq_run hcache ht hidle sessionID

/-! ### One limit for the account -/

/-- An attempt fails, whatever the user name. -/
def AnyFails : SequenceAction → Bool
  | .password .missing | .password .wrong | .code false => true
  | _ => false

/-- All logins are for spellings of the account. -/
def LoginsAre (spelling : String → Prop) (as : List SequenceAction) : Prop :=
  ∀ a ∈ as, ∀ username, a = .login username → spelling username

/-- The lockout follows the account. Whatever spellings the requests use: from the failure that
starts to count, on an account that has no counter under any of them, until `Window` has passed,
at most `MaxAttempts` attempts fail before a lock is written or a login succeeds; and once a lock
is written, every spelling is locked until `Duration` has passed. -/
def LockoutFollows (cfg : AccountConfig) (spelling : String → Prop) : Prop :=
  ∀ now as s, LoginsAre spelling as → run (sequenceStep cfg) (.start now) as = some s →
    (∀ username bs s', s.request = some (username, .counting) →
      (∀ name, spelling name → get s.loginFailures s.now name = none) → LoginsAre spelling bs →
      run (sequenceStep cfg) s (.count :: bs) = some s' → s'.now ≤ s.now + cfg.window →
      (∀ a ∈ bs, a ≠ .lock ∧ a ≠ .clear) →
      ((1 + tally (sequenceStep cfg) (fun _ => AnyFails) s (.count :: bs) : Nat) : Int) ≤
        cfg.maxAttempts) ∧
    (∀ t bs s', sequenceStep cfg s .lock = some t → LoginsAre spelling bs →
      run (sequenceStep cfg) t bs = some s' → s'.now ≤ s.now + cfg.duration →
      ∀ name, spelling name → Locked s' name)

section Follows

variable {cfg : AccountConfig} {s s' : SequenceState} {a : SequenceAction} {account : String}
  {spelling : String → Prop}

/-- The request under way is for a spelling of the account. -/
def RequestIs (spelling : String → Prop) (s : SequenceState) : Prop :=
  ∀ username stage, s.request = some (username, stage) → spelling username

/-- The logins decide whom the requests are for. -/
theorem RequestIs.step (h : RequestIs spelling s)
    (hlogin : ∀ username, a = .login username → spelling username)
    (hstep : sequenceStep cfg s a = some s') : RequestIs spelling s' := by
  intro username stage hrequest'
  rcases (request_of_step hstep hrequest').2 with ⟨hnew, -⟩ | ⟨stage', hrequest⟩
  · exact hlogin username hnew
  · exact h username stage' hrequest

/-- All requests of a run are for spellings of the account when the first one is. -/
theorem RequestIs.run {as : List SequenceAction} (h : RequestIs spelling s)
    (hlogins : LoginsAre spelling as) (hrun : run (sequenceStep cfg) s as = some s') :
    RequestIs spelling s' :=
  guarded_run_invariant (fun _ _ _ h hg hstep => h.step hg.2 hstep) h
    ((guarded_true s as).and_forall_mem hlogins) hrun

/-- Where the requests are all for one user name, its failed attempts are the failed attempts. -/
theorem anyFails_eq (hone : ∀ name, spelling name → name = account) (h : RequestIs spelling s)
    (hstep : sequenceStep cfg s a = some s') : AnyFails a = FailsAttempt s account a := by
  have hrequester {u : String} {stage : LoginStage} (hrequest : s.request = some (u, stage)) :
      s.requester = some account := by
    rw [SequenceState.requester, hrequest, ← hone u (h u stage hrequest)]
    rfl
  cases moves_of_step hstep with
  | @password u outcome hrequest =>
      cases outcome <;> simp [AnyFails, FailsAttempt, hrequester hrequest]
  | @code u valid hrequest => cases valid <;> simp [AnyFails, FailsAttempt, hrequester hrequest]
  | _ => rfl

/-- An account with a single spelling is followed. -/
theorem lockoutFollows_of_single (hm : 0 < cfg.maxAttempts) (hw : 0 < cfg.window)
    (hd : 0 < cfg.duration) (hone : ∀ name, spelling name → name = account) :
    LockoutFollows cfg spelling := by
  intro now as s hlogins hrun
  have hstart : RequestIs spelling (.start now) := fun _ _ h => by
    simp [SequenceState.start] at h
  have hown : RequestIs spelling s := hstart.run hlogins hrun
  constructor
  · intro username bs s' hrequest hnew hbs hrun' hlife hends
    have hspelling := hown username _ hrequest
    obtain rfl := hone username hspelling
    have hlogins' : LoginsAre spelling (.count :: bs) :=
      List.forall_mem_cons.mpr ⟨by simp, hbs⟩
    have hrequests :
        Guarded (sequenceStep cfg) (fun t _ => RequestIs spelling t) s (.count :: bs) :=
      guarded_of_invariant (fun _ _ h _ => h) (fun _ _ _ h hlogin hstep => h.step hlogin hstep)
        hown hlogins'
    have hends' : ∀ a ∈ SequenceAction.count :: bs, a ≠ .lock ∧ a ≠ .clear :=
      List.forall_mem_cons.mpr ⟨by simp, hends⟩
    have hgoes :
        Guarded (sequenceStep cfg) (fun t a => ¬ EndsCount username t a) s (.count :: bs) :=
      guarded_of_forall_mem fun a ha _ hgone => hgone.1.elim (hends' a ha).1 (hends' a ha).2
    rw [tally_congr (fun _ _ _ h hstep => anyFails_eq hone h hstep) hrequests hrun']
    exact failures_bounded hm hw hrequest (hnew username hspelling) hrun' hlife hgoes
  · intro t bs s' hlock hbs hrun' hlife name hname
    obtain rfl := hone name hname
    have hrequest : s.request = some (name, .locking) := by
      cases moves_of_step hlock with
      | lock hrequest => rw [hrequest, hone _ (hown _ _ hrequest)]
    have hlocked : LockedSince cfg name s.now s' :=
      run_invariant (fun _ _ _ h hstep => h.step hstep) (lockedSince_of_lock hd hrequest hlock)
        hrun'
    exact hlocked.locked hlife

/-! ### Two spellings -/

/-- The state after so many failed attempts on the account. -/
structure FailedTimes (cfg : AccountConfig) (account : String) (n : Nat) (s : SequenceState) :
    Prop where
  now : s.now = 0
  idle : s.request = none
  locks : s.loginLocks = fun _ => none
  counter : s.loginFailures account = if n = 0 then none else some ⟨n, some cfg.window⟩

/-- A failed attempt. -/
def failedAttempt (account : String) : List SequenceAction :=
  [.login account, .password .wrong, .count]

/-- One more failed attempt, and the lock when the counter is full. -/
theorem FailedTimes.attempt {n : Nat} (hm : 0 < cfg.maxAttempts) (hw : 0 < cfg.window)
    (h : FailedTimes cfg account n s) :
    ∃ s', run (sequenceStep cfg) s (failedAttempt account) = some s' ∧ s'.now = 0 ∧
      s'.loginLocks = (fun _ => none) ∧
      s'.loginFailures account = some ⟨n + 1, some cfg.window⟩ ∧
      s'.request = if ((n + 1 : Nat) : Int) < cfg.maxAttempts then none
        else some (account, .locking) := by
  obtain ⟨hnow, hidle, hlocks, hcounter⟩ := h
  have hfree : get s.loginLocks s.now account = none := by rw [hlocks]; rfl
  have hcounted : (countedFailure cfg s account).1 = n + 1 ∧
      (countedFailure cfg s account).2 account = some ⟨n + 1, some cfg.window⟩ := by
    by_cases hzero : n = 0
    · rw [if_pos hzero] at hcounter
      rw [countedFailure, increment_of_none hcounter, hzero]
      simp [PartialMap.set, hw, hnow]
    · rw [if_neg hzero] at hcounter
      rw [countedFailure_of_held hcounter (by omega)]
      simp
  refine ⟨{ s with
    loginFailures := (countedFailure cfg s account).2
    request := if ((n + 1 : Nat) : Int) < cfg.maxAttempts then none
      else some (account, .locking) }, ?_, hnow, hlocks, hcounted.2, rfl⟩
  have hsame : countedFailure cfg { s with request := some (account, .counting) } account =
      countedFailure cfg s account := rfl
  simp [failedAttempt, sequenceStep, hidle, hfree, PasswordOutcome.next, hm.not_ge, hsame,
    hcounted.1]

/-- Enough failed attempts for a lock. -/
theorem exists_full (hm : 0 < cfg.maxAttempts) (hw : 0 < cfg.window) (account : String) :
    ∃ as s, LoginsAre (· = account) as ∧ run (sequenceStep cfg) (.start 0) as = some s ∧
      s.loginLocks = (fun _ => none) ∧ s.request = some (account, .locking) := by
  have hfailed : ∀ n : Nat, (n : Int) < cfg.maxAttempts → ∃ as s, LoginsAre (· = account) as ∧
      run (sequenceStep cfg) (.start 0) as = some s ∧ FailedTimes cfg account n s := by
    intro n hn
    induction n with
    | zero => exact ⟨[], .start 0, by simp [LoginsAre], rfl, rfl, rfl, rfl, rfl⟩
    | succ n ih =>
        obtain ⟨as, s, hlogins, hrun, hs⟩ := ih (by omega)
        obtain ⟨s', hrun', hnow, hlocks, hcounter, hrequest⟩ := hs.attempt hm hw
        rw [if_pos hn] at hrequest
        refine ⟨as ++ failedAttempt account, s', ?_, ?_, hnow, hrequest, hlocks, ?_⟩
        · exact List.forall_mem_append.mpr ⟨hlogins, by simp [failedAttempt]⟩
        · rw [run_append, hrun]
          exact hrun'
        · simpa using hcounter
  obtain ⟨m, hmax⟩ := Int.eq_ofNat_of_zero_le hm.le
  obtain ⟨as, s, hlogins, hrun, hs⟩ := hfailed (m - 1) (by omega)
  obtain ⟨s', hrun', -, hlocks, -, hrequest⟩ := hs.attempt hm hw
  rw [if_neg (by omega)] at hrequest
  refine ⟨as ++ failedAttempt account, s', ?_, ?_, hlocks, hrequest⟩
  · exact List.forall_mem_append.mpr ⟨hlogins, by simp [failedAttempt]⟩
  · rw [run_append, hrun]
    exact hrun'

variable (account) in
/-- An account with a second spelling is not followed: it is locked under one only. -/
theorem not_lockoutFollows_of_other (hm : 0 < cfg.maxAttempts) (hw : 0 < cfg.window)
    (hd : 0 < cfg.duration) (other : String) (haccount : spelling account)
    (hother : spelling other) (hne : other ≠ account) : ¬ LockoutFollows cfg spelling := by
  intro hfollows
  obtain ⟨as, s, hlogins, hrun, hlocks, hrequest⟩ := exists_full hm hw account
  have hspellings : LoginsAre spelling as :=
    fun a ha username hlogin => hlogins a ha username hlogin ▸ haccount
  have hlock : sequenceStep cfg s .lock = some { s with
      loginLocks := set s.loginLocks s.now account () cfg.duration
      request := none } := by
    rw [sequenceStep, hrequest]
  have hlocked := (hfollows 0 as s hspellings hrun).2 _ [] _ hlock (by simp [LoginsAre]) rfl
    (by dsimp only; omega) other hother
  simp [Locked, PartialMap.get, PartialMap.set, hne, hlocks] at hlocked

/-- **The spelling of user names.** On a database with this comparison of user names, the lockout
follows the account exactly when no other user name is equal to the account's. -/
theorem lockout_follows_account_iff {same : String → String → Bool}
    (hsame : Equivalence fun a b => same a b = true) (hm : 0 < cfg.maxAttempts)
    (hw : 0 < cfg.window) (hd : 0 < cfg.duration) (account : String) :
    LockoutFollows cfg (fun username => same username account = true) ↔
      ∀ username, same username account = true → username = account := by
  refine ⟨fun hfollows username hspelling => ?_, lockoutFollows_of_single hm hw hd⟩
  by_contra hne
  exact not_lockoutFollows_of_other account hm hw hd username (hsame.refl account) hspelling hne
    hfollows

/-- Without regard to case. -/
def sameLetters (a b : String) : Bool := a.map Char.toLower = b.map Char.toLower

/-- That is an equivalence. -/
theorem sameLetters_equivalence : Equivalence fun a b => sameLetters a b = true := by
  simp only [sameLetters, decide_eq_true_eq]
  exact ⟨fun _ => rfl, Eq.symm, Eq.trans⟩

/-- The account "alice" on a database without regard to case. -/
theorem lockout_follows_account_iff_example :
    LockoutFollows exampleAccounts (fun username => sameLetters username "alice" = true) ↔
      ∀ username, sameLetters username "alice" = true → username = "alice" :=
  lockout_follows_account_iff sameLetters_equivalence (by decide) (by decide) (by decide) "alice"

/-- **Another spelling.** On a database without regard to case "Alice" is the account "alice", which
is locked after five failed attempts, and "Alice" is not. -/
theorem spelling_evades_lockout :
    collatedName sameLetters [exampleUser] "Alice" = "alice" ∧
    (∃ s, run (sequenceStep exampleAccounts) (.start 0) fiveFailures = some s ∧
      Locked s "alice" ∧ ¬ Locked s "Alice") ∧
    ¬ LockoutFollows exampleAccounts (fun username => sameLetters username "alice" = true) := by
  refine ⟨by decide +kernel, ?_, ?_⟩
  · have hlocks : (run (sequenceStep exampleAccounts) (.start 0) fiveFailures).map
        (fun s => (get s.loginLocks s.now "alice", get s.loginLocks s.now "Alice")) =
          some (some (), none) := by decide +kernel
    obtain ⟨s, hrun, hlocked⟩ := Option.map_eq_some_iff.mp hlocks
    obtain ⟨halice, hother⟩ := Prod.mk.inj hlocked
    exact ⟨s, hrun, halice, by simp [Locked, hother]⟩
  · exact not_lockoutFollows_of_other "alice" (by decide) (by decide) (by decide) "Alice"
      (by decide +kernel) (by decide +kernel) (by decide)

end Follows

end IdpForge
