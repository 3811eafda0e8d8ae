import IdpForge.UsersSteps

/-!
# Changes of Password, Step by Step

`handleChangePassword` reads the session, the row and the hash of the user, writes the new
hash, and writes the session again. Here each of these is a step of its own, and the steps of
any number of such requests are interleaved with each other and with all other requests, which
take one step each. The state also records the sessions that logins created and those that
logouts destroyed.

## Main results

* `exists_run_changeSteps`: the steps of a request in a row do what `handleChangePassword`
  does.
* `ChangeStep`, `changeStep_cases`: the inversion of the step function.
* `changeInv_run`: the invariants of the accounts hold in every state of a run.
* `UsersStep.exists_before`: rows with drawn ids have their predecessors.
-/

open PartialMap TransitionSystem

namespace IdpForge

/-- A change of password under way, for the user of the session of its cookie. -/
structure PendingChange where
  cookie : String
  userID : String
  currentPassword : String
  newPassword : String
  deriving DecidableEq, Repr

/-- What a change of password does next: it reads the row of its user, compares the hash of a
user name, writes the new hash, or writes the session. -/
inductive ChangeStage where
  | reading
  | comparing (username : String)
  | setting
  | clearing
  deriving DecidableEq, Repr

/-- The server with the changes of password under way, the sessions created so far, each with
the time of its login, and the sessions destroyed. -/
structure ChangeServer where
  server : ServerState
  calls : Nat → Option (PendingChange × ChangeStage)
  created : List (String × Int)
  destroyed : List String

/-- A request other than a change of password, or a step of such a change. -/
inductive ChangeAction where
  | request (a : ServerAction)
  | begin (r : Nat) (ctx : RequestContext) (cookie : String) (body : Option (String × String))
  | read (r : Nat) (ctx : RequestContext)
  | compare (r : Nat) (ctx : RequestContext)
  | setPassword (r : Nat) (ctx : RequestContext) (hash : Option String)
  | clearFlag (r : Nat) (ctx : RequestContext)

namespace ChangeServer

variable (cfg : AccountConfig) (w : ChangeServer)

/-- The clock. -/
def now : Int := w.server.now

/-- A call moves on, or ends. -/
def setCall (r : Nat) (call : Option (PendingChange × ChangeStage)) : ChangeServer :=
  { w with calls := Function.update w.calls r call }

/-- The call under way, if it is at this stage. -/
def callAt (r : Nat) (stage : ChangeStage) : Option PendingChange :=
  match w.calls r with
  | some (call, stage') => if stage' = stage then some call else none
  | none => none

/-- The user table is written. -/
def setUsers (rows : List UserRow) : ChangeServer :=
  { w with server := { w.server with users := rows } }

/-- A login has stored its session, or has failed. -/
def recordLogin (sessionID : String) (succeeded : Bool) (server : ServerState) : ChangeServer :=
  { w with
    server := server
    created := if succeeded then (sessionID, w.now) :: w.created else w.created }

/-- A logout has destroyed the session of its cookie, or has failed. -/
def recordLogout (cookie : String) (succeeded : Bool) (server : ServerState) : ChangeServer :=
  { w with
    server := server
    destroyed := if succeeded then cookie :: w.destroyed else w.destroyed }

/-- A session id is new. -/
def fresh (id : String) : Bool :=
  id ∉ w.created.map Prod.fst ∧ id ∉ w.destroyed

/-- A request that is no change of password. The session id of a login is random: neither
drawn before nor guessed by a logout. -/
def requestStep : ServerAction → Option ChangeServer
  | .changePassword _ _ _ _ => none
  | .login ctx body sessionID =>
      if w.fresh sessionID then
        (serverStep cfg w.server (.login ctx body sessionID)).map
          (w.recordLogin sessionID (handleLogin cfg ctx w.server body sessionID).1.isOk)
      else none
  | .logout ctx cookie =>
      (serverStep cfg w.server (.logout ctx cookie)).map
        (w.recordLogout cookie (cookie ≠ "" && !ctx.fails .destroySession))
  | a => (serverStep cfg w.server a).map fun server => { w with server := server }

/-- The middleware reads the session, and the body is parsed and its new password checked. -/
def beginStep (r : Nat) (ctx : RequestContext) (cookie : String)
    (body : Option (String × String)) : Option ChangeServer :=
  if (w.calls r).isSome then none
  else
    match w.server.sessionUser ctx cookie with
    | none => some w
    | some userID =>
        match body with
        | none => some w
        | some (currentPassword, newPassword) =>
            match validatePassword cfg.unicode cfg.policy newPassword with
            | .error _ => some w
            | .ok () =>
                some (w.setCall r (some (⟨cookie, userID, currentPassword, newPassword⟩,
                  .reading)))

/-- `users.Get`. -/
def readStep (r : Nat) (ctx : RequestContext) : Option ChangeServer :=
  match w.calls r with
  | some (call, .reading) =>
      match usersGet ctx.fails w.server.users call.userID with
      | none => some (w.setCall r none)
      | some user => some (w.setCall r (some (call, .comparing user.username)))
  | _ => none

/-- `users.PasswordHash` and `users.VerifyPassword` do not accept the current password. -/
def rejects (ctx : RequestContext) (username currentPassword : String) : Bool :=
  let hash := (passwordHash ctx.fails w.server.users username).getD ""
  hash = "" || !cfg.verifyPassword hash currentPassword

/-- The comparison of the current password. -/
def compareStep (r : Nat) (ctx : RequestContext) : Option ChangeServer :=
  match w.calls r with
  | some (call, .comparing username) =>
      if w.rejects cfg ctx username call.currentPassword then some (w.setCall r none)
      else some (w.setCall r (some (call, .setting)))
  | _ => none

/-- `users.SetPassword`, with the hash that it draws. -/
def setPasswordStep (r : Nat) (ctx : RequestContext) (hash : Option String) :
    Option ChangeServer :=
  match w.calls r with
  | some (call, .setting) =>
      if cfg.hashes call.newPassword hash then
        match hash.bind (IdpForge.setPassword ctx.fails w.server.users w.now call.userID) with
        | none => some (w.setCall r none)
        | some rows => some ((w.setUsers rows).setCall r (some (call, .clearing)))
      else none
  | _ => none

/-- `sessions.clearMustChangePassword`. -/
def clearFlagStep (r : Nat) (ctx : RequestContext) : Option ChangeServer :=
  match w.calls r with
  | some (call, .clearing) =>
      some { w.setCall r none with
        server := w.server.clearMustChangePassword ctx call.cookie call.userID }
  | _ => none

end ChangeServer

/-- The step function. -/
def changeStep (cfg : AccountConfig) (w : ChangeServer) : ChangeAction → Option ChangeServer
  | .request a => w.requestStep cfg a
  | .begin r ctx cookie body => w.beginStep cfg r ctx cookie body
  | .read r ctx => w.readStep r ctx
  | .compare r ctx => w.compareStep cfg r ctx
  | .setPassword r ctx hash => w.setPasswordStep cfg r ctx hash
  | .clearFlag r ctx => w.clearFlagStep r ctx

/-- The server as it starts. -/
def ChangeServer.start (now : Int) (clients : List OidcClient) (users : List UserRow) :
    ChangeServer where
  server := .start now clients users
  calls := fun _ => none
  created := []
  destroyed := []

/-! ### A request on its own -/

/-- The steps of one request. -/
def changeSteps (r : Nat) (ctx : RequestContext) (cookie : String)
    (body : Option (String × String)) (hash : Option String) : List ChangeAction :=
  [.begin r ctx cookie body, .read r ctx, .compare r ctx, .setPassword r ctx hash,
    .clearFlag r ctx]

section Alone

variable {cfg : AccountConfig} {w : ChangeServer} {r : Nat}

/-- A call that moves on twice. -/
@[simp] theorem setCall_setCall (call call' : Option (PendingChange × ChangeStage)) :
    (w.setCall r call).setCall r call' = w.setCall r call' := by
  simp [ChangeServer.setCall]

/-- The call that moves is at its new stage. -/
@[simp] theorem calls_setCall (call : Option (PendingChange × ChangeStage)) :
    (w.setCall r call).calls r = call := by
  simp [ChangeServer.setCall]

/-- The stage of a call. -/
theorem callAt_eq_some {stage : ChangeStage} {call : PendingChange} :
    w.callAt r stage = some call ↔ w.calls r = some (call, stage) := by
  rw [ChangeServer.callAt]
  split
  · next call' stage' hcall => simp [hcall, and_comm]
  · next hcall => simp [hcall]

/-- Moving a call leaves the server as it is. -/
@[simp] theorem server_setCall (call : Option (PendingChange × ChangeStage)) :
    (w.setCall r call).server = w.server := rfl

/-- A call that was not under way has ended. -/
theorem setCall_none (h : w.calls r = none) : w.setCall r none = w := by
  rw [ChangeServer.setCall, ← h, Function.update_eq_self]

/-- A comparison ends the call or lets it move on. -/
theorem compareStep_eq {ctx : RequestContext} {call : PendingChange} {username : String}
    (h : w.calls r = some (call, .comparing username)) :
    w.compareStep cfg r ctx = some (w.setCall r
      (if w.rejects cfg ctx username call.currentPassword then none
      else some (call, .setting))) := by
  rw [ChangeServer.compareStep, h]
  cases hrejects : w.rejects cfg ctx username call.currentPassword <;> simp [hrejects]

/-- The handler from its comparison on. -/
theorem handleChangePassword_eq {ctx : RequestContext} {cookie userID current new : String}
    {user : UserRow} {hash : Option String} {u : Unit}
    (hsession : w.server.sessionUser ctx cookie = some userID)
    (hpolicy : validatePassword cfg.unicode cfg.policy new = .ok u)
    (huser : usersGet ctx.fails w.server.users userID = some user) :
    (handleChangePassword cfg ctx w.server cookie (some (current, new)) hash).2 =
      if w.rejects cfg ctx user.username current then w.server
      else
        match hash.bind (setPassword ctx.fails w.server.users w.server.now userID) with
        | none => w.server
        | some rows =>
          { w.server with users := rows }.clearMustChangePassword ctx cookie userID := by
  simp only [handleChangePassword, hsession, hpolicy, huser]
  cases hrejects : w.rejects cfg ctx user.username current with
  | true => exact congrArg Prod.snd (if_pos hrejects)
  | false =>
      rw [← Bool.not_eq_true] at hrejects
      refine (congrArg Prod.snd (if_neg hrejects)).trans ?_
      cases hash.bind (setPassword ctx.fails w.server.users w.server.now userID) <;> rfl

/-- **The steps of a request in a row do what the handler does.** It may end before the last
of them. -/
theorem exists_run_changeSteps {ctx : RequestContext} {cookie : String}
    {body : Option (String × String)} {hash : Option String} (hidle : w.calls r = none)
    (hfits : cfg.hashes ((body.map Prod.snd).getD "") hash = true) :
    ∃ n, run (changeStep cfg) w ((changeSteps r ctx cookie body hash).take n) =
      some { w with server := (handleChangePassword cfg ctx w.server cookie body hash).2 } := by
  cases hsession : w.server.sessionUser ctx cookie with
  | none =>
      exact ⟨1, by
        simp [changeSteps, changeStep, ChangeServer.beginStep, handleChangePassword, hidle,
          hsession]⟩
  | some userID =>
      cases body with
      | none =>
          exact ⟨1, by
            simp [changeSteps, changeStep, ChangeServer.beginStep, handleChangePassword, hidle,
              hsession]⟩
      | some passwords =>
          obtain ⟨current, new⟩ := passwords
          cases hpolicy : validatePassword cfg.unicode cfg.policy new with
          | error e =>
              exact ⟨1, by
                simp [changeSteps, changeStep, ChangeServer.beginStep, handleChangePassword,
                  hidle, hsession, hpolicy]⟩
          | ok _ =>
              have hbegin : ∀ as, run (changeStep cfg) w
                  (.begin r ctx cookie (some (current, new)) :: as) =
                    run (changeStep cfg)
                      (w.setCall r (some (⟨cookie, userID, current, new⟩, .reading))) as := by
                intro as
                simp [changeStep, ChangeServer.beginStep, hidle, hsession, hpolicy]
              cases huser : usersGet ctx.fails w.server.users userID with
              | none =>
                  refine ⟨2, (hbegin _).trans ?_⟩
                  simp [changeStep, ChangeServer.readStep, handleChangePassword, hsession, hpolicy,
                    huser, setCall_none hidle]
              | some user =>
                  rw [handleChangePassword_eq hsession hpolicy huser]
                  have hcompare : ∀ as, run (changeStep cfg) w
                      (.begin r ctx cookie (some (current, new)) :: .read r ctx ::
                        .compare r ctx :: as) =
                        run (changeStep cfg) (w.setCall r
                          (if w.rejects cfg ctx user.username current then none
                          else some (⟨cookie, userID, current, new⟩, .setting))) as := by
                    intro as
                    rw [hbegin, run_cons]
                    simp only [changeStep, ChangeServer.readStep, calls_setCall, server_setCall,
                      huser, Option.bind_some, setCall_setCall]
                    rw [run_cons, changeStep, compareStep_eq (calls_setCall _), setCall_setCall]
                    rfl
                  cases hrejects : w.rejects cfg ctx user.username current with
                  | true =>
                      refine ⟨3, (hcompare _).trans ?_⟩
                      simp [hrejects, setCall_none hidle]
                  | false =>
                      have hfits : cfg.hashes new hash = true := hfits
                      cases hset : hash.bind
                          (setPassword ctx.fails w.server.users w.server.now userID) with
                      | none =>
                          refine ⟨4, (hcompare _).trans ?_⟩
                          simp [changeStep, ChangeServer.setPasswordStep, ChangeServer.now,
                            hrejects, hset, hfits, setCall_none hidle]
                      | some rows =>
                          refine ⟨5, (hcompare _).trans ?_⟩
                          simp [changeStep, ChangeServer.setPasswordStep, ChangeServer.now,
                            ChangeServer.clearFlagStep, ChangeServer.setUsers,
                            ChangeServer.setCall, hrejects, hset, hfits, ← hidle]

end Alone
/-! ### What a step does -/

/-- What a request other than a change of password does to the sessions. -/
inductive SessionsStep (w w' : ChangeServer) : Prop
  | kept (hsessions : w'.server.sessions = w.server.sessions) (hnow : w.now ≤ w'.now)
      (hcreated : w'.created = w.created) (hdestroyed : w'.destroyed = w.destroyed)
  | created {id : String} {data : SessionData} (hfresh : w.fresh id = true)
      (hsessions : w'.server.sessions = set w.server.sessions w.now id data sessionTTL)
      (hnow : w'.now = w.now) (hcreated : w'.created = (id, w.now) :: w.created)
      (hdestroyed : w'.destroyed = w.destroyed)
  | destroyed {id : String} (hsessions : w'.server.sessions = delete w.server.sessions id)
      (hnow : w'.now = w.now) (hcreated : w'.created = w.created)
      (hdestroyed : w'.destroyed = id :: w.destroyed)

/-- The step of a change of password writes nothing: it only reads, or its write fails. -/
def ChangeAction.WritesNothing : ChangeAction → Prop
  | .request _ => False
  | .begin .. | .read .. | .compare .. => True
  | .setPassword _ ctx hash => hash = none ∨ ctx.fails .setPassword = true
  | .clearFlag _ ctx => ctx.fails .storeSession = true

/-- What a step can do. -/
inductive ChangeStep (cfg : AccountConfig) (w : ChangeServer) :
    ChangeAction → ChangeServer → Prop
  | request {a : ServerAction} {w' : ChangeServer}
      (hserver : serverStep cfg w.server a = some w'.server) (hcalls : w'.calls = w.calls)
      (hsessions : SessionsStep w w')
      (ha : ∀ ctx cookie body hash, a ≠ .changePassword ctx cookie body hash) :
      ChangeStep cfg w (.request a) w'
  | ended {a : ChangeAction} {r : Nat} (h : a.WritesNothing) : ChangeStep cfg w a (w.setCall r none)
  | begun {r : Nat} {ctx : RequestContext} {cookie userID current new : String}
      (hsession : w.server.sessionUser ctx cookie = some userID)
      (hpolicy : validatePassword cfg.unicode cfg.policy new = .ok ()) :
      ChangeStep cfg w (.begin r ctx cookie (some (current, new)))
        (w.setCall r (some (⟨cookie, userID, current, new⟩, .reading)))
  | read {r : Nat} {ctx : RequestContext} {call : PendingChange} {user : UserRow}
      (hcall : w.calls r = some (call, .reading))
      (huser : usersGet ctx.fails w.server.users call.userID = some user) :
      ChangeStep cfg w (.read r ctx) (w.setCall r (some (call, .comparing user.username)))
  | compared {r : Nat} {ctx : RequestContext} {call : PendingChange} {username : String}
      (hcall : w.calls r = some (call, .comparing username))
      (hcurrent : w.rejects cfg ctx username call.currentPassword = false) :
      ChangeStep cfg w (.compare r ctx) (w.setCall r (some (call, .setting)))
  | set {r : Nat} {ctx : RequestContext} {call : PendingChange} {hash : String}
      (hcall : w.calls r = some (call, .setting))
      (hhash : cfg.verifyPassword hash call.newPassword = true)
      (hok : ctx.fails .setPassword = false) :
      ChangeStep cfg w (.setPassword r ctx (some hash))
        ((w.setUsers (updateWhere w.server.users call.userID fun row =>
          row.withPassword w.now hash false)).setCall r (some (call, .clearing)))
  | cleared {r : Nat} {ctx : RequestContext} {call : PendingChange}
      (hcall : w.calls r = some (call, .clearing)) (hok : ctx.fails .storeSession = false) :
      ChangeStep cfg w (.clearFlag r ctx)
        { w.setCall r none with
          server := w.server.setSession call.cookie ⟨call.userID, false⟩ }

section Inversion

variable {cfg : AccountConfig} {w w' : ChangeServer} {r : Nat} {ctx : RequestContext}

/-- Requests other than logins, logouts and changes of password leave the sessions alone. -/
theorem SessionsStep.of_serverStep {a : ServerAction} {server : ServerState}
    (h : serverStep cfg w.server a = some server)
    (hlogin : ∀ ctx body sessionID, a ≠ .login ctx body sessionID)
    (hlogout : ∀ ctx cookie, a ≠ .logout ctx cookie)
    (hchange : ∀ ctx cookie body hash, a ≠ .changePassword ctx cookie body hash) :
    SessionsStep w { w with server := server } := by
  have hkept : ∀ s : ServerState, s.sessions = w.server.sessions → w.server.now ≤ s.now →
      SessionsStep w { w with server := s } := fun s hsessions hnow => .kept hsessions hnow rfl rfl
  cases serverStep_cases h with
  | quiet hkeep => exact hkept _ hkeep.sessions hkeep.now.ge
  | recorded hkeep => exact hkept _ hkeep.sessions hkeep.now.ge
  | create hdraw hkeep =>
      obtain ⟨-, -, rfl⟩ := drawUserID_eq_some hdraw
      exact hkept _ hkeep.sessions hkeep.now.ge
  | login => exact absurd rfl (hlogin _ _ _)
  | logout => exact absurd rfl (hlogout _ _)
  | changePassword => exact absurd rfl (hchange _ _ _ _)
  | provider hprovider => exact hkept _ rfl hprovider.now_le

/-- A login stores a session under its new id, or stores none. -/
theorem login_sessionsStep {body : Option LoginRequest} {sessionID : String}
    {event : LoginResponse → ServerEvent} (hfresh : w.fresh sessionID = true) :
    SessionsStep w (w.recordLogin sessionID (handleLogin cfg ctx w.server body sessionID).1.isOk
      (conclude (handleLogin cfg ctx w.server body sessionID) event)) := by
  obtain ⟨e, he, hkeep⟩ | ⟨req, user, must, s', -, -, hkeep, heq⟩ :=
    @handleLogin_spec cfg ctx w.server body sessionID
  · generalize handleLogin cfg ctx w.server body sessionID = reply at he hkeep ⊢
    obtain ⟨answer, s'⟩ := reply
    obtain rfl : answer = .error e := he
    exact .kept hkeep.sessions hkeep.now.ge rfl rfl
  · rw [heq]
    have hsessions : (s'.setSession sessionID ⟨user.id, must⟩).sessions =
        set w.server.sessions w.now sessionID ⟨user.id, must⟩ sessionTTL := by
      rw [ServerState.setSession, hkeep.sessions, hkeep.now]
      rfl
    exact .created hfresh hsessions hkeep.now rfl rfl

/-- A logout destroys the session of its cookie, or none. -/
theorem logout_sessionsStep {cookie : String} :
    SessionsStep w (w.recordLogout cookie (cookie ≠ "" && !ctx.fails .destroySession)
      (handleLogout ctx w.server cookie)) := by
  by_cases hdestroys : (cookie ≠ "" && !ctx.fails .destroySession) = true
  · have hlogout : handleLogout ctx w.server cookie =
        { w.server with sessions := delete w.server.sessions cookie } := by
      simp only [Bool.and_eq_true, decide_eq_true_eq, Bool.not_eq_true'] at hdestroys
      simp [handleLogout, ServerState.destroySession, hdestroys]
    rw [hlogout, hdestroys]
    exact .destroyed rfl rfl rfl rfl
  · have hlogout : handleLogout ctx w.server cookie = w.server := by
      simp only [Bool.and_eq_true, decide_eq_true_eq, Bool.not_eq_true', not_and] at hdestroys
      rw [handleLogout]
      split
      · rfl
      · next hcookie => simp [ServerState.destroySession, hdestroys hcookie]
    rw [Bool.not_eq_true] at hdestroys
    rw [hlogout, hdestroys]
    exact .kept rfl le_rfl rfl rfl

/-- A request that is no change of password. -/
theorem requestStep_cases {a : ServerAction} (h : w.requestStep cfg a = some w') :
    ChangeStep cfg w (.request a) w' := by
  rw [ChangeServer.requestStep.eq_def] at h
  split at h
  · simp at h
  · next ctx body sessionID =>
      split at h
      · next hfresh =>
          obtain ⟨server, hserver, rfl⟩ := Option.map_eq_some_iff.mp h
          refine .request hserver rfl ?_ (by simp)
          obtain rfl := Option.some.inj hserver
          exact login_sessionsStep hfresh
      · simp at h
  · next ctx cookie =>
      obtain ⟨server, hserver, rfl⟩ := Option.map_eq_some_iff.mp h
      refine .request hserver rfl ?_ (by simp)
      obtain rfl := Option.some.inj hserver
      exact logout_sessionsStep
  · next hchange hlogin hlogout =>
      obtain ⟨server, hserver, rfl⟩ := Option.map_eq_some_iff.mp h
      exact .request hserver rfl (.of_serverStep hserver hlogin hlogout hchange) hchange

/-- **The inversion of the step function.** -/
theorem changeStep_cases {a : ChangeAction} (h : changeStep cfg w a = some w') :
    ChangeStep cfg w a w' := by
  cases a with
  | request a => exact requestStep_cases h
  | begin r ctx cookie body =>
      rw [changeStep, ChangeServer.beginStep.eq_def] at h
      split at h
      · simp at h
      · next hidle =>
          have hended : ∀ a : ChangeAction, a.WritesNothing → ChangeStep cfg w a w := by
            intro a ha
            have hnone : w.setCall r none = w := setCall_none (by simpa using hidle)
            have hstep : ChangeStep cfg w a (w.setCall r none) := .ended ha
            rwa [hnone] at hstep
          split at h
          · exact Option.some.inj h ▸ hended _ trivial
          · next userID hsession =>
              split at h
              · exact Option.some.inj h ▸ hended _ trivial
              · next current new =>
                  split at h
                  · exact Option.some.inj h ▸ hended _ trivial
                  · next hpolicy => exact Option.some.inj h ▸ .begun hsession hpolicy
  | read r ctx =>
      rw [changeStep, ChangeServer.readStep.eq_def] at h
      split at h
      · next call hcall =>
          split at h
          · exact Option.some.inj h ▸ .ended trivial
          · next user huser => exact Option.some.inj h ▸ .read hcall huser
      · simp at h
  | compare r ctx =>
      rw [changeStep, ChangeServer.compareStep.eq_def] at h
      split at h
      · next call username hcall =>
          split at h
          · exact Option.some.inj h ▸ .ended trivial
          · next hrejects =>
              exact Option.some.inj h ▸ .compared hcall (by simpa using hrejects)
      · simp at h
  | setPassword r ctx hash =>
      rw [changeStep, ChangeServer.setPasswordStep.eq_def] at h
      split at h
      · next call hcall =>
          split at h
          · next hfits =>
              cases hash with
              | none => exact Option.some.inj h ▸ .ended (Or.inl rfl)
              | some hash =>
                  rw [Option.bind_some, IdpForge.setPassword] at h
                  cases hfails : ctx.fails .setPassword with
                  | true =>
                      rw [if_pos hfails] at h
                      exact Option.some.inj h ▸ .ended (Or.inr hfails)
                  | false =>
                      rw [if_neg (by simp [hfails])] at h
                      exact Option.some.inj h ▸ .set hcall hfits hfails
          · simp at h
      · simp at h
  | clearFlag r ctx =>
      rw [changeStep, ChangeServer.clearFlagStep.eq_def] at h
      split at h
      · next call hcall =>
          obtain rfl := Option.some.inj h
          rw [ServerState.clearMustChangePassword]
          split
          · next hfails => exact .ended hfails
          · next hok => exact .cleared hcall (by simpa using hok)
      · simp at h

end Inversion

/-! ### The accounts -/

/-- The accounts and their keys are in order, and the users of the calls have drawn ids. -/
structure ChangeInv (w : ChangeServer) : Prop where
  accounts : AccountInv w.server
  keyed : UsersKeyed w.server.users
  calls : ∀ r call stage, w.calls r = some (call, stage) → call.userID ∈ w.server.userIDs

section Invariant

variable {cfg : AccountConfig} {w w' : ChangeServer} {r : Nat}

/-- A call moves on. -/
theorem ChangeInv.setCall (h : ChangeInv w) {entry : Option (PendingChange × ChangeStage)}
    (hentry : ∀ call stage, entry = some (call, stage) → call.userID ∈ w.server.userIDs) :
    ChangeInv (w.setCall r entry) where
  accounts := h.accounts
  keyed := h.keyed
  calls := by
    intro r' call stage hcall
    rcases update_eq_some_iff.mp hcall with ⟨-, hnew⟩ | ⟨-, hold⟩
    · exact hentry call stage hnew
    · exact h.calls r' call stage hold

/-- A call moves on for the same user. -/
theorem ChangeInv.goOn (h : ChangeInv w) {call : PendingChange} {stage stage' : ChangeStage}
    (hcall : w.calls r = some (call, stage)) : ChangeInv (w.setCall r (some (call, stage'))) := by
  refine h.setCall ?_
  rintro _ _ heq
  obtain ⟨rfl, -⟩ := Prod.mk.inj (Option.some.inj heq)
  exact h.calls r call stage hcall

/-- The password of a user is written. -/
theorem ChangeInv.setUsers (h : ChangeInv w) {id hash : String} {force : Bool} :
    ChangeInv (w.setUsers (updateWhere w.server.users id fun row =>
      row.withPassword w.now hash force)) where
  accounts := h.accounts.untouched (List.nil_subset _) (.ofUsers (map_id_updateWhere fun _ => rfl))
  keyed := h.keyed.updateWhere (fun _ => rfl) fun _ => rfl
  calls := h.calls

/-- **Every step keeps the invariant.** -/
theorem ChangeInv.step {a : ChangeAction} (h : ChangeInv w) (hstep : ChangeStep cfg w a w') :
    ChangeInv w' := by
  cases hstep with
  | request hserver hcalls hsessions ha =>
      have hserverStep := serverStep_cases hserver
      refine ⟨h.accounts.step hserverStep, h.keyed.step h.accounts.users (usersStep_cases hserver),
        fun r call stage hcall => ?_⟩
      rw [hcalls] at hcall
      exact hserverStep.userIDs (h.calls r call stage hcall)
  | ended => exact h.setCall (by simp)
  | begun hsession hpolicy =>
      obtain ⟨-, -, data, hdata, rfl⟩ := sessionUser_eq_some hsession
      refine h.setCall ?_
      rintro call stage heq
      obtain ⟨rfl, rfl⟩ := Prod.mk.inj (Option.some.inj heq)
      exact h.accounts.sessions _ data hdata
  | read hcall huser => exact h.goOn hcall
  | compared hcall hcurrent => exact h.goOn hcall
  | set hcall hhash hok => exact h.setUsers.goOn hcall
  | @cleared r _ _ hcall hok =>
      have hended : ChangeInv (w.setCall r none) := h.setCall (by simp)
      exact ⟨h.accounts.setSession _ (h.calls _ _ _ hcall), h.keyed, hended.calls⟩

/-- The invariant holds in every state of a run from the start. -/
theorem changeInv_run {now : Int} {clients : List OidcClient} {users : List UserRow}
    (hkeyed : UsersKeyed users) (hids : ∀ user ∈ users, user.id ≠ "") {as : List ChangeAction}
    (hrun : run (changeStep cfg) (.start now clients users) as = some w) : ChangeInv w :=
  run_invariant (fun _ _ _ hinv h => hinv.step (changeStep_cases h))
    ⟨accountInv_run hids (run_nil (serverStep cfg) _), hkeyed,
      by simp [ChangeServer.start]⟩ hrun

end Invariant

/-! ### An example server -/

/-- A server whose hashes show their passwords. -/
def exampleHashing : AccountConfig :=
  { exampleAccounts with
    defaultPassword := "changeme"
    verifyPassword := fun hash password => hash = "bcrypt:" ++ password }

/-- The server with a user who has the default password. -/
def exampleChangeServer : ChangeServer :=
  .start 0 [exampleClient] [{ exampleUser with passwordHash := some "bcrypt:changeme" }]

/-- The user logs in and changes the password, up to the last step. -/
def exampleChanging (newPassword : String) : List ChangeAction :=
  [.request (.login {} (some ⟨"alice", "changeme", ""⟩) "sid"),
    .begin 0 {} "sid" (some ("changeme", newPassword)), .read 0 {}, .compare 0 {},
    .setPassword 0 {} (some ("bcrypt:" ++ newPassword))]

end IdpForge
