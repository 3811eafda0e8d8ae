import IdpForge.Accounts
import IdpForge.OidcSteps

/-!
# What a Step of the Server Can Do

Most requests touch neither the sessions nor the provider: only a login, a logout and a
change of password write sessions, and only `handleAuthorize` begins a call of the provider.
The step function is read back as a relation with one constructor for each thing a step does
to the sessions, the provider, the history and the user ids.

## Main results

* `Untouched`: what the other requests keep, with one lemma for each handler.
* `ServerStep`, `serverStep_cases`: the inversion of `serverStep`.
* `accountInv_run`: the users of all rows and sessions are users whose ids were drawn, and
  no id is empty.
-/

open PartialMap TransitionSystem

namespace IdpForge

/-- The sessions, the provider, the history and the drawn ids are the same, and no row is new
but those with the ids of a list. -/
structure Untouched (new : List String) (s s' : ServerState) : Prop where
  sessions : s'.sessions = s.sessions
  oidc : s'.oidc = s.oidc
  history : s'.history = s.history
  userIDs : s'.userIDs = s.userIDs
  users : s'.users.map (·.id) ⊆ new ++ s.users.map (·.id)

namespace Untouched

variable {cfg : AccountConfig} {ctx : RequestContext} {s s' : ServerState} {new : List String}

/-- Nothing happens. -/
theorem refl (s : ServerState) : Untouched new s s :=
  ⟨rfl, rfl, rfl, rfl, List.subset_append_right _ _⟩

/-- The clock stands still. -/
theorem now (h : Untouched new s s') : s'.now = s.now := congrArg OidcState.now h.oidc

/-- The users table is written, the ids in it stay. -/
theorem ofUsers {rows : List UserRow} (h : rows.map (·.id) = s.users.map (·.id)) :
    Untouched [] s { s with users := rows } := ⟨rfl, rfl, rfl, rfl, h ▸ List.Subset.refl _⟩

/-- A failed login is counted. -/
theorem recordLoginFailure (username : String) :
    Untouched [] s (recordLoginFailure cfg ctx s username) := by
  rw [IdpForge.recordLoginFailure]
  split
  · exact refl s
  · dsimp only
    split <;> exact ⟨rfl, rfl, rfl, rfl, List.Subset.refl _⟩

/-- The counter of a user name is cleared. -/
theorem clearLoginFailures (username : String) :
    Untouched [] s (clearLoginFailures ctx s username) := by
  rw [IdpForge.clearLoginFailures]
  split
  · exact refl s
  · exact ⟨rfl, rfl, rfl, rfl, List.Subset.refl _⟩

/-- An account is created under its id. -/
theorem createAccount {body : Option CreateUserRequest} {id : String} {hash : Option String} :
    Untouched [id] s (createAccount cfg ctx s body id hash).2 := by
  rw [createAccount.eq_def]
  split
  · exact refl s
  · next req =>
      split
      · exact refl s
      · split
        · exact refl s
        · dsimp only
          split
          · exact refl s
          · next rows hrows =>
              obtain ⟨h, -, hcreate⟩ := Option.bind_eq_some_iff.mp hrows
              have hkeep : Untouched [id] s { s with users := rows } := by
                refine ⟨rfl, rfl, rfl, rfl, ?_⟩
                rw [usersCreate_ids hcreate]
                exact List.append_subset.mpr
                  ⟨List.subset_append_right _ _, List.subset_append_left _ _⟩
              split <;> exact hkeep

/-- `handleExternalCreateUser`. -/
theorem handleExternalCreateUser {client : ApiClient} {body : Option CreateUserRequest}
    {id : String} {hash : Option String} :
    Untouched [id] s (handleExternalCreateUser cfg ctx s client body id hash).2 := by
  rw [IdpForge.handleExternalCreateUser]
  split
  · exact refl s
  · exact createAccount

/-- `handleResetUserPassword`. -/
theorem handleResetUserPassword {id : String} {hash : Option String} :
    Untouched [] s (handleResetUserPassword cfg ctx s id hash).2 := by
  rw [handleResetUserPassword.eq_def]
  split
  · exact refl s
  · split
    · exact refl s
    · split
      · exact refl s
      · exact refl s
      · next rows hrows =>
          have hkeep : Untouched [] s { s with users := rows } :=
            ofUsers (assignDefaultPassword_ids hrows)
          split <;> exact hkeep

/-- `Update`, for both of its callers. -/
theorem updateAccount {id : String} {input : UpdateInput} :
    Untouched [] s (updateAccount ctx s id input).2 := by
  have hids : (usersUpdate ctx.fails s.users id input).2.map (·.id) = s.users.map (·.id) :=
    usersUpdate_ids
  rw [updateAccount.eq_def]
  split <;> next hupdate =>
    rw [hupdate] at hids
    exact ofUsers hids

/-- `handleUpdateUser`. -/
theorem handleUpdateUser {id : String} {body : Option UpdateInput} :
    Untouched [] s (handleUpdateUser ctx s id body).2 := by
  cases body with
  | none => exact refl s
  | some input => exact updateAccount

/-- `handleDeleteUser`. -/
theorem handleDeleteUser {id : String} : Untouched [] s (handleDeleteUser cfg ctx s id).2 := by
  rw [handleDeleteUser.eq_def]
  split
  · exact refl s
  · exact refl s
  · next rows hrows =>
      have hids : rows.map (·.id) ⊆ s.users.map (·.id) := by
        rw [(usersDelete_eq_rows hrows).2]
        exact List.map_subset _ (List.filter_subset_self _)
      dsimp only
      split <;> exact ⟨rfl, rfl, rfl, rfl, hids⟩

/-- `handleAddDeviceCredential`. -/
theorem handleAddDeviceCredential {userID id : String} {body : Option CredentialProof} :
    Untouched [] s (handleAddDeviceCredential cfg ctx s userID body id).2 := by
  rw [handleAddDeviceCredential.eq_def]
  split
  · exact refl s
  · split
    · exact refl s
    · dsimp only
      split
      · exact refl s
      · exact ⟨rfl, rfl, rfl, rfl, List.Subset.refl _⟩

/-- `handleDeleteDeviceCredential`. -/
theorem handleDeleteDeviceCredential {id : String} :
    Untouched [] s (handleDeleteDeviceCredential ctx s id).2 := by
  rw [IdpForge.handleDeleteDeviceCredential]
  split
  · exact refl s
  · exact ⟨rfl, rfl, rfl, rfl, List.Subset.refl _⟩

/-- A check-in. -/
theorem handleCheckin {c : Checkin} : Untouched [] s (s.handleCheckin cfg c).2 :=
  ⟨rfl, rfl, rfl, rfl, List.Subset.refl _⟩

end Untouched

/-- A drawn id is new and not empty, and is added to the drawn ones. -/
theorem drawUserID_eq_some {s s' : ServerState} {id : String} (h : s.drawUserID id = some s') :
    id ≠ "" ∧ id ∉ s.userIDs ∧ s' = { s with userIDs := id :: s.userIDs } := by
  rw [ServerState.drawUserID] at h
  split at h
  · simp at h
  · next hnew =>
      rw [not_or] at hnew
      exact ⟨hnew.1, hnew.2, (Option.some.inj h).symm⟩

/-! ### Logins and changes of password -/

/-- A session is written. -/
def ServerState.setSession (s : ServerState) (id : String) (data : SessionData) : ServerState :=
  { s with sessions := set s.sessions s.now id data sessionTTL }

section Sessions

variable {cfg : AccountConfig} {ctx : RequestContext} {s : ServerState}

/-- The request carries the user name and the password of a user, whose row can be read. -/
structure Presents (cfg : AccountConfig) (ctx : RequestContext) (s : ServerState)
    (req : LoginRequest) (user : UserRow) : Prop where
  row : s.users.find? (fun row => row.username = req.username) = some user
  hash : user.passwordHash.getD "" ≠ ""
  password : cfg.verifyPassword (user.passwordHash.getD "") req.password = true
  readHash : ctx.fails .passwordHash = false
  readRow : ctx.fails .getByUsername = false

/-- What a login takes: the user name is not locked, the captcha is solved, the password and
the second factor are those of the user, and the session can be stored. -/
structure Admits (cfg : AccountConfig) (ctx : RequestContext) (s : ServerState)
    (req : LoginRequest) (user : UserRow) : Prop where
  unlocked : accountLocked ctx s req.username = false
  captcha : ctx.captchaOK = true
  presents : Presents cfg ctx s req user
  factor : passesMFA ctx s user req.mfaCode = true
  stored : ctx.fails .storeSession = false

/-- The user of a password is in the table. -/
theorem Presents.mem {req : LoginRequest} {user : UserRow} (h : Presents cfg ctx s req user) :
    user ∈ s.users := List.mem_of_find?_eq_some h.row

/-- A request has the password of one user at most. -/
theorem Presents.unique {req : LoginRequest} {user user' : UserRow}
    (h : Presents cfg ctx s req user) (h' : Presents cfg ctx s req user') : user = user' :=
  Option.some.inj (h.row.symm.trans h'.row)

/-- The user of a password is found. -/
theorem Presents.findByPassword {req : LoginRequest} {user : UserRow}
    (h : Presents cfg ctx s req user) :
    findByPassword cfg ctx s req.username req.password = .ok user := by
  simp [IdpForge.findByPassword, passwordHash, getByUsername, h.readHash, h.readRow, h.row,
    h.hash, h.password]

/-- A user name and a password find the user they are of. -/
theorem findByPassword_eq_ok {req : LoginRequest} {user : UserRow}
    (h : findByPassword cfg ctx s req.username req.password = .ok user) :
    Presents cfg ctx s req user := by
  rw [findByPassword.eq_def] at h
  split at h
  · simp at h
  · next hash hhash =>
      split at h
      · simp at h
      · next hfits =>
          split at h
          · simp at h
          · next row hrow =>
              obtain rfl := Except.ok.inj h
              rw [getByUsername] at hrow
              rw [passwordHash] at hhash
              split at hrow
              · simp at hrow
              · next hreadRow =>
                  split at hhash
                  · simp at hhash
                  · next hreadHash =>
                      rw [hrow] at hhash
                      obtain rfl := Option.some.inj hhash
                      simp only [Bool.or_eq_true, decide_eq_true_eq, Bool.not_eq_true', not_or,
                        Bool.not_eq_false] at hfits
                      exact ⟨hrow, hfits.1, hfits.2, by simpa using hreadHash,
                        by simpa using hreadRow⟩

/-- A login fails and leaves the sessions alone, or gets past its checks and creates a
session for its user. -/
theorem handleLogin_spec (body : Option LoginRequest) (sessionID : String) :
    (∃ e, (handleLogin cfg ctx s body sessionID).1 = .error e ∧
      Untouched [] s (handleLogin cfg ctx s body sessionID).2) ∨
    ∃ req user changeRequired s', body = some req ∧ Admits cfg ctx s req user ∧
      Untouched [] s s' ∧ handleLogin cfg ctx s body sessionID =
        (.ok ⟨user.id, user.mfaEnabled, changeRequired⟩,
          s'.setSession sessionID ⟨user.id, changeRequired⟩) := by
  rw [handleLogin.eq_def]
  split
  · exact Or.inl ⟨_, rfl, .refl s⟩
  · next req =>
      split
      · exact Or.inl ⟨_, rfl, .refl s⟩
      · next hunlocked =>
          split
          · exact Or.inl ⟨_, rfl, .refl s⟩
          · next hcaptcha =>
              split
              · next counted hfind =>
                  refine Or.inl ⟨_, rfl, ?_⟩
                  cases counted with
                  | true => exact .recordLoginFailure _
                  | false => exact .refl s
              · next user hfind =>
                  split
                  · exact Or.inl ⟨_, rfl, .recordLoginFailure _⟩
                  · next hfactor =>
                      have hclear : Untouched [] s (clearLoginFailures ctx s req.username) :=
                        .clearLoginFailures _
                      dsimp only
                      rw [ServerState.createSession]
                      split
                      · exact Or.inl ⟨_, rfl, hclear⟩
                      · next s'' hs'' =>
                          split at hs''
                          · simp at hs''
                          · next hstored =>
                              obtain rfl := Option.some.inj hs''
                              exact Or.inr ⟨req, user, _, _, rfl,
                                ⟨by simpa using hunlocked, by simpa using hcaptcha,
                                  findByPassword_eq_ok hfind, by simpa using hfactor,
                                  by simpa using hstored⟩, hclear, rfl⟩

/-- A login that gets past its checks succeeds. -/
theorem Admits.handleLogin {req : LoginRequest} {user : UserRow}
    (h : Admits cfg ctx s req user) (sessionID : String) :
    ∃ resp s', handleLogin cfg ctx s (some req) sessionID = (.ok resp, s') ∧
      resp.userID = user.id ∧ s'.history = s.history := by
  have hclear : Untouched [] s (clearLoginFailures ctx s req.username) :=
    .clearLoginFailures _
  simp only [IdpForge.handleLogin, h.unlocked, h.captcha, h.presents.findByPassword, h.factor,
    ServerState.createSession, h.stored, Bool.not_true, Bool.false_eq_true, if_false]
  exact ⟨_, _, rfl, rfl, hclear.history⟩

/-- A change of password writes the row of the user and the session of the cookie, which the
user has already. -/
theorem handleChangePassword_spec (cookie : String) (body : Option (String × String))
    (hash : Option String) :
    (handleChangePassword cfg ctx s cookie body hash).2 = s ∨
    ∃ userID s', s.sessionUser ctx cookie = some userID ∧ Untouched [] s s' ∧
      (handleChangePassword cfg ctx s cookie body hash).2 =
        s'.clearMustChangePassword ctx cookie userID := by
  rw [handleChangePassword.eq_def]
  split
  · exact Or.inl rfl
  · next userID hsession =>
      split
      · exact Or.inl rfl
      · split
        · exact Or.inl rfl
        · split
          · exact Or.inl rfl
          · dsimp only
            split
            · exact Or.inl rfl
            · split
              · exact Or.inl rfl
              · next rows hrows =>
                  obtain ⟨h, -, hset⟩ := Option.bind_eq_some_iff.mp hrows
                  exact Or.inr ⟨userID, _, hsession,
                    .ofUsers (setPassword_ids hset), rfl⟩

end Sessions

/-! ### One step -/

/-- What a request records when it succeeds. -/
inductive Recorded (cfg : AccountConfig) (s : ServerState) : ServerAction → ServerEvent → Prop
  | login {ctx : RequestContext} {req : LoginRequest} {sessionID : String} {user : UserRow}
      (h : Admits cfg ctx s req user) :
      Recorded cfg s (.login ctx (some req) sessionID) (.loggedIn user.id)
  | externalLogin {ctx : RequestContext} {req : LoginRequest} {user : UserRow}
      (h : Presents cfg ctx s req user) :
      Recorded cfg s (.externalLogin ctx (some req)) (.externallyLoggedIn user.id)
  | checkin {c : Checkin} {resp : CheckinResponse} (h : (s.handleCheckin cfg c).1 = .ok resp) :
      Recorded cfg s (.checkin c) (.checkedIn resp.userID resp.allowed)
  | offboardUser {ctx : RequestContext} {id : String} {user : UserRow}
      (h : (handleOffboardUser ctx s id).1 = .ok user) :
      Recorded cfg s (.offboardUser ctx id) (.offboarded user.id)
  | deleteUser {ctx : RequestContext} {id : String}
      (h : (handleDeleteUser cfg ctx s id).1 = .ok ()) :
      Recorded cfg s (.deleteUser ctx id) (.deleted id)

/-- What a step can do to the sessions, the provider, the history and the user ids. -/
inductive ServerStep (cfg : AccountConfig) (s : ServerState) :
    ServerAction → ServerState → Prop
  | quiet {a : ServerAction} {s' : ServerState} (h : Untouched [] s s') : ServerStep cfg s a s'
  | recorded {a : ServerAction} {s' : ServerState} {e : ServerEvent} (h : Untouched [] s s')
      (he : Recorded cfg s a e) : ServerStep cfg s a (s'.record e)
  /-- A user id is drawn before the handler runs. -/
  | create {a : ServerAction} {id : String} {s₁ s' : ServerState}
      (hdraw : s.drawUserID id = some s₁) (h : Untouched [id] s₁ s') : ServerStep cfg s a s'
  | login {ctx : RequestContext} {req : LoginRequest} {sessionID : String} {user : UserRow}
      {must : Bool} {s' : ServerState} (hadmits : Admits cfg ctx s req user)
      (h : Untouched [] s s') :
      ServerStep cfg s (.login ctx (some req) sessionID)
        ((s'.setSession sessionID ⟨user.id, must⟩).record (.loggedIn user.id))
  | logout {ctx : RequestContext} {cookie : String} :
      ServerStep cfg s (.logout ctx cookie) { s with sessions := delete s.sessions cookie }
  | changePassword {ctx : RequestContext} {cookie : String} {body : Option (String × String)}
      {hash : Option String} {userID : String} {s' : ServerState}
      (hsession : s.sessionUser ctx cookie = some userID) (h : Untouched [] s s') :
      ServerStep cfg s (.changePassword ctx cookie body hash)
        (s'.setSession cookie ⟨userID, false⟩)
  /-- A step of the provider; the calls of `Authorize` are begun by users with a session. -/
  | provider {a : ServerAction} {a' : OidcAction} {oidc : OidcState}
      (h : OidcStep cfg.oidc s.oidc a' oidc)
      (hauthorize : ∀ id req code, a' = .authorize id req code →
        ∃ ctx cookie, s.sessionUser ctx cookie = some req.userID) :
      ServerStep cfg s a { s with oidc := oidc }

section Step

variable {cfg : AccountConfig} {s s' : ServerState}

/-- A request that records its success, if it has any. -/
theorem conclude_cases {a : ServerAction} {α : Type} {reply : Reply α} {event : α → ServerEvent}
    (h : Untouched [] s reply.2) (hrecorded : ∀ x, reply.1 = .ok x → Recorded cfg s a (event x)) :
    ServerStep cfg s a (conclude reply event) := by
  obtain ⟨answer, s'⟩ := reply
  cases answer with
  | error e => exact .quiet h
  | ok x => exact .recorded h (hrecorded x rfl)

/-- A login. -/
theorem login_cases {ctx : RequestContext} {body : Option LoginRequest} {sessionID : String} :
    ServerStep cfg s (.login ctx body sessionID)
      (conclude (handleLogin cfg ctx s body sessionID) fun resp => .loggedIn resp.userID) := by
  obtain ⟨e, he, h⟩ | ⟨req, user, must, s', rfl, hadmits, h, heq⟩ :=
    handleLogin_spec (s := s) body sessionID
  · exact conclude_cases h fun resp hresp => by simp [he] at hresp
  · rw [heq]
    exact .login hadmits h

/-- An external login takes the password of its user. -/
theorem handleExternalLogin_eq_ok {ctx : RequestContext} {body : Option LoginRequest}
    {user : UserRow} (h : handleExternalLogin cfg ctx s body = .ok user) :
    ∃ req, body = some req ∧ Presents cfg ctx s req user := by
  rw [handleExternalLogin.eq_def] at h
  split at h
  · simp [newError] at h
  · next req =>
      split at h
      · simp [newError] at h
      · next row hrow => exact ⟨req, rfl, Except.ok.inj h ▸ findByPassword_eq_ok hrow⟩

/-- A logout. -/
theorem logout_cases {ctx : RequestContext} {cookie : String} :
    ServerStep cfg s (.logout ctx cookie) (handleLogout ctx s cookie) := by
  rw [handleLogout]
  split
  · exact .quiet (.refl s)
  · rw [ServerState.destroySession]
    split
    · exact .quiet (.refl s)
    · exact .logout

/-- A change of password. -/
theorem changePassword_cases {ctx : RequestContext} {cookie : String}
    {body : Option (String × String)} {hash : Option String} :
    ServerStep cfg s (.changePassword ctx cookie body hash)
      (handleChangePassword cfg ctx s cookie body hash).2 := by
  obtain heq | ⟨userID, s', hsession, h, heq⟩ :=
    handleChangePassword_spec (s := s) cookie body hash
  · exact heq.symm ▸ .quiet (.refl s)
  · rw [heq, ServerState.clearMustChangePassword]
    split
    · exact .quiet h
    · exact .changePassword hsession h

/-- `handleAuthorize` asks for a code for the user of the session. -/
theorem handleAuthorize_eq_code {ctx : RequestContext} {cookie : String} {q : AuthorizeQuery}
    {req : AuthorizeRequest} (h : handleAuthorize ctx s cookie q = .code req) :
    s.sessionUser ctx cookie = some req.userID := by
  rw [handleAuthorize.eq_def] at h
  split at h
  · simp at h
  · split at h
    · simp at h
    · next userID hsession =>
        split at h
        · simp at h
        · split at h
          · simp at h
          · split at h
            · simp at h
            · exact AuthorizeAnswer.code.inj h ▸ hsession

/-- **The inversion of the step function.** -/
theorem serverStep_cases {a : ServerAction} (h : serverStep cfg s a = some s') :
    ServerStep cfg s a s' := by
  cases a with
  | login ctx body sessionID => exact Option.some.inj h ▸ login_cases
  | externalLogin ctx body =>
      refine Option.some.inj h ▸ conclude_cases (.refl s) fun user huser => ?_
      obtain ⟨req, rfl, hpresents⟩ := handleExternalLogin_eq_ok huser
      exact .externalLogin hpresents
  | logout ctx cookie => exact Option.some.inj h ▸ logout_cases
  | changePassword ctx cookie body hash =>
      rw [serverStep] at h
      split at h
      · exact Option.some.inj h ▸ changePassword_cases
      · simp at h
  | createUser ctx body id hash =>
      rw [serverStep] at h
      split at h
      · obtain ⟨s₁, hdraw, rfl⟩ := Option.map_eq_some_iff.mp h
        exact .create hdraw .createAccount
      · simp at h
  | externalCreateUser ctx client body id hash =>
      rw [serverStep] at h
      split at h
      · obtain ⟨s₁, hdraw, rfl⟩ := Option.map_eq_some_iff.mp h
        exact .create hdraw .handleExternalCreateUser
      · simp at h
  | resetUserPassword ctx id hash =>
      rw [serverStep] at h
      split at h
      · exact Option.some.inj h ▸ .quiet .handleResetUserPassword
      · simp at h
  | updateUser ctx id body => exact Option.some.inj h ▸ .quiet .handleUpdateUser
  | offboardUser ctx id =>
      exact Option.some.inj h ▸ conclude_cases .updateAccount fun user huser =>
        .offboardUser huser
  | deleteUser ctx id =>
      exact Option.some.inj h ▸ conclude_cases .handleDeleteUser fun u hu => .deleteUser hu
  | setFactors id mfaSecret mfaEnabled =>
      exact Option.some.inj h ▸ .quiet (.ofUsers (map_id_updateWhere fun _ => rfl))
  | addDeviceCredential ctx userID body id =>
      exact Option.some.inj h ▸ .quiet .handleAddDeviceCredential
  | deleteDeviceCredential ctx id =>
      exact Option.some.inj h ▸ .quiet .handleDeleteDeviceCredential
  | checkin c =>
      exact Option.some.inj h ▸ conclude_cases .handleCheckin fun resp hresp => .checkin hresp
  | authorize ctx cookie q id code =>
      rw [serverStep, authorizeServerStep] at h
      split at h
      · next req hreq =>
          obtain ⟨oidc, hoidc, rfl⟩ := Option.map_eq_some_iff.mp h
          refine .provider (oidcStep_cases hoidc) fun id' req' code' heq => ?_
          obtain ⟨rfl, rfl, rfl⟩ := OidcAction.authorize.inj heq
          exact ⟨ctx, cookie, handleAuthorize_eq_code hreq⟩
      · exact Option.some.inj h ▸ .quiet (.refl s)
  | oidc a =>
      rw [serverStep, ServerState.oidcStep.eq_def] at h
      split at h
      · simp at h
      · next hne =>
          obtain ⟨oidc, hoidc, rfl⟩ := Option.map_eq_some_iff.mp h
          exact .provider (oidcStep_cases hoidc) fun id req code heq => absurd heq (hne id req code)

/-- A step adds one event to the history at most. -/
theorem ServerStep.history {a : ServerAction} (h : ServerStep cfg s a s') :
    GrewBy (fun _ => True) s.history s'.history := by
  cases h with
  | quiet h => exact h.history ▸ .refl _
  | @recorded _ s' _ h =>
      have hsame : GrewBy (fun _ => True) s.history s'.history := h.history ▸ .refl _
      exact hsame.cons trivial
  | create hdraw h =>
      obtain ⟨-, -, rfl⟩ := drawUserID_eq_some hdraw
      exact h.history ▸ .refl _
  | @login _ _ _ _ _ s' hadmits h =>
      have hsame : GrewBy (fun _ => True) s.history s'.history := h.history ▸ .refl _
      exact hsame.cons trivial
  | logout => exact .refl _
  | @changePassword _ _ _ _ _ s' _ h =>
      have hsame : GrewBy (fun _ => True) s.history s'.history := h.history ▸ .refl _
      exact hsame
  | provider => exact .refl _

/-- Drawn ids stay drawn. -/
theorem ServerStep.userIDs {a : ServerAction} (h : ServerStep cfg s a s') :
    s.userIDs ⊆ s'.userIDs := by
  cases h with
  | quiet h => exact h.userIDs ▸ List.Subset.refl _
  | @recorded _ s' _ h => exact (h.userIDs ▸ List.Subset.refl _ : s.userIDs ⊆ s'.userIDs)
  | create hdraw h =>
      obtain ⟨-, -, rfl⟩ := drawUserID_eq_some hdraw
      exact h.userIDs ▸ List.subset_cons_self _ _
  | @login _ _ _ _ _ s' hadmits h =>
      exact (h.userIDs ▸ List.Subset.refl _ : s.userIDs ⊆ s'.userIDs)
  | logout => exact List.Subset.refl _
  | @changePassword _ _ _ _ _ s' _ h =>
      exact (h.userIDs ▸ List.Subset.refl _ : s.userIDs ⊆ s'.userIDs)
  | provider => exact List.Subset.refl _

end Step

/-! ### The ids of users -/

/-- The users of all rows and sessions have drawn ids, and no id is empty. -/
structure AccountInv (s : ServerState) : Prop where
  nonempty : "" ∉ s.userIDs
  users : s.users.map (·.id) ⊆ s.userIDs
  sessions : ∀ id data, get s.sessions s.now id = some data → data.userID ∈ s.userIDs

section Invariant

variable {cfg : AccountConfig} {s s' : ServerState}

/-- The user of a session is in the session that the store finds. -/
theorem sessionUser_eq_some {ctx : RequestContext} {cookie userID : String}
    (h : s.sessionUser ctx cookie = some userID) :
    cookie ≠ "" ∧ ctx.fails .readSession = false ∧
      ∃ data, get s.sessions s.now cookie = some data ∧ data.userID = userID := by
  rw [ServerState.sessionUser] at h
  split at h
  · simp at h
  · next hcookie =>
      obtain ⟨data, hdata, huser⟩ := Option.map_eq_some_iff.mp h
      rw [ServerState.getFull] at hdata
      split at hdata
      · simp at hdata
      · next hread => exact ⟨hcookie, by simpa using hread, data, hdata, huser⟩

/-- Requests that write no session keep the invariant. -/
theorem AccountInv.untouched {new : List String} (hinv : AccountInv s) (hnew : new ⊆ s.userIDs)
    (h : Untouched new s s') : AccountInv s' where
  nonempty := h.userIDs ▸ hinv.nonempty
  users := by
    rw [h.userIDs]
    exact List.Subset.trans h.users (List.append_subset.mpr ⟨hnew, hinv.users⟩)
  sessions := by
    rw [h.sessions, h.now, h.userIDs]
    exact hinv.sessions

/-- A session of a known user keeps the invariant. -/
theorem AccountInv.setSession (hinv : AccountInv s) (id : String) {data : SessionData}
    (huser : data.userID ∈ s.userIDs) : AccountInv (s.setSession id data) where
  nonempty := hinv.nonempty
  users := hinv.users
  sessions := forall_get_set huser hinv.sessions

/-- A drawn id keeps the invariant. -/
theorem AccountInv.drawUserID (hinv : AccountInv s) {id : String}
    (h : s.drawUserID id = some s') : AccountInv s' ∧ id ∈ s'.userIDs := by
  obtain ⟨hne, -, rfl⟩ := drawUserID_eq_some h
  refine ⟨⟨?_, List.Subset.trans hinv.users (List.subset_cons_self _ _), ?_⟩, List.mem_cons_self⟩
  · simpa [eq_comm, hne] using hinv.nonempty
  · exact fun id' data hget => List.mem_cons_of_mem _ (hinv.sessions id' data hget)

/-- Every step keeps the invariant. -/
theorem AccountInv.step {a : ServerAction} (hinv : AccountInv s) (h : ServerStep cfg s a s') :
    AccountInv s' := by
  cases h with
  | quiet h => exact hinv.untouched (List.nil_subset _) h
  | recorded h =>
      obtain ⟨hnonempty, husers, hsessions⟩ := hinv.untouched (List.nil_subset _) h
      exact ⟨hnonempty, husers, hsessions⟩
  | create hdraw h =>
      obtain ⟨hdrawn, hmem⟩ := hinv.drawUserID hdraw
      exact hdrawn.untouched (by simpa using hmem) h
  | @login _ _ sessionID user must s' hadmits h =>
      have hmem : (SessionData.mk user.id must).userID ∈ s'.userIDs := h.userIDs ▸
        hinv.users (List.mem_map.mpr ⟨user, hadmits.presents.mem, rfl⟩)
      obtain ⟨hnonempty, husers, hsessions⟩ :=
        (hinv.untouched (List.nil_subset _) h).setSession sessionID hmem
      exact ⟨hnonempty, husers, hsessions⟩
  | logout =>
      exact ⟨hinv.nonempty, hinv.users, forall_get_delete hinv.sessions⟩
  | changePassword hsession h =>
      obtain ⟨-, -, data, hdata, rfl⟩ := sessionUser_eq_some hsession
      exact (hinv.untouched (List.nil_subset _) h).setSession _
        (h.userIDs ▸ hinv.sessions _ data hdata)
  | provider h =>
      exact ⟨hinv.nonempty, hinv.users,
        fun id data hget => hinv.sessions id data (get_of_le h.now_le hget)⟩

/-- The invariant holds in every state of a run from the start. -/
theorem accountInv_run {now : Int} {clients : List OidcClient} {users : List UserRow}
    (hids : ∀ user ∈ users, user.id ≠ "") {as : List ServerAction}
    (hrun : run (serverStep cfg) (ServerState.start now clients users) as = some s) :
    AccountInv s := by
  refine run_invariant (fun _ _ _ hinv h => hinv.step (serverStep_cases h))
    ⟨?_, List.Subset.refl _, ?_⟩ hrun
  · intro hempty
    obtain ⟨user, huser, hid⟩ := List.mem_map.mp hempty
    exact hids user huser hid
  · intro id data hget
    simp [ServerState.start, PartialMap.get] at hget

end Invariant

end IdpForge
