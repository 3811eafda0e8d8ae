import IdpForge.DeviceCheckin
import IdpForge.OidcProvider
import IdpForge.Router
import IdpForge.Users

/-!
# Accounts, Sessions and the Handlers on Them

The state behind the accounts: the users table, the sessions and the lockout counters in the
cache, the device credentials, and the OpenID Connect provider. Each request is one step,
save for the calls of the provider, which take a step for each cache operation. The history
records what a user was let in by.

Times are in seconds, on the clock of the provider. A request carries what it meets outside
this state: the operations that fail, the answers of the captcha service, of the resolver
and of the TOTP library. New ids, session ids and password hashes are arguments of the
steps that draw them.

## Main definitions

* `handleLogin`, `handleExternalLogin`, `handleAuthorize`, `handleForwardAuth`,
  `handleChangePassword` and the handlers of the user administration.
* `serverStep`: the step function.
-/

open PartialMap TransitionSystem

namespace IdpForge

/-- `sessionData`. -/
structure SessionData where
  userID : String
  mustChangePassword : Bool
  deriving DecidableEq, Repr

/-- `sessionTTL`. -/
def sessionTTL : Int := 28800

/-- The configuration of accounts, with the libraries they use. -/
structure AccountConfig where
  oidc : OidcConfig
  driver : DBDriver
  defaultPassword : String
  passwordExpiryDays : Int
  maxAttempts : Int
  window : Int
  duration : Int
  policy : PasswordPolicy
  unicode : UnicodeClasses
  /-- `bcrypt.CompareHashAndPassword` accepts the hash and the password. -/
  verifyPassword : String → String → Bool

/-- A hash drawn for a password is one of it; `none` stands for an error of bcrypt. -/
def AccountConfig.hashes (cfg : AccountConfig) (password : String) (hash : Option String) :
    Bool :=
  hash.all fun h => cfg.verifyPassword h password

/-- What a request meets outside the server's state. -/
structure RequestContext where
  fails : StoreOp → Bool := fun _ => false
  /-- `captcha.Verify` accepts the token. -/
  captchaOK : Bool := true
  /-- `totp.Validate`, at the time of the request. -/
  totpValidate : String → String → Bool := fun _ _ => false
  resolve : String → Option Resolved := fun _ => none

/-- What the history records of the successful requests. -/
inductive ServerEvent where
  | loggedIn (userID : String)
  | externallyLoggedIn (userID : String)
  | checkedIn (userID : String) (allowed : Bool)
  | offboarded (userID : String)
  | deleted (userID : String)
  deriving DecidableEq, Repr

/-- The state of the server. `userIDs` lists the user ids drawn so far, and the history has
the latest event first. -/
structure ServerState where
  users : List UserRow
  userIDs : List String
  credentials : List DeviceCredential
  deviceEvents : List EventRow
  sessions : Expiring String SessionData
  loginFailures : Expiring String Nat
  loginLocks : Expiring String Unit
  oidc : OidcState
  history : List ServerEvent

/-- The clock. -/
def ServerState.now (s : ServerState) : Int := s.oidc.now

/-- The answer of a handler, and the state it leaves. -/
abbrev Reply (α : Type) := Except FiberError α × ServerState

/-! ### Sessions -/

section Sessions

variable (ctx : RequestContext) (s : ServerState)

/-- `getFull`, `none` when it fails or finds nothing. -/
def ServerState.getFull (cookie : String) : Option SessionData :=
  if ctx.fails .readSession then none else get s.sessions s.now cookie

/-- `get`. -/
def ServerState.sessionsGet (cookie : String) : Option String :=
  (s.getFull ctx cookie).map (·.userID)

/-- The user of the session of a cookie, which is empty when it is not sent. -/
def ServerState.sessionUser (cookie : String) : Option String :=
  if cookie = "" then none else s.sessionsGet ctx cookie

/-- `create`, under a fresh id. -/
def ServerState.createSession (id userID : String) (mustChangePassword : Bool) :
    Option ServerState :=
  if ctx.fails .storeSession then none
  else
    some { s with sessions := set s.sessions s.now id ⟨userID, mustChangePassword⟩ sessionTTL }

/-- `clearMustChangePassword`. -/
def ServerState.clearMustChangePassword (id userID : String) : ServerState :=
  if ctx.fails .storeSession then s
  else { s with sessions := set s.sessions s.now id ⟨userID, false⟩ sessionTTL }

/-- `destroy`. -/
def ServerState.destroySession (id : String) : ServerState :=
  if ctx.fails .destroySession then s else { s with sessions := delete s.sessions id }

end Sessions

/-! ### Logging in -/

/-- `loginRequest`, without the captcha token. -/
structure LoginRequest where
  username : String
  password : String
  mfaCode : String := ""
  deriving DecidableEq, Repr

/-- The answer to a login. -/
structure LoginResponse where
  userID : String
  mfaRequired : Bool
  passwordChangeRequired : Bool
  deriving DecidableEq, Repr

section Login

variable (cfg : AccountConfig) (ctx : RequestContext) (s : ServerState)

/-- `accountLocked`. -/
def accountLocked (username : String) : Bool :=
  !ctx.fails .readLock && (get s.loginLocks s.now username).isSome

/-- `recordLoginFailure`. -/
def recordLoginFailure (username : String) : ServerState :=
  if cfg.maxAttempts ≤ 0 || ctx.fails .increment then s
  else
    let counted := increment s.loginFailures s.now username cfg.window
    let s' := { s with loginFailures := counted.2 }
    if (counted.1 : Int) < cfg.maxAttempts || ctx.fails .writeLock then s'
    else { s' with loginLocks := set s.loginLocks s.now username () cfg.duration }

/-- `clearLoginFailures`. -/
def clearLoginFailures (username : String) : ServerState :=
  if ctx.fails .clearFailures then s
  else { s with
    loginFailures := delete s.loginFailures username
    loginLocks := delete s.loginLocks username }

/-- `passwordExpired`. -/
def passwordExpired (userID : String) : Bool :=
  if cfg.passwordExpiryDays ≤ 0 then false
  else
    match passwordAge ctx.fails s.users s.now userID with
    | none => false
    | some age => cfg.passwordExpiryDays * 86400 < age

/-- `passwordChangeRequired`. -/
def passwordChangeRequired (userID : String) (forced : Bool) : Bool :=
  forced || passwordExpired cfg ctx s userID

/-- The user of a name and a password, which both kinds of login look up in the same way. An
error says whether `handleLogin` counts it as a failed attempt. -/
def findByPassword (username password : String) : Except Bool UserRow :=
  match passwordHash ctx.fails s.users username with
  | none => .error true
  | some hash =>
      if hash = "" || !cfg.verifyPassword hash password then .error true
      else
        match getByUsername ctx.fails s.users username with
        | none => .error false
        | some user => .ok user

/-- The second factor of a login. -/
def passesMFA (user : UserRow) (code : String) : Bool :=
  !user.mfaEnabled ||
    (mfaVerify ctx.fails s.users ctx.totpValidate user.id code).getD false

/-- `handleLogin`; the body is `none` when it does not parse. -/
def handleLogin (body : Option LoginRequest) (sessionID : String) : Reply LoginResponse :=
  match body with
  | none => (newError 400 "invalid request body", s)
  | some req =>
      if accountLocked ctx s req.username then
        (newError 429 "too many failed attempts, try again later", s)
      else if !ctx.captchaOK then (newError 403 "captcha verification failed", s)
      else
        match findByPassword cfg ctx s req.username req.password with
        | .error counted =>
            (newError 401 "invalid credentials",
              if counted then recordLoginFailure cfg ctx s req.username else s)
        | .ok user =>
            if !passesMFA ctx s user req.mfaCode then
              (newError 401 "invalid MFA code", recordLoginFailure cfg ctx s req.username)
            else
              let s' := clearLoginFailures ctx s req.username
              let changeRequired := passwordChangeRequired cfg ctx s user.id
                user.forcePasswordChange
              match s'.createSession ctx sessionID user.id changeRequired with
              | none => (newError 500 "could not create session", s')
              | some s'' => (.ok ⟨user.id, user.mfaEnabled, changeRequired⟩, s'')

/-- `handleExternalLogin` for an admitted API client, which is shown some of the user's
fields. -/
def handleExternalLogin (body : Option LoginRequest) : Except FiberError UserRow :=
  match body with
  | none => newError 400 "invalid request body"
  | some req =>
      match findByPassword cfg ctx s req.username req.password with
      | .error _ => newError 401 "invalid credentials"
      | .ok user => .ok user

/-- `handleLogout`. -/
def handleLogout (cookie : String) : ServerState :=
  if cookie = "" then s else s.destroySession ctx cookie

/-- `handleChangePassword`, for the user of a session; the middleware refuses the others. -/
def handleChangePassword (cookie : String) (body : Option (String × String))
    (hash : Option String) : Reply Unit :=
  match s.sessionUser ctx cookie with
  | none => (newError 401 "not authenticated", s)
  | some userID =>
      match body with
      | none => (newError 400 "invalid request body", s)
      | some (currentPassword, newPassword) =>
          match validatePassword cfg.unicode cfg.policy newPassword with
          | .error e => (newError 400 e, s)
          | .ok () =>
              match usersGet ctx.fails s.users userID with
              | none => (newError 404 "user not found", s)
              | some user =>
                  let current := (passwordHash ctx.fails s.users user.username).getD ""
                  if current = "" || !cfg.verifyPassword current currentPassword then
                    (newError 401 "current password is incorrect", s)
                  else
                    match hash.bind (setPassword ctx.fails s.users s.now userID) with
                    | none => (newError 500 "could not change password", s)
                    | some rows =>
                        (.ok (), { s with users := rows }.clearMustChangePassword ctx cookie
                          userID)

end Login

/-! ### The user administration -/

/-- `createUserRequest` and `externalCreateUserRequest`. -/
structure CreateUserRequest where
  username : String
  email : String
  employeeID : String := ""
  deriving DecidableEq, Repr

section Administration

variable (cfg : AccountConfig) (ctx : RequestContext) (s : ServerState)

/-- The creation of an account with the default password, which both kinds of request come
to. -/
def createAccount (body : Option CreateUserRequest) (id : String) (hash : Option String) :
    Reply UserRow :=
  match body with
  | none => (newError 400 "invalid request body", s)
  | some req =>
      if req.username = "" ∨ req.email = "" then
        (newError 400 "username and email are required", s)
      else if cfg.defaultPassword = "" then
        (newError 503 "IDPFORGE_DEFAULT_PASSWORD is not configured", s)
      else
        let conflict :=
          newError 409 "could not create user (username, email, or employee ID already in use?)"
        match hash.bind (usersCreate ctx.fails s.users s.now id req.username req.email
            req.employeeID) with
        | none => (conflict, s)
        | some rows =>
            match usersGet ctx.fails rows id with
            | none => (conflict, { s with users := rows })
            | some user => (.ok user, { s with users := rows })

/-- `handleCreateUser`. -/
def handleCreateUser (body : Option CreateUserRequest) (id : String) (hash : Option String) :
    Reply UserRow :=
  createAccount cfg ctx s body id hash

/-- `handleExternalCreateUser`. -/
def handleExternalCreateUser (client : ApiClient) (body : Option CreateUserRequest)
    (id : String) (hash : Option String) : Reply UserRow :=
  if !client.hasScope "users" "manage" then
    (newError 403 "this API client is not scoped for users:manage", s)
  else createAccount cfg ctx s body id hash

/-- `handleResetUserPassword`. -/
def handleResetUserPassword (id : String) (hash : Option String) : Reply UserRow :=
  if cfg.defaultPassword = "" then
    (newError 503 "IDPFORGE_DEFAULT_PASSWORD is not configured", s)
  else
    match hash with
    | none => (newError 500 "could not reset password", s)
    | some hash =>
        match assignDefaultPassword ctx.fails s.users s.now id hash with
        | .failed => (newError 500 "could not reset password", s)
        | .noRows => (newError 404 "user not found", s)
        | .rows rows =>
            match usersGet ctx.fails rows id with
            | none => (newError 404 "user not found", { s with users := rows })
            | some user => (.ok user, { s with users := rows })

/-- `Update`, with the error both of its callers answer. -/
def updateAccount (id : String) (input : UpdateInput) : Reply UserRow :=
  match usersUpdate ctx.fails s.users id input with
  | (none, rows) => (newError 404 "user not found", { s with users := rows })
  | (some user, rows) => (.ok user, { s with users := rows })

/-- `handleUpdateUser`. -/
def handleUpdateUser (id : String) (body : Option UpdateInput) : Reply UserRow :=
  match body with
  | none => (newError 400 "invalid request body", s)
  | some input => updateAccount ctx s id input

/-- `handleOffboardUser`. Its invalidation of the cached permissions is left to the
resolver's answers. -/
def handleOffboardUser (id : String) : Reply UserRow :=
  updateAccount ctx s id { status := some statusDisabled }

/-- `handleDeleteUser`. Where references are enforced, the device credentials of the user go
as well, and the events lose their user. -/
def handleDeleteUser (id : String) : Reply Unit :=
  match usersDelete ctx.fails s.users id with
  | .failed => (newError 404 "user not found", s)
  | .noRows => (newError 404 "user not found", s)
  | .rows rows =>
      (.ok (),
        if cfg.driver.enforcesReferences then
          { s with
            users := rows
            credentials := s.credentials.filter fun c => c.userID ≠ id
            deviceEvents := s.deviceEvents.map fun row =>
              if row.userID = some id then { row with userID := none } else row }
        else { s with users := rows })

/-- `handleAddDeviceCredential`, under a fresh id. -/
def handleAddDeviceCredential (userID : String) (body : Option CredentialProof)
    (id : String) : Reply DeviceCredential :=
  match body with
  | none => (newError 400 "invalid request body", s)
  | some req =>
      if req.credentialType = "" ∨ req.credentialRef = "" then
        (newError 400 "credential_type and credential_ref are required", s)
      else
        let row : DeviceCredential := ⟨id, userID, req.credentialType, req.credentialRef⟩
        if ctx.fails .insertCredential ||
            s.credentials.any (fun c =>
              c.credentialType = req.credentialType && c.credentialRef = req.credentialRef) ||
            (cfg.driver.enforcesReferences && !s.users.any fun user => user.id = userID) then
          (newError 409 "could not add credential (already enrolled to someone?)", s)
        else (.ok row, { s with credentials := s.credentials ++ [row] })

/-- `handleDeleteDeviceCredential`. -/
def handleDeleteDeviceCredential (id : String) : Reply Unit :=
  if ctx.fails .deleteCredential then (newError 500 "could not delete credential", s)
  else (.ok (), { s with credentials := s.credentials.filter fun c => c.id ≠ id })

end Administration

/-! ### Sessions outside the API -/

/-- The query of `/oauth2/authorize`, without the state that the redirect repeats. -/
structure AuthorizeQuery where
  responseType : String
  clientID : String
  redirectURI : String
  scope : String
  codeChallenge : String
  codeChallengeMethod : String
  deriving DecidableEq, Repr

/-- The request for the provider on behalf of a user. -/
def AuthorizeQuery.request (q : AuthorizeQuery) (userID : String) : AuthorizeRequest where
  clientID := q.clientID
  redirectURI := q.redirectURI
  scope := if q.scope = "" then "openid" else q.scope
  codeChallenge := q.codeChallenge
  codeChallengeMethod := q.codeChallengeMethod
  userID := userID

/-- The answers of `handleAuthorize`. -/
inductive AuthorizeAnswer where
  | login
  | refused (error : FiberError)
  | code (req : AuthorizeRequest)
  deriving DecidableEq, Repr

section Entrances

variable (ctx : RequestContext) (s : ServerState)

/-- `handleAuthorize`: a user without a session is sent to the login page. -/
def handleAuthorize (cookie : String) (q : AuthorizeQuery) : AuthorizeAnswer :=
  if cookie ≠ "" ∧ ctx.fails .readSession then .refused ⟨500, "session lookup failed"⟩
  else
    match s.sessionUser ctx cookie with
    | none => .login
    | some userID =>
        if q.responseType ≠ "code" then
          .refused ⟨400, "only response_type=code is supported"⟩
        else
          match authorizeCheck s.oidc.clients (q.request userID) with
          | .error e => .refused ⟨400, e⟩
          | .ok _ =>
              if ctx.fails .storeCode then .refused ⟨400, "cache error"⟩
              else .code (q.request userID)

/-- `handleForwardAuth`: the user and the roles passed on to the application. -/
def handleForwardAuth (cookie : String) : Except FiberError (String × List String) :=
  if cookie = "" then newError 401 "not authenticated"
  else
    match s.sessionsGet ctx cookie with
    | none => newError 401 "session expired"
    | some userID =>
        match ctx.resolve userID with
        | none => newError 500 "permission resolve failed"
        | some resolved => .ok (userID, resolved.roleNames)

/-- The surroundings of a request to the router, whose sessions are those of the state. -/
def ServerState.environment (env : Environment) : Environment :=
  { env with sessionsGet := s.sessionsGet ctx, resolve := ctx.resolve }

end Entrances

/-! ### Steps -/

/-- A request, or a step of the provider. `setFactors` stands for the handlers of the second
factors, which write those two columns of the user. -/
inductive ServerAction where
  | login (ctx : RequestContext) (body : Option LoginRequest) (sessionID : String)
  | externalLogin (ctx : RequestContext) (body : Option LoginRequest)
  | logout (ctx : RequestContext) (cookie : String)
  | changePassword (ctx : RequestContext) (cookie : String) (body : Option (String × String))
      (hash : Option String)
  | createUser (ctx : RequestContext) (body : Option CreateUserRequest) (id : String)
      (hash : Option String)
  | externalCreateUser (ctx : RequestContext) (client : ApiClient)
      (body : Option CreateUserRequest) (id : String) (hash : Option String)
  | resetUserPassword (ctx : RequestContext) (id : String) (hash : Option String)
  | updateUser (ctx : RequestContext) (id : String) (body : Option UpdateInput)
  | offboardUser (ctx : RequestContext) (id : String)
  | deleteUser (ctx : RequestContext) (id : String)
  | setFactors (id : String) (mfaSecret : Option String) (mfaEnabled : Bool)
  | addDeviceCredential (ctx : RequestContext) (userID : String)
      (body : Option CredentialProof) (id : String)
  | deleteDeviceCredential (ctx : RequestContext) (id : String)
  | checkin (c : Checkin)
  | authorize (ctx : RequestContext) (cookie : String) (q : AuthorizeQuery) (id : Nat)
      (code : String)
  | oidc (a : OidcAction)

/-- Something worth recording has happened. -/
def ServerState.record (s : ServerState) (e : ServerEvent) : ServerState :=
  { s with history := e :: s.history }

/-- The state after a request, with the event recorded if it succeeded. -/
def conclude {α : Type} (reply : Reply α) (event : α → ServerEvent) : ServerState :=
  match reply with
  | (.ok a, s) => s.record (event a)
  | (.error _, s) => s

/-- A new user id is drawn: never the empty one, nor one drawn before. -/
def ServerState.drawUserID (s : ServerState) (id : String) : Option ServerState :=
  if id = "" ∨ id ∈ s.userIDs then none else some { s with userIDs := id :: s.userIDs }

/-- A check-in meets the server's credential table. -/
def ServerState.checkin (s : ServerState) (c : Checkin) : Checkin :=
  { c with env := { c.env with credentials := s.credentials } }

/-- The answer to a check-in. -/
def ServerState.handleCheckin (cfg : AccountConfig) (s : ServerState) (c : Checkin) :
    Reply CheckinResponse :=
  let c := s.checkin c
  let result := handleDeviceCheckin cfg.driver c.env c.deviceID c.body s.deviceEvents
  (result.1, { s with deviceEvents := result.2 })

/-- A step of the provider. Calls of `Authorize` are begun by `handleAuthorize` only. -/
def ServerState.oidcStep (cfg : AccountConfig) (s : ServerState) (a : OidcAction) :
    Option ServerState :=
  match a with
  | .authorize _ _ _ => none
  | a => (IdpForge.oidcStep cfg.oidc s.oidc a).map fun oidc => { s with oidc := oidc }

/-- The beginning of the call of `Authorize` that `handleAuthorize` makes. -/
def authorizeServerStep (cfg : AccountConfig) (ctx : RequestContext) (s : ServerState)
    (cookie : String) (q : AuthorizeQuery) (id : Nat) (code : String) : Option ServerState :=
  match handleAuthorize ctx s cookie q with
  | .code req =>
      (IdpForge.oidcStep cfg.oidc s.oidc (.authorize id req code)).map fun oidc =>
        { s with oidc := oidc }
  | _ => some s

/-- The step function. -/
def serverStep (cfg : AccountConfig) (s : ServerState) : ServerAction → Option ServerState
  | .login ctx body sessionID =>
      some (conclude (handleLogin cfg ctx s body sessionID) fun resp => .loggedIn resp.userID)
  | .externalLogin ctx body =>
      some (conclude (handleExternalLogin cfg ctx s body, s) fun user =>
        .externallyLoggedIn user.id)
  | .logout ctx cookie => some (handleLogout ctx s cookie)
  | .changePassword ctx cookie body hash =>
      if cfg.hashes ((body.map Prod.snd).getD "") hash then
        some (handleChangePassword cfg ctx s cookie body hash).2
      else none
  | .createUser ctx body id hash =>
      if cfg.hashes cfg.defaultPassword hash then
        (s.drawUserID id).map fun s => (handleCreateUser cfg ctx s body id hash).2
      else none
  | .externalCreateUser ctx client body id hash =>
      if cfg.hashes cfg.defaultPassword hash then
        (s.drawUserID id).map fun s =>
          (handleExternalCreateUser cfg ctx s client body id hash).2
      else none
  | .resetUserPassword ctx id hash =>
      if cfg.hashes cfg.defaultPassword hash then
        some (handleResetUserPassword cfg ctx s id hash).2
      else none
  | .updateUser ctx id body => some (handleUpdateUser ctx s id body).2
  | .offboardUser ctx id =>
      some (conclude (handleOffboardUser ctx s id) fun user => .offboarded user.id)
  | .deleteUser ctx id => some (conclude (handleDeleteUser cfg ctx s id) fun _ => .deleted id)
  | .setFactors id mfaSecret mfaEnabled =>
      some { s with
        users := updateWhere s.users id fun row => { row with
          mfaSecret := mfaSecret, mfaEnabled := mfaEnabled } }
  | .addDeviceCredential ctx userID body id =>
      some (handleAddDeviceCredential cfg ctx s userID body id).2
  | .deleteDeviceCredential ctx id => some (handleDeleteDeviceCredential ctx s id).2
  | .checkin c =>
      some (conclude (s.handleCheckin cfg c) fun resp => .checkedIn resp.userID resp.allowed)
  | .authorize ctx cookie q id code => authorizeServerStep cfg ctx s cookie q id code
  | .oidc a => s.oidcStep cfg a

/-- The server as it starts, on a database of users and with an empty cache. -/
def ServerState.start (now : Int) (clients : List OidcClient) (users : List UserRow) :
    ServerState where
  users := users
  userIDs := users.map (·.id)
  credentials := []
  deviceEvents := []
  sessions := fun _ => none
  loginFailures := fun _ => none
  loginLocks := fun _ => none
  oidc := .start now clients
  history := []

/-! ### An example server -/

/-- A server that accepts the password `p` for the hash `h`. -/
def exampleAccounts : AccountConfig where
  oidc := exampleConfig
  driver := .sqlite
  defaultPassword := "p"
  passwordExpiryDays := 0
  maxAttempts := 5
  window := 900
  duration := 900
  policy := ⟨8, false, false, false, false⟩
  unicode := ⟨Char.isUpper, Char.isLower, Char.isDigit⟩
  verifyPassword := fun hash password => hash = "h" && password = "p"

/-- A user as `Create` leaves one. -/
def exampleUser : UserRow where
  id := "u"
  username := "alice"
  email := "alice@idp.example"
  employeeID := none
  passwordHash := some "h"
  status := statusActive
  mfaSecret := none
  mfaEnabled := false
  forcePasswordChange := true
  passwordChangedAt := 0

/-- The server with that user. -/
def exampleStart : ServerState := .start 0 [exampleClient] [exampleUser]

/-- The user logs in. -/
def exampleLogin (sessionID : String) : ServerAction :=
  .login {} (some ⟨"alice", "p", ""⟩) sessionID

/-- The server after a login. -/
def exampleSession : ServerState :=
  conclude (handleLogin exampleAccounts {} exampleStart (some ⟨"alice", "p", ""⟩) "sid")
    fun resp => .loggedIn resp.userID

/-- A request for a code of the client. -/
def exampleQuery : AuthorizeQuery where
  responseType := "code"
  clientID := "app"
  redirectURI := "https://app.example/callback"
  scope := "openid"
  codeChallenge := exampleDigest "v"
  codeChallengeMethod := "S256"

end IdpForge
