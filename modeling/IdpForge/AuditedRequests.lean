import IdpForge.AuditWriter
import IdpForge.FactorRequests
import IdpForge.RbacTables
import IdpForge.RouteAuthorization
import IdpForge.ScopeIssuance

/-!
# The Audit Entries of Mutating Requests

The handlers that change something for an authenticated caller, each with its answer and the
entries it hands to `Log`. Ten of them log an entry at their end; the others, among them all
those on roles, permissions and groups, log none.

The handlers on accounts and second factors are those of `Accounts` and `FactorRequests`; an
answer is kept as its status code. What a request meets outside the state (a statement that
fails, an image that cannot be processed) comes with it.

## Main results

* `run_kept_of_logsEntry`: the handlers that log an entry.
* `run_kept_iff_of_not_logsEntry`: the others, by what a request needs to succeed.
* `mutation_audited_iff`: when a request that gets to its handler is audited.
-/

open RouteDispatch

namespace IdpForge

/-! ### Answers with entries -/

/-- Who sends a request: what the middleware found out, the address and the user agent. -/
structure Caller where
  locals : Locals
  ip : String
  userAgent : String
  deriving DecidableEq, Repr

/-- The entry of a successful request. -/
def Caller.entry (caller : Caller) (action targetResource beforeState afterState : String) :
    AuditEntry where
  actorID := actorID caller.locals
  actorIP := caller.ip
  actorUserAgent := caller.userAgent
  action := action
  targetResource := targetResource
  targetApp := ""
  beforeState := beforeState
  afterState := afterState
  status := "success"
  traceID := ""
  timestamp := none

/-- The status code or the error of a request, and the entries it logged. -/
structure Audited where
  answer : Except FiberError Nat
  logged : List AuditEntry
  deriving DecidableEq, Repr

/-- A handler that logs nothing. -/
def Audited.silent {α : Type} (code : Nat) (r : Except FiberError α) : Audited :=
  ⟨r.map fun _ => code, []⟩

/-- A handler that logs an entry once it has succeeded. -/
def Audited.record {α : Type} (code : Nat) (entry : α → AuditEntry) (r : Except FiberError α) :
    Audited :=
  match r with
  | .ok a => ⟨.ok code, [entry a]⟩
  | .error e => ⟨.error e, []⟩

/-! ### The handlers -/

/-- The operations outside the accounts. -/
inductive AdminOp where
  | write | invalidate | insertAPIClient | deleteAPIClient | insertDevice | insertAnnouncement
  | putAvatar | setAvatar
  deriving DecidableEq, Repr

/-- What a request meets. -/
structure AdminContext extends FactorContext where
  cfg : AccountConfig
  adminFails : AdminOp → Bool := fun _ => false
  /-- `json.Marshal` of a user, or of no user. -/
  marshalUser : Option UserRow → String

/-- The state the handlers read. -/
structure AdminState where
  accounts : FactorServer
  tables : Tables

/-- The JSON body of `handleCreateDevice`. -/
structure CreateDeviceRequest where
  name : String
  deviceType : String
  location : String := ""
  folder : String := ""
  allowedIPs : List String := []
  deriving DecidableEq, Repr

/-- The JSON body of `handleCreateAnnouncement`. -/
structure CreateAnnouncementRequest where
  message : String
  level : String := ""
  deriving DecidableEq, Repr

/-- The levels that `handleCreateAnnouncement` takes; an empty one stands for `info`. -/
def announcementLevels : List String := ["info", "warning", "critical", ""]

/-- `maxAvatarUploadBytes`. -/
def maxAvatarUploadBytes : Nat := 20 <<< 20

namespace Audited

section Handlers

variable (ctx : AdminContext) (s : AdminState) (caller : Caller)

/-- The user before the request, as the handlers that log it look it up. -/
def beforeJSON (id : String) : String :=
  ctx.marshalUser (usersGet ctx.fails s.accounts.server.users id)

/-- `handleCreateUser`. -/
def handleCreateUser (body : Option CreateUserRequest) (id : String) (hash : Option String) :
    Audited :=
  record 201 (fun user => caller.entry "user.create" user.id "" (ctx.marshalUser (some user)))
    (IdpForge.handleCreateUser ctx.cfg ctx.toRequestContext s.accounts.server body id hash).1

/-- `handleExternalCreateUser`; the middleware lets through API clients alone. -/
def handleExternalCreateUser (body : Option CreateUserRequest) (id : String)
    (hash : Option String) : Audited :=
  match caller.locals.apiClient with
  | none => ⟨newError 500 "Internal Server Error", []⟩
  | some client =>
      record 201
        (fun user => caller.entry "user.create" user.id "" (ctx.marshalUser (some user)))
        (IdpForge.handleExternalCreateUser ctx.cfg ctx.toRequestContext s.accounts.server client
          body id hash).1

/-- `handleResetUserPassword`. -/
def handleResetUserPassword (id : String) (hash : Option String) : Audited :=
  record 200 (fun _ => caller.entry "user.reset_password" id "" "")
    (IdpForge.handleResetUserPassword ctx.cfg ctx.toRequestContext s.accounts.server id hash).1

/-- `handleUpdateUser`. -/
def handleUpdateUser (id : String) (body : Option UpdateInput) : Audited :=
  record 200 (fun user =>
      caller.entry "user.update" user.id (beforeJSON ctx s id) (ctx.marshalUser (some user)))
    (IdpForge.handleUpdateUser ctx.toRequestContext s.accounts.server id body).1

/-- `handleDeleteUser`. -/
def handleDeleteUser (id : String) : Audited :=
  record 204 (fun _ => caller.entry "user.delete" id (beforeJSON ctx s id) "")
    (IdpForge.handleDeleteUser ctx.cfg ctx.toRequestContext s.accounts.server id).1

/-- `handleOffboardUser`. -/
def handleOffboardUser (id : String) : Audited :=
  record 200 (fun user =>
      caller.entry "user.offboard" id (beforeJSON ctx s id) (ctx.marshalUser (some user)))
    (IdpForge.handleOffboardUser ctx.toRequestContext s.accounts.server id).1

/-- `handleAddDeviceCredential`. -/
def handleAddDeviceCredential (userID : String) (body : Option CredentialProof) (id : String) :
    Audited :=
  record 201 (fun _ => caller.entry "device_credential.create" userID "" "")
    (IdpForge.handleAddDeviceCredential ctx.cfg ctx.toRequestContext s.accounts.server userID body
      id).1

/-- `handleDeleteDeviceCredential`. -/
def handleDeleteDeviceCredential (id : String) : Audited :=
  silent 204 (IdpForge.handleDeleteDeviceCredential ctx.toRequestContext s.accounts.server id).1

/-- `handleUploadAvatar`, which names the user of the session itself; `processed` has the error
of `ProcessAvatar`. -/
def handleUploadAvatar (body : List UInt8) (processed : Except String Unit) : Audited :=
  let userID := caller.locals.userID
  record 200 (fun _ =>
      { caller.entry "user.avatar_upload" userID "" "" with actorID := userID }) <|
    if body.length = 0 then newError 400 "empty upload"
    else if maxAvatarUploadBytes < body.length then newError 413 "image too large"
    else
      match processed with
      | .error e => newError 400 ("could not process image: " ++ e)
      | .ok () =>
          if ctx.adminFails .putAvatar then newError 500 "could not store image"
          else if ctx.adminFails .setAvatar then newError 500 "could not save avatar reference"
          else .ok ()

/-- `handleChangePassword`. -/
def handleChangePassword (cookie : String) (body : Option (String × String))
    (hash : Option String) : Audited :=
  silent 200 (IdpForge.handleChangePassword ctx.cfg ctx.toRequestContext s.accounts.server cookie
    body hash).1

/-- `handleWebAuthnRegisterFinish`. -/
def handleWebAuthnRegisterFinish (created : Option WebAuthnCredential) : Audited :=
  silent 200 (IdpForge.handleWebAuthnRegisterFinish ctx.toFactorContext s.accounts
    caller.locals.userID created).1

/-- `handleMFAEnroll`. -/
def handleMFAEnroll (key : Option (String × String)) : Audited :=
  silent 200 (IdpForge.handleMFAEnroll ctx.toFactorContext s.accounts caller.locals.userID key).1

/-- `handleMFAConfirm`. -/
def handleMFAConfirm (body : Option String) : Audited :=
  silent 200
    (IdpForge.handleMFAConfirm ctx.toFactorContext s.accounts caller.locals.userID body).1

/-- `handleMFADisable`. -/
def handleMFADisable (body : Option String) : Audited :=
  silent 200 (IdpForge.handleMFADisable ctx.cfg ctx.toFactorContext s.accounts
    caller.locals.userID body).1

/-- A write of `Admin` with its invalidation, or `none` for the error of either. -/
def adminWrite (w : Write) : Option Tables :=
  if ctx.adminFails .write then none
  else
    (exec ctx.cfg.driver s.tables w).bind fun t =>
      if w.invalidates ≠ .nobody ∧ ctx.adminFails .invalidate then none else some t

/-- A handler on roles, permissions and groups: the write that the request asks for, or the
error of its body. -/
def rbacHandler (w : Except FiberError Write) (code : Nat) (failed : String) (status : Nat) :
    Audited :=
  silent status <|
    match w with
    | .error e => .error e
    | .ok w =>
        match adminWrite ctx s w with
        | none => newError code failed
        | some _ => .ok ()

/-- What a body has to have. -/
def required {α : Type} (a : Option α) (missing : String) : Except FiberError α :=
  match a with
  | none => newError 400 missing
  | some a => .ok a

/-- `handleCreateRole`; the description is of no account. -/
def handleCreateRole (body : Option (String × String)) (id : String) : Audited :=
  rbacHandler ctx s
    (required (body.bind fun (name, _) => if name = "" then none else some (.createRole id name))
      "name is required")
    409 "could not create role" 201

/-- `handleDeleteRole`. -/
def handleDeleteRole (id : String) : Audited :=
  rbacHandler ctx s (.ok (.deleteRole id)) 500 "could not delete role" 204

/-- `handleCreatePermission`. -/
def handleCreatePermission (body : Option (String × String)) (id : String) : Audited :=
  rbacHandler ctx s
    (required
      (body.bind fun (resource, action) =>
        if resource = "" ∨ action = "" then none else some (.createPermission id resource action))
      "resource and action are required")
    409 "could not create permission" 201

/-- The id in a body, which may not be empty. -/
def requiredRef (body : Option String) : Option String :=
  body.bind fun ref => if ref = "" then none else some ref

/-- `handleGrantPermissionToRole`. -/
def handleGrantPermissionToRole (id : String) (body : Option String) : Audited :=
  rbacHandler ctx s
    (required ((requiredRef body).map fun ref => .grantPermissionToRole id ref)
      "permission_id is required")
    500 "could not grant permission" 204

/-- `handleRevokePermissionFromRole`. -/
def handleRevokePermissionFromRole (id permissionID : String) : Audited :=
  rbacHandler ctx s (.ok (.revokePermissionFromRole id permissionID)) 500
    "could not revoke permission" 204

/-- `handleAssignRoleToUser`. -/
def handleAssignRoleToUser (id : String) (body : Option String) : Audited :=
  rbacHandler ctx s
    (required ((requiredRef body).map fun ref => .assignRoleToUser id ref) "role_id is required")
    500 "could not assign role" 204

/-- `handleRemoveRoleFromUser`. -/
def handleRemoveRoleFromUser (id roleID : String) : Audited :=
  rbacHandler ctx s (.ok (.removeRoleFromUser id roleID)) 500 "could not remove role" 204

/-- `handleCreateGroup`. -/
def handleCreateGroup (body : Option (String × Option String)) (id : String) : Audited :=
  rbacHandler ctx s
    (required
      (body.bind fun (name, parentGroupID) =>
        if name = "" then none else some (.createGroup id name parentGroupID))
      "name is required")
    409 "could not create group" 201

/-- `handleAssignRoleToGroup`. -/
def handleAssignRoleToGroup (id : String) (body : Option String) : Audited :=
  rbacHandler ctx s
    (required ((requiredRef body).map fun ref => .assignRoleToGroup id ref) "role_id is required")
    500 "could not assign role" 204

/-- `handleRemoveRoleFromGroup`. -/
def handleRemoveRoleFromGroup (id roleID : String) : Audited :=
  rbacHandler ctx s (.ok (.removeRoleFromGroup id roleID)) 500 "could not remove role" 204

/-- `handleAddUserToGroup`. -/
def handleAddUserToGroup (id userID : String) : Audited :=
  rbacHandler ctx s (.ok (.addUserToGroup userID id)) 500 "could not add user to group" 204

/-- `handleRemoveUserFromGroup`. -/
def handleRemoveUserFromGroup (id userID : String) : Audited :=
  rbacHandler ctx s (.ok (.removeUserFromGroup userID id)) 500
    "could not remove user from group" 204

/-- `handleCreateDevice`, under a fresh id. -/
def handleCreateDevice (body : Option CreateDeviceRequest) (id : String) : Audited :=
  record 201 (fun _ => caller.entry "iot_device.create" id "" "") <|
    match body with
    | none => newError 400 "invalid request body"
    | some req =>
        if req.name = "" ∨ req.deviceType = "" then
          newError 400 "name and device_type are required"
        else if ctx.adminFails .insertDevice then newError 409 "could not create device"
        else .ok ()

/-- `handleCreateAPIClient`, under a fresh id. -/
def handleCreateAPIClient (body : Option CreateAPIClientRequest) (id : String) : Audited :=
  record 201 (fun client => caller.entry "api_client.create" client.id "" "") <|
    match body with
    | none => newError 400 "invalid request body"
    | some req =>
        IdpForge.handleCreateAPIClient ctx.resolve caller.locals req id
          (!ctx.adminFails .insertAPIClient)

/-- `handleDeleteAPIClient`. -/
def handleDeleteAPIClient : Audited :=
  silent 204 <|
    if ctx.adminFails .deleteAPIClient then newError 500 "could not delete API client"
    else .ok ()

/-- `handleCreateAnnouncement`. -/
def handleCreateAnnouncement (body : Option CreateAnnouncementRequest) : Audited :=
  silent 201 <|
    match body with
    | none => newError 400 "invalid request body"
    | some req =>
        if req.message = "" then newError 400 "message is required"
        else if req.level ∉ announcementLevels then
          newError 400 "level must be info, warning, or critical"
        else if ctx.adminFails .insertAnnouncement then
          newError 500 "could not create announcement"
        else .ok ()

end Handlers

end Audited

/-! ### Requests -/

/-- A mutating request, with what its path and its body say (`none` for a body that does not
parse), the ids, hashes and keys drawn for it, and what libraries make of it. -/
inductive Mutation where
  | createUser (body : Option CreateUserRequest) (id : String) (hash : Option String)
  | externalCreateUser (body : Option CreateUserRequest) (id : String) (hash : Option String)
  | resetUserPassword (id : String) (hash : Option String)
  | updateUser (id : String) (body : Option UpdateInput)
  | deleteUser (id : String)
  | offboardUser (id : String)
  | addDeviceCredential (userID : String) (body : Option CredentialProof) (id : String)
  | deleteDeviceCredential (id : String)
  | uploadAvatar (body : List UInt8) (processed : Except String Unit)
  | changePassword (cookie : String) (body : Option (String × String)) (hash : Option String)
  | webAuthnRegisterFinish (created : Option WebAuthnCredential)
  | mfaEnroll (key : Option (String × String))
  | mfaConfirm (body : Option String)
  | mfaDisable (body : Option String)
  | createRole (body : Option (String × String)) (id : String)
  | deleteRole (id : String)
  | createPermission (body : Option (String × String)) (id : String)
  | grantPermissionToRole (id : String) (body : Option String)
  | revokePermissionFromRole (id permissionID : String)
  | assignRoleToUser (id : String) (body : Option String)
  | removeRoleFromUser (id roleID : String)
  | createGroup (body : Option (String × Option String)) (id : String)
  | assignRoleToGroup (id : String) (body : Option String)
  | removeRoleFromGroup (id roleID : String)
  | addUserToGroup (id userID : String)
  | removeUserFromGroup (id userID : String)
  | createDevice (body : Option CreateDeviceRequest) (id : String)
  | createAPIClient (body : Option CreateAPIClientRequest) (id : String)
  | deleteAPIClient (id : String)
  | createAnnouncement (body : Option CreateAnnouncementRequest)

namespace Mutation

/-- The handler of the request. -/
def endpoint : Mutation → Endpoint
  | createUser .. => .handleCreateUser
  | externalCreateUser .. => .handleExternalCreateUser
  | resetUserPassword .. => .handleResetUserPassword
  | updateUser .. => .handleUpdateUser
  | deleteUser .. => .handleDeleteUser
  | offboardUser .. => .handleOffboardUser
  | addDeviceCredential .. => .handleAddDeviceCredential
  | deleteDeviceCredential .. => .handleDeleteDeviceCredential
  | uploadAvatar .. => .handleUploadAvatar
  | changePassword .. => .handleChangePassword
  | webAuthnRegisterFinish .. => .handleWebAuthnRegisterFinish
  | mfaEnroll .. => .handleMFAEnroll
  | mfaConfirm .. => .handleMFAConfirm
  | mfaDisable .. => .handleMFADisable
  | createRole .. => .handleCreateRole
  | deleteRole .. => .handleDeleteRole
  | createPermission .. => .handleCreatePermission
  | grantPermissionToRole .. => .handleGrantPermissionToRole
  | revokePermissionFromRole .. => .handleRevokePermissionFromRole
  | assignRoleToUser .. => .handleAssignRoleToUser
  | removeRoleFromUser .. => .handleRemoveRoleFromUser
  | createGroup .. => .handleCreateGroup
  | assignRoleToGroup .. => .handleAssignRoleToGroup
  | removeRoleFromGroup .. => .handleRemoveRoleFromGroup
  | addUserToGroup .. => .handleAddUserToGroup
  | removeUserFromGroup .. => .handleRemoveUserFromGroup
  | createDevice .. => .handleCreateDevice
  | createAPIClient .. => .handleCreateAPIClient
  | deleteAPIClient .. => .handleDeleteAPIClient
  | createAnnouncement .. => .handleCreateAnnouncement

end Mutation

/-- The handlers that log an entry. -/
def Endpoint.logsEntry : Endpoint → Bool
  | .handleCreateUser | .handleExternalCreateUser | .handleResetUserPassword
  | .handleUpdateUser | .handleDeleteUser | .handleOffboardUser | .handleAddDeviceCredential
  | .handleUploadAvatar | .handleCreateDevice | .handleCreateAPIClient => true
  | _ => false

namespace Mutation

section Run

variable (ctx : AdminContext) (s : AdminState) (caller : Caller)

/-- What the handler does. -/
def run : Mutation → Audited
  | createUser body id hash => Audited.handleCreateUser ctx s caller body id hash
  | externalCreateUser body id hash => Audited.handleExternalCreateUser ctx s caller body id hash
  | resetUserPassword id hash => Audited.handleResetUserPassword ctx s caller id hash
  | updateUser id body => Audited.handleUpdateUser ctx s caller id body
  | deleteUser id => Audited.handleDeleteUser ctx s caller id
  | offboardUser id => Audited.handleOffboardUser ctx s caller id
  | addDeviceCredential userID body id =>
      Audited.handleAddDeviceCredential ctx s caller userID body id
  | deleteDeviceCredential id => Audited.handleDeleteDeviceCredential ctx s id
  | uploadAvatar body processed => Audited.handleUploadAvatar ctx caller body processed
  | changePassword cookie body hash => Audited.handleChangePassword ctx s cookie body hash
  | webAuthnRegisterFinish created => Audited.handleWebAuthnRegisterFinish ctx s caller created
  | mfaEnroll key => Audited.handleMFAEnroll ctx s caller key
  | mfaConfirm body => Audited.handleMFAConfirm ctx s caller body
  | mfaDisable body => Audited.handleMFADisable ctx s caller body
  | createRole body id => Audited.handleCreateRole ctx s body id
  | deleteRole id => Audited.handleDeleteRole ctx s id
  | createPermission body id => Audited.handleCreatePermission ctx s body id
  | grantPermissionToRole id body => Audited.handleGrantPermissionToRole ctx s id body
  | revokePermissionFromRole id permissionID =>
      Audited.handleRevokePermissionFromRole ctx s id permissionID
  | assignRoleToUser id body => Audited.handleAssignRoleToUser ctx s id body
  | removeRoleFromUser id roleID => Audited.handleRemoveRoleFromUser ctx s id roleID
  | createGroup body id => Audited.handleCreateGroup ctx s body id
  | assignRoleToGroup id body => Audited.handleAssignRoleToGroup ctx s id body
  | removeRoleFromGroup id roleID => Audited.handleRemoveRoleFromGroup ctx s id roleID
  | addUserToGroup id userID => Audited.handleAddUserToGroup ctx s id userID
  | removeUserFromGroup id userID => Audited.handleRemoveUserFromGroup ctx s id userID
  | createDevice body id => Audited.handleCreateDevice ctx caller body id
  | createAPIClient body id => Audited.handleCreateAPIClient ctx caller body id
  | deleteAPIClient _ => Audited.handleDeleteAPIClient ctx
  | createAnnouncement body => Audited.handleCreateAnnouncement ctx body

/-- The write of `Admin` and its invalidation go through. -/
def Executes (w : Write) : Prop :=
  ctx.adminFails .write = false ∧ (exec ctx.cfg.driver s.tables w).isSome = true ∧
    (w.invalidates ≠ .nobody → ctx.adminFails .invalidate = false)

/-- The user exists, and the password is the current one. -/
def ProvesPassword (userID password : String) : Prop :=
  ∃ user hash, usersGet ctx.fails s.accounts.server.users userID = some user ∧
    passwordHash ctx.fails s.accounts.server.users user.username = some hash ∧ hash ≠ "" ∧
      ctx.cfg.verifyPassword hash password = true

/-- The handler of the request logs nothing, and the request has what it needs to succeed. -/
def Unlogged : Mutation → Prop
  | deleteDeviceCredential _ => ctx.fails .deleteCredential = false
  | changePassword cookie body hash =>
      ∃ userID current new,
        s.accounts.server.sessionUser ctx.toRequestContext cookie = some userID ∧
          body = some (current, new) ∧
            validatePassword ctx.cfg.unicode ctx.cfg.policy new = .ok () ∧
              ProvesPassword ctx s userID current ∧ hash.isSome = true ∧
                ctx.fails .setPassword = false
  | webAuthnRegisterFinish created =>
      (loadCredentials ctx.factorFails s.accounts.factors caller.locals.userID).isSome = true ∧
        created.isSome = true ∧ ctx.factorFails .save = false
  | mfaEnroll key =>
      (usersGet ctx.fails s.accounts.server.users caller.locals.userID).isSome = true ∧
        key.isSome = true ∧ ctx.factorFails .enroll = false
  | mfaConfirm body =>
      ∃ code secret, body = some code ∧ ctx.factorFails .readSecret = false ∧
        secretFor s.accounts.server.users caller.locals.userID = some secret ∧
          ctx.totpValidate code secret = true ∧ ctx.factorFails .confirm = false
  | mfaDisable body =>
      ∃ current, body = some current ∧ ProvesPassword ctx s caller.locals.userID current ∧
        ctx.factorFails .disable = false
  | createRole body id =>
      ∃ name description, body = some (name, description) ∧ name ≠ "" ∧
        Executes ctx s (.createRole id name)
  | deleteRole id => Executes ctx s (.deleteRole id)
  | createPermission body id =>
      ∃ resource action, body = some (resource, action) ∧ resource ≠ "" ∧ action ≠ "" ∧
        Executes ctx s (.createPermission id resource action)
  | grantPermissionToRole id body =>
      ∃ ref, body = some ref ∧ ref ≠ "" ∧ Executes ctx s (.grantPermissionToRole id ref)
  | revokePermissionFromRole id permissionID =>
      Executes ctx s (.revokePermissionFromRole id permissionID)
  | assignRoleToUser id body =>
      ∃ ref, body = some ref ∧ ref ≠ "" ∧ Executes ctx s (.assignRoleToUser id ref)
  | removeRoleFromUser id roleID => Executes ctx s (.removeRoleFromUser id roleID)
  | createGroup body id =>
      ∃ name parentGroupID, body = some (name, parentGroupID) ∧ name ≠ "" ∧
        Executes ctx s (.createGroup id name parentGroupID)
  | assignRoleToGroup id body =>
      ∃ ref, body = some ref ∧ ref ≠ "" ∧ Executes ctx s (.assignRoleToGroup id ref)
  | removeRoleFromGroup id roleID => Executes ctx s (.removeRoleFromGroup id roleID)
  | addUserToGroup id userID => Executes ctx s (.addUserToGroup userID id)
  | removeUserFromGroup id userID => Executes ctx s (.removeUserFromGroup userID id)
  | deleteAPIClient _ => ctx.adminFails .deleteAPIClient = false
  | createAnnouncement body =>
      ∃ req, body = some req ∧ req.message ≠ "" ∧ req.level ∈ announcementLevels ∧
        ctx.adminFails .insertAnnouncement = false
  | _ => False

end Run

end Mutation

/-! ### Which requests are audited -/

/-- A success has one entry, of its actor and its success, and an error has no entry of a
success. -/
structure AuditKept (caller : Caller) (a : Audited) : Prop where
  success : ∀ code, a.answer = .ok code →
    ∃ e, a.logged = [e] ∧ e.actorID = actorID caller.locals ∧ e.status = "success"
  failure : ∀ err, a.answer = .error err → ∀ e ∈ a.logged, e.status ≠ "success"

section Kept

variable {ctx : AdminContext} {s : AdminState} {caller : Caller} {α : Type} {code : Nat}
  {r : Except FiberError α}

/-- A handler that logs nothing is audited when it refuses. -/
theorem silent_kept_iff : AuditKept caller (.silent code r) ↔ ∀ a, r ≠ .ok a := by
  constructor
  · rintro ⟨hsuccess, -⟩ a rfl
    obtain ⟨e, hlogged, -⟩ := hsuccess code rfl
    cases hlogged
  · intro h
    cases r with
    | ok a => exact absurd rfl (h a)
    | error err => exact ⟨nofun, fun _ _ e he => absurd he List.not_mem_nil⟩

/-- A handler that logs its success is audited, if the entry names the actor. -/
theorem record_kept {entry : α → AuditEntry}
    (hentry : ∀ a, (entry a).actorID = actorID caller.locals ∧ (entry a).status = "success") :
    AuditKept caller (.record code entry r) := by
  cases r with
  | ok a => exact ⟨fun _ _ => ⟨entry a, rfl, hentry a⟩, nofun⟩
  | error err => exact ⟨nofun, fun _ _ e he => absurd he List.not_mem_nil⟩

/-- A write of `Admin` succeeds when it goes through. -/
theorem adminWrite_isSome_iff {w : Write} :
    (Audited.adminWrite ctx s w).isSome = true ↔ Mutation.Executes ctx s w := by
  rw [Audited.adminWrite, Mutation.Executes]
  cases ctx.adminFails .write with
  | true => simp
  | false => cases exec ctx.cfg.driver s.tables w <;> simp [Option.isSome_iff_exists]

/-- A handler on roles, permissions and groups is audited when it makes no write. -/
theorem rbacHandler_kept_iff {w : Except FiberError Write} {failed : String}
    {code status : Nat} :
    AuditKept caller (Audited.rbacHandler ctx s w code failed status) ↔
      ¬ ∃ w', w = .ok w' ∧ Mutation.Executes ctx s w' := by
  refine silent_kept_iff.trans ?_
  cases w with
  | error e => simp
  | ok w =>
      simp only [Except.ok.injEq, exists_eq_left', ← adminWrite_isSome_iff]
      cases Audited.adminWrite ctx s w <;> simp [newError]

/-- So is one that takes an id from its path alone. -/
theorem rbacHandler_ok_kept_iff {w : Write} {failed : String} {code status : Nat} :
    AuditKept caller (Audited.rbacHandler ctx s (.ok w) code failed status) ↔
      ¬ Mutation.Executes ctx s w := by
  rw [rbacHandler_kept_iff]
  simp

/-- So is one that takes something from its body. -/
theorem rbacHandler_required_kept_iff {w : Option Write} {missing failed : String}
    {code status : Nat} :
    AuditKept caller
        (Audited.rbacHandler ctx s (Audited.required w missing) code failed status) ↔
      ¬ ∃ w', w = some w' ∧ Mutation.Executes ctx s w' := by
  rw [rbacHandler_kept_iff]
  cases w <;> simp [Audited.required, newError]

/-- So is one that takes the id of something from its body. -/
theorem rbacHandler_requiredRef_kept_iff {body : Option String} {write : String → Write}
    {missing failed : String} {code status : Nat} :
    AuditKept caller (Audited.rbacHandler ctx s
        (Audited.required ((Audited.requiredRef body).map write) missing) code failed status) ↔
      ¬ ∃ ref, body = some ref ∧ ref ≠ "" ∧ Mutation.Executes ctx s (write ref) := by
  rw [rbacHandler_required_kept_iff]
  cases body with
  | none => simp [Audited.requiredRef]
  | some ref => by_cases href : ref = "" <;> simp [Audited.requiredRef, href]

/-- The password that two handlers ask for, as they check it. -/
theorem provesPassword_iff {userID password : String} {user : UserRow}
    (huser : usersGet ctx.fails s.accounts.server.users userID = some user) :
    Mutation.ProvesPassword ctx s userID password ↔
      let hash := (passwordHash ctx.fails s.accounts.server.users user.username).getD ""
      (hash = "" || !ctx.cfg.verifyPassword hash password) = false := by
  simp only [Mutation.ProvesPassword, huser, Option.some.injEq, exists_and_left,
    exists_eq_left']
  cases passwordHash ctx.fails s.accounts.server.users user.username <;> simp

/-- When `handleChangePassword` succeeds. -/
theorem handleChangePassword_ok_iff {cookie : String} {body : Option (String × String)}
    {hash : Option String} :
    (∃ a, (handleChangePassword ctx.cfg ctx.toRequestContext s.accounts.server cookie body
        hash).1 = .ok a) ↔
      Mutation.Unlogged ctx s caller (.changePassword cookie body hash) := by
  rw [handleChangePassword.eq_def, Mutation.Unlogged]
  cases s.accounts.server.sessionUser ctx.toRequestContext cookie with
  | none => simp [newError]
  | some userID =>
      cases body with
      | none => simp [newError]
      | some passwords =>
          obtain ⟨current, new⟩ := passwords
          simp only [Option.some.injEq, Prod.mk.injEq, exists_and_left, exists_eq_left',
            and_assoc]
          cases validatePassword ctx.cfg.unicode ctx.cfg.policy new with
          | error e => simp [newError]
          | ok u =>
              cases huser : usersGet ctx.fails s.accounts.server.users userID with
              | none => simp [newError, huser, Mutation.ProvesPassword]
              | some user =>
                  simp only [provesPassword_iff huser]
                  split_ifs with hwrong
                  · simp [newError, hwrong]
                  · rw [Bool.not_eq_true] at hwrong
                    cases hash with
                    | none => simp [newError]
                    | some hash =>
                        cases hfails : ctx.fails .setPassword <;>
                          simp [newError, hwrong, setPassword, hfails]

/-- When `handleWebAuthnRegisterFinish` succeeds. -/
theorem handleWebAuthnRegisterFinish_ok_iff {created : Option WebAuthnCredential} :
    (∃ a, (handleWebAuthnRegisterFinish ctx.toFactorContext s.accounts caller.locals.userID
        created).1 = .ok a) ↔
      Mutation.Unlogged ctx s caller (.webAuthnRegisterFinish created) := by
  rw [handleWebAuthnRegisterFinish.eq_def, Mutation.Unlogged]
  cases hload : loadCredentials ctx.factorFails s.accounts.factors caller.locals.userID with
  | none => simp [newError]
  | some creds =>
      cases created with
      | none => simp [newError]
      | some cred =>
          cases hfails : ctx.factorFails .save <;>
            simp [newError, addCredential, saveCredentials, hload, hfails]

/-- When `handleMFAEnroll` succeeds. -/
theorem handleMFAEnroll_ok_iff {key : Option (String × String)} :
    (∃ a, (handleMFAEnroll ctx.toFactorContext s.accounts caller.locals.userID key).1 = .ok a) ↔
      Mutation.Unlogged ctx s caller (.mfaEnroll key) := by
  rw [handleMFAEnroll.eq_def, Mutation.Unlogged]
  cases usersGet ctx.fails s.accounts.server.users caller.locals.userID with
  | none => simp [newError]
  | some user =>
      cases key with
      | none => simp [newError]
      | some key => cases hfails : ctx.factorFails .enroll <;> simp [newError, mfaEnroll, hfails]

/-- When `handleMFAConfirm` succeeds. -/
theorem handleMFAConfirm_ok_iff {body : Option String} :
    (∃ a, (handleMFAConfirm ctx.toFactorContext s.accounts caller.locals.userID body).1 =
        .ok a) ↔
      Mutation.Unlogged ctx s caller (.mfaConfirm body) := by
  rw [Mutation.Unlogged]
  cases body with
  | none => simp [handleMFAConfirm, newError]
  | some code =>
      simp only [Option.some.injEq, exists_and_left, exists_eq_left']
      rw [handleMFAConfirm, mfaConfirm]
      cases ctx.factorFails .readSecret with
      | true => simp [newError]
      | false =>
          simp only [FactorServer.factors]
          cases secretFor s.accounts.server.users caller.locals.userID with
          | none => simp [newError]
          | some secret =>
              cases hvalid : ctx.totpValidate code secret with
              | false => simp [newError, hvalid]
              | true => cases ctx.factorFails .confirm <;> simp [newError, hvalid]

/-- When `handleMFADisable` succeeds. -/
theorem handleMFADisable_ok_iff {body : Option String} :
    (∃ a, (handleMFADisable ctx.cfg ctx.toFactorContext s.accounts caller.locals.userID
        body).1 = .ok a) ↔
      Mutation.Unlogged ctx s caller (.mfaDisable body) := by
  rw [Mutation.Unlogged]
  cases body with
  | none => simp [handleMFADisable, newError]
  | some current =>
      simp only [Option.some.injEq, exists_eq_left']
      rw [handleMFADisable]
      cases huser : usersGet ctx.fails s.accounts.server.users caller.locals.userID with
      | none => simp [newError, huser, Mutation.ProvesPassword]
      | some user =>
          simp only [provesPassword_iff huser]
          split_ifs with hwrong
          · simp [newError, hwrong]
          · rw [Bool.not_eq_true] at hwrong
            cases hfails : ctx.factorFails .disable <;>
              simp [newError, hwrong, mfaDisable, hfails]

/-- The entries of the handlers that log name the actor. -/
theorem entry_names_actor (action targetResource beforeState afterState : String) :
    (caller.entry action targetResource beforeState afterState).actorID =
        actorID caller.locals ∧
      (caller.entry action targetResource beforeState afterState).status = "success" :=
  ⟨rfl, rfl⟩

/-- An upload names the user of the session, who is the actor. -/
theorem handleUploadAvatar_kept (huser : caller.locals.userID ≠ "") {body : List UInt8}
    {processed : Except String Unit} :
    AuditKept caller (Audited.handleUploadAvatar ctx caller body processed) := by
  refine record_kept fun _ => ⟨?_, rfl⟩
  rw [actorID, if_pos huser]

/-- A request whose handler logs an entry is audited. -/
theorem run_kept_of_logsEntry {m : Mutation} (hlogs : m.endpoint.logsEntry = true)
    (hself : m.endpoint = .handleUploadAvatar → caller.locals.userID ≠ "") :
    AuditKept caller (m.run ctx s caller) := by
  cases m with
  | createUser body id hash => exact record_kept fun _ => entry_names_actor ..
  | externalCreateUser body id hash =>
      rw [Mutation.run, Audited.handleExternalCreateUser]
      cases caller.locals.apiClient with
      | none => exact ⟨nofun, fun _ _ e he => absurd he List.not_mem_nil⟩
      | some client => exact record_kept fun _ => entry_names_actor ..
  | resetUserPassword id hash => exact record_kept fun _ => entry_names_actor ..
  | updateUser id body => exact record_kept fun _ => entry_names_actor ..
  | deleteUser id => exact record_kept fun _ => entry_names_actor ..
  | offboardUser id => exact record_kept fun _ => entry_names_actor ..
  | addDeviceCredential userID body id => exact record_kept fun _ => entry_names_actor ..
  | uploadAvatar body processed => exact handleUploadAvatar_kept (hself rfl)
  | createDevice body id => exact record_kept fun _ => entry_names_actor ..
  | createAPIClient body id => exact record_kept fun _ => entry_names_actor ..
  | _ => cases hlogs

/-- A request whose handler logs nothing is audited when it does not succeed. -/
theorem run_kept_iff_of_not_logsEntry {m : Mutation} (hlogs : m.endpoint.logsEntry = false) :
    AuditKept caller (m.run ctx s caller) ↔ ¬ m.Unlogged ctx s caller := by
  have hsilent {β : Type} {c : Nat} {x : Except FiberError β} {P : Prop}
      (h : (∃ a, x = .ok a) ↔ P) : AuditKept caller (.silent c x) ↔ ¬ P := by
    rw [silent_kept_iff, ← h, not_exists]
  cases m with
  | deleteDeviceCredential id =>
      refine hsilent ?_
      rw [handleDeleteDeviceCredential, Mutation.Unlogged]
      cases hfails : ctx.fails .deleteCredential <;> simp [newError]
  | changePassword cookie body hash => exact hsilent handleChangePassword_ok_iff
  | webAuthnRegisterFinish created => exact hsilent handleWebAuthnRegisterFinish_ok_iff
  | mfaEnroll key => exact hsilent handleMFAEnroll_ok_iff
  | mfaConfirm body => exact hsilent handleMFAConfirm_ok_iff
  | mfaDisable body => exact hsilent handleMFADisable_ok_iff
  | createRole body id | createGroup body id =>
      refine rbacHandler_required_kept_iff.trans (not_congr ?_)
      rw [Mutation.Unlogged]
      cases body with
      | none => simp
      | some body => by_cases hname : body.1 = "" <;> simp [Prod.ext_iff, hname]
  | deleteRole id => exact rbacHandler_ok_kept_iff
  | createPermission body id =>
      refine rbacHandler_required_kept_iff.trans (not_congr ?_)
      rw [Mutation.Unlogged]
      cases body with
      | none => simp
      | some body =>
          by_cases hresource : body.1 = "" <;> by_cases haction : body.2 = "" <;>
            simp [Prod.ext_iff, hresource, haction]
  | grantPermissionToRole id body => exact rbacHandler_requiredRef_kept_iff
  | revokePermissionFromRole id permissionID => exact rbacHandler_ok_kept_iff
  | assignRoleToUser id body => exact rbacHandler_requiredRef_kept_iff
  | removeRoleFromUser id roleID => exact rbacHandler_ok_kept_iff
  | assignRoleToGroup id body => exact rbacHandler_requiredRef_kept_iff
  | removeRoleFromGroup id roleID => exact rbacHandler_ok_kept_iff
  | addUserToGroup id userID => exact rbacHandler_ok_kept_iff
  | removeUserFromGroup id userID => exact rbacHandler_ok_kept_iff
  | deleteAPIClient id =>
      refine hsilent ?_
      rw [Mutation.Unlogged]
      cases ctx.adminFails .deleteAPIClient <;> simp [newError]
  | createAnnouncement body =>
      refine hsilent ?_
      rw [Mutation.Unlogged]
      cases body with
      | none => simp [newError]
      | some req =>
          simp only [Option.some.injEq, exists_eq_left']
          by_cases hmessage : req.message = ""
          · simp [newError, hmessage]
          by_cases hlevel : req.level ∈ announcementLevels
          · cases hfails : ctx.adminFails .insertAnnouncement <;>
              simp [newError, hmessage, hlevel]
          · simp [newError, hmessage, hlevel]
  | _ => cases hlogs

end Kept

/-! ### Requests that the router serves -/

/-- Uploads are registered behind `requireUserActor`. -/
theorem uploadAvatar_guards : registerRoutes.all (fun reg =>
    reg.endpoint ≠ some .handleUploadAvatar ||
      (reg ∈ apiRoutes && reg.guards = apiPreamble ++ [.requireUserActor])) = true := by
  decide +kernel

/-- An upload that gets to its handler is a user's. -/
theorem userID_of_serve_uploadAvatar {env : Environment} {req : Request} {reg : Registration}
    {e : Endpoint} {locals : Locals} (hreg : reg ∈ registerRoutes)
    (he : reg.endpoint = some .handleUploadAvatar) (hmatch : reg.matchesRequest req)
    (hserve : serve env req = .reached e locals) : locals.userID ≠ "" := by
  have hguards := List.all_eq_true.mp uploadAvatar_guards reg hreg
  simp only [he, ne_eq, not_true, decide_false, Bool.false_or, Bool.and_eq_true,
    decide_eq_true_eq] at hguards
  obtain ⟨hapi, hguards⟩ := hguards
  obtain ⟨-, hrun⟩ := (serve_eq_reached_iff hapi he hmatch).mp hserve
  rw [hguards, runHandlers_append] at hrun
  cases hpre : runHandlers (execHandler env req) apiPreamble {} with
  | done r => simp [hpre] at hrun
  | next l =>
      rw [hpre] at hrun
      simp only [runHandlers, execHandler, gate] at hrun
      cases hactor : requireUserActor l with
      | error err => simp [hactor] at hrun
      | ok u =>
          obtain rfl : l = locals := by simpa [hactor] using hrun
          exact requireUserActor_eq_ok_iff.mp hactor

/-- **When a mutating request is audited.** A request that gets to the handler of its route is
audited, in any state, if and only if that handler is one of the ten that log an entry, or the
request lacks something that it needs to succeed. -/
theorem mutation_audited_iff {env : Environment} {req : Request} {reg : Registration}
    {m : Mutation} {caller : Caller} (hreg : reg ∈ registerRoutes)
    (he : reg.endpoint = some m.endpoint) (hmatch : reg.matchesRequest req)
    (hserve : serve env req = .reached m.endpoint caller.locals) (ctx : AdminContext)
    (s : AdminState) :
    AuditKept caller (m.run ctx s caller) ↔
      m.endpoint.logsEntry = true ∨ ¬ m.Unlogged ctx s caller := by
  cases hlogs : m.endpoint.logsEntry with
  | true =>
      refine iff_of_true (run_kept_of_logsEntry hlogs fun hupload => ?_) (.inl rfl)
      exact userID_of_serve_uploadAvatar hreg (hupload ▸ he) hmatch hserve
  | false =>
      rw [run_kept_iff_of_not_logsEntry hlogs]
      simp

/-- A server on which a user with all permissions has the session `sid`. -/
def adminEnvironment : Environment :=
  { rbacClientEnvironment with
    sessionsGet := fun id => if id = "sid" then some "u" else none
    resolve := fun userID =>
      if userID = "u" then some ⟨"u", ["admin"], [⟨"rbac", "manage"⟩, ⟨"users", "manage"⟩]⟩
      else none }

/-- What the middleware makes of that user's requests. -/
def exampleAdmin : Caller := ⟨{ userID := "u" }, "10.0.0.1", "curl"⟩

/-- The user's request to create a role. -/
def createRoleRequest : Request :=
  { listRolesRequest with
    method := .post
    sessionCookie := "sid"
    apiKey := ""
    origin := "https://sso.example.com" }

/-- The route of that request. -/
def createRoleRoute : Registration :=
  rbacGroup.add .post "/roles" [.endpoint .handleCreateRole]

/-- Nothing fails. -/
def exampleAdminContext : AdminContext where
  cfg := exampleAccounts
  marshalUser := fun user => (user.map (·.id)).getD "null"

/-- A server with a user, and no roles yet. -/
def exampleAdminState : AdminState where
  accounts := exampleFactorServer
  tables := ⟨["u"], [], [], [], [], [], [], []⟩

/-- The request gets to its handler. -/
theorem serve_createRoleRequest : serve adminEnvironment createRoleRequest =
    .reached .handleCreateRole exampleAdmin.locals := by
  decide +kernel

/-- The request is one of its route. -/
theorem createRoleRoute_matchesRequest : createRoleRoute ∈ registerRoutes ∧
    createRoleRoute.endpoint = some .handleCreateRole ∧
      createRoleRoute.matchesRequest createRoleRequest :=
  ⟨by decide +kernel, by decide +kernel, by decide +kernel, by decide +kernel⟩

/-- A role with a name is created without an entry; one without a name is refused. -/
theorem mutation_audited_iff_example :
    ¬ AuditKept exampleAdmin ((Mutation.createRole (some ("auditor", "")) "r").run
        exampleAdminContext exampleAdminState exampleAdmin) ∧
      AuditKept exampleAdmin ((Mutation.createRole (some ("", "")) "r").run
        exampleAdminContext exampleAdminState exampleAdmin) := by
  obtain ⟨hreg, he, hmatch⟩ := createRoleRoute_matchesRequest
  have hiff (body : Option (String × String)) :=
    mutation_audited_iff (m := .createRole body "r") hreg he hmatch serve_createRoleRequest
      exampleAdminContext exampleAdminState
  constructor
  · rw [hiff, not_or, not_not]
    refine ⟨Bool.false_ne_true, "auditor", "", rfl, by decide, rfl, by decide, ?_⟩
    exact fun h => absurd rfl h
  · rw [hiff]
    refine .inr ?_
    rintro ⟨name, description, hbody, hname, -⟩
    rw [Option.some.injEq, Prod.mk.injEq] at hbody
    exact hname hbody.1.symm

/-- **A role is created without an entry**, by a request that gets to its handler. -/
theorem role_created_unaudited :
    ¬ ∀ (env : Environment) (req : Request) (reg : Registration) (m : Mutation)
      (caller : Caller) (ctx : AdminContext) (s : AdminState), reg ∈ registerRoutes →
      reg.endpoint = some m.endpoint → reg.matchesRequest req →
      serve env req = .reached m.endpoint caller.locals →
        AuditKept caller (m.run ctx s caller) := by
  intro h
  obtain ⟨hreg, he, hmatch⟩ := createRoleRoute_matchesRequest
  have hkept := h adminEnvironment createRoleRequest createRoleRoute
    (.createRole (some ("auditor", "")) "r") exampleAdmin exampleAdminContext exampleAdminState
    hreg he hmatch serve_createRoleRequest
  have hanswer : ((Mutation.createRole (some ("auditor", "")) "r").run exampleAdminContext
      exampleAdminState exampleAdmin) = ⟨.ok 201, []⟩ := by
    decide +kernel
  obtain ⟨e, hlogged, -⟩ := hkept.success 201 (by rw [hanswer])
  rw [hanswer] at hlogged
  cases hlogged

end IdpForge
