import IdpForge.Authorization
import IdpForge.RouteDispatch

/-!
# Middleware and the Route Table

The middleware of the HTTP server and the registrations of `New` and `registerRoutes`, in
their order. What the middleware asks of the session store, the databases, the counters and
the configuration is an `Environment`: the answers given while one request is served.

A route that registers through a group is listed with the handlers of that group, so that
what the route asks for "through its own group" can be read off the table.

## Main definitions

* `execHandler`: one handler of a chain, run on the request's locals.
* `registerRoutes`: the registrations of the server.
* `serve`: the fate of a request, the endpoint it reaches or the error it is refused with.
-/

open RouteDispatch

namespace IdpForge

/-- The HTTP methods Fiber keeps a stack of routes for. -/
inductive Method where
  | get | head | post | put | delete | connect | options | trace | patch
  deriving DecidableEq, Repr

/-- The last handlers of the routes. -/
inductive Endpoint where
  | handleHealth | handleMetrics | handleDiscovery | handleJWKS | handleAuthorize
  | handleToken | handleUserinfo | handleLogin | handleLogout
  | handleCreateUser | handleListUsers | handleGetUser | handleUpdateUser
  | handleDeleteUser | handleOffboardUser | handleResetUserPassword
  | handleAddDeviceCredential | handleListDeviceCredentials | handleDeleteDeviceCredential
  | handleUploadAvatar | handleMe | handleChangePassword
  | handleWebAuthnRegisterBegin | handleWebAuthnRegisterFinish
  | handleWebAuthnLoginBegin | handleWebAuthnLoginFinish
  | handleMFAEnroll | handleMFAConfirm | handleMFAVerify | handleMFADisable
  | handleCreateRole | handleListRoles | handleGetRole | handleListRolePermissions
  | handleDeleteRole | handleGrantPermissionToRole | handleRevokePermissionFromRole
  | handleCreatePermission | handleListPermissions | handleCreateGroup | handleListGroups
  | handleAssignRoleToGroup | handleRemoveRoleFromGroup | handleAddUserToGroup
  | handleRemoveUserFromGroup | handleListUserRoles | handleAssignRoleToUser
  | handleRemoveRoleFromUser
  | handleCreateDevice | handleListDevices | handleQueryEvents
  | handleCreateAPIClient | handleListAPIClients | handleDeleteAPIClient
  | handleQueryAuditLogs | handleMetricsHistory | handleGetSettings
  | handleListAnnouncements | handleCreateAnnouncement | handleWS
  | handleDeviceCheckin | handleExternalLogin | handleExternalGetUser
  | handleExternalCreateUser | handleForwardAuth
  deriving DecidableEq, Repr

/-- The handlers a layer is registered with. -/
inductive Handler where
  | requestid | metricsMiddleware | securityHeaders | csrfOriginCheck
  | rateLimitGlobal | rateLimitLogin
  | authenticateAny | requireUserActor | requirePermission (resource action : String)
  | requireDeviceKey | requireAPIClient | wsAuthContext | wsUpgradeGuard
  | endpoint (e : Endpoint)
  | spa
  deriving DecidableEq, Repr

/-- The parts of a request the middleware reads; a header or cookie that is not sent is
empty. -/
structure Request where
  method : Method
  path : String
  sessionCookie : String
  apiKey : String
  deviceKey : String
  origin : String
  referer : String
  ip : String
  upgrade : Bool
  deriving DecidableEq, Repr

/-- `iot.Device`, the fields the request path reads. -/
structure Device where
  id : String
  allowedIPs : List String
  deriving DecidableEq, Repr

/-- The configuration, the answers of the stores and the library calls that one request
meets. A lookup is `none` when it fails or finds nothing. -/
structure Environment where
  baseURL : String
  /-- `url.Parse`: the scheme and the host. -/
  parseURL : String → Option (String × String)
  toLower : String → String
  /-- `net.ParseIP` accepts the string. -/
  parseIP : String → Bool
  /-- `net.ParseCIDR` accepts the entry and the network contains the address. -/
  cidrContains : String → String → Bool
  nowUnix : Int
  sessionsGet : String → Option String
  authenticateClient : String → Option ApiClient
  authenticateDevice : String → Option Device
  /-- `cache.Increment`: the new count under a key. -/
  increment : String → Option Int
  resolve : String → Option Resolved
  globalLimitReached : Request → Bool
  loginLimitReached : Request → Bool

/-- The fate of a request. -/
inductive Outcome where
  | reached (e : Endpoint) (locals : Locals)
  | refused (error : FiberError)
  | panicked
  | servedSPA
  | notFound
  deriving DecidableEq, Repr

/-- What a handler makes of the locals. -/
abbrev Step := Flow Locals Outcome

/-- An error returned by a handler ends the chain. -/
def refuse (code : Nat) (message : String) : Step :=
  .done (.refused ⟨code, message⟩)

/-- A check that leaves the locals alone. -/
def gate (check : Except FiberError Unit) (locals : Locals) : Step :=
  match check with
  | .ok () => .next locals
  | .error e => .done (.refused e)

/-! ### Cross-origin requests -/

/-- `isStateChanging`. -/
def isStateChanging : Method → Bool
  | .post | .put | .patch | .delete => true
  | _ => false

section Middleware

variable (env : Environment) (req : Request)

/-- `originOf`. -/
def originOf (rawURL : String) : String :=
  match env.parseURL rawURL with
  | none => ""
  | some (scheme, host) =>
      if scheme = "" ∨ host = "" then "" else env.toLower (scheme ++ "://" ++ host)

/-- The origin the browser reports: the `Origin` header, else that of the referer. -/
def reportedOrigin : String :=
  if req.origin = "" then originOf env req.referer else req.origin

/-- `csrfOriginCheck`. -/
def csrfOriginCheck : Except FiberError Unit :=
  if !isStateChanging req.method then .ok ()
  else if req.sessionCookie = "" then .ok ()
  else
    let origin := reportedOrigin env req
    let allowedOrigin := originOf env env.baseURL
    if origin = "" ∨ allowedOrigin = "" ∨ origin ≠ allowedOrigin then
      newError 403 "cross-origin request rejected"
    else .ok ()

/-! ### Authentication -/

/-- `netutil.IPAllowed`. -/
def ipAllowed (ip : String) (allowed : List String) : Bool :=
  if allowed = [] then true
  else if !env.parseIP ip then false
  else allowed.any fun entry => entry = ip || env.cidrContains entry ip

/-- The cache key of a client's request count in the current window. -/
def rateLimitKey (client : ApiClient) : String :=
  "apiclient_rl:" ++ client.id ++ ":" ++
    toString (env.nowUnix.tdiv client.rateLimitWindowSeconds)

/-- The API client of the request's key: its allowlist and its own rate limit. -/
def admitAPIClient (missingKey : String) (locals : Locals) : Step :=
  if req.apiKey = "" then refuse 401 missingKey
  else
    match env.authenticateClient req.apiKey with
    | none => refuse 401 "invalid API key"
    | some client =>
        if !ipAllowed env req.ip client.allowedIPs then
          refuse 403 "source IP not allowed for this API client"
        else if client.rateLimitWindowSeconds = 0 then .done .panicked -- a division by zero
        else
          match env.increment (rateLimitKey env client) with
          | some count =>
              if count > client.rateLimitMax then
                refuse 429 "rate limit exceeded for this API client"
              else .next { locals with apiClient := some client }
          | none => .next { locals with apiClient := some client }

/-- The user of a live session, when the request carries one. -/
def sessionUser : Option String :=
  if req.sessionCookie = "" then none else env.sessionsGet req.sessionCookie

/-- `authenticateAny`: a live session, or else an API key. -/
def authenticateAny (locals : Locals) : Step :=
  match sessionUser env req with
  | some userID => .next { locals with userID := userID }
  | none => admitAPIClient env req "not authenticated" locals

/-- `requireAPIClient`. -/
def requireAPIClient (locals : Locals) : Step :=
  admitAPIClient env req "missing X-API-Key header" locals

/-- `requireDeviceKey`. -/
def requireDeviceKey (locals : Locals) : Step :=
  if req.deviceKey = "" then refuse 401 "missing X-Device-Key header"
  else
    match env.authenticateDevice req.deviceKey with
    | none => refuse 401 "invalid device key"
    | some device =>
        if !ipAllowed env req.ip device.allowedIPs then
          refuse 403 "source IP not allowed for this device"
        else .next { locals with deviceID := device.id }

/-- `wsAuthContext`. -/
def wsAuthContext (locals : Locals) : Step :=
  .next { locals with
    canSeeAudit :=
      if locals.userID ≠ "" then
        (hasPermission env.resolve locals.userID "audit" "read").getD false
      else false }

/-- The path prefixes the SPA leaves to the API. -/
def apiPathPrefixes : List String :=
  ["/api/", "/oauth2/", "/external/", "/device/", "/forwardauth/", "/.well-known/",
    "/healthz", "/metrics"]

/-- The handler of `registerSPA`: a file of the export, or its index page. -/
def spa (locals : Locals) : Step :=
  if apiPathPrefixes.any fun p => GoStrings.hasPrefix req.path p then .next locals
  else if req.method ≠ .get ∧ req.method ≠ .head then .next locals
  else .done .servedSPA

/-- One handler of a chain. The first three only add to the response. -/
def execHandler : Handler → Locals → Step
  | .requestid, locals => .next locals
  | .metricsMiddleware, locals => .next locals
  | .securityHeaders, locals => .next locals
  | .csrfOriginCheck, locals => gate (csrfOriginCheck env req) locals
  | .rateLimitGlobal, locals =>
      if env.globalLimitReached req then refuse 429 "rate limit exceeded, try again later"
      else .next locals
  | .rateLimitLogin, locals =>
      if env.loginLimitReached req then refuse 429 "rate limit exceeded, try again later"
      else .next locals
  | .authenticateAny, locals => authenticateAny env req locals
  | .requireUserActor, locals => gate (requireUserActor locals) locals
  | .requirePermission resource action, locals =>
      gate (requirePermission env.resolve resource action locals) locals
  | .requireDeviceKey, locals => requireDeviceKey env req locals
  | .requireAPIClient, locals => requireAPIClient env req locals
  | .wsAuthContext, locals => wsAuthContext env locals
  | .wsUpgradeGuard, locals =>
      if req.upgrade then .next locals else refuse 426 "Upgrade Required"
  | .endpoint e, locals => .done (.reached e locals)
  | .spa, locals => spa req locals

/-- The admission of an API client leaves the client, or ends the request before any
endpoint. -/
theorem admitAPIClient_cases (missingKey : String) (locals : Locals) :
    (∃ client, admitAPIClient env req missingKey locals =
      .next { locals with apiClient := some client }) ∨
    ∃ outcome, admitAPIClient env req missingKey locals = .done outcome ∧
      ∀ e locals', outcome ≠ .reached e locals' := by
  rw [admitAPIClient]
  split
  · exact Or.inr ⟨_, rfl, by simp⟩
  · split
    · exact Or.inr ⟨_, rfl, by simp⟩
    · next client _ =>
        split
        · exact Or.inr ⟨_, rfl, by simp⟩
        · split
          · exact Or.inr ⟨_, rfl, by simp⟩
          · split
            · split
              · exact Or.inr ⟨_, rfl, by simp⟩
              · exact Or.inl ⟨client, rfl⟩
            · exact Or.inl ⟨client, rfl⟩

end Middleware

/-! ### Registration -/

/-- Drops the slashes at the end of a path. -/
def trimSlashes (path : List Char) : List Char :=
  (path.reverse.dropWhile (· == '/')).reverse

/-- A Fiber group: the path its routes start with and the handlers it was made with. -/
structure Group where
  path : List Char
  handlers : List Handler
  deriving DecidableEq, Repr

/-- A route or a middleware layer, with the group it was registered through. -/
structure Registration where
  layer : Layer Method Handler
  group : Group
  deriving DecidableEq

/-- `getGroupPath`: the group's path without slashes at its end, then the path. -/
def getGroupPath (groupPath : List Char) (path : String) : List Char :=
  trimSlashes groupPath ++ path.toList

/-- `app` itself. -/
def app : Group := ⟨[], []⟩

/-- `Group`. -/
def Group.group (g : Group) (path : String) (handlers : List Handler) : Group :=
  ⟨getGroupPath g.path path, handlers⟩

/-- A group made with handlers registers them as middleware, for every method and under the
group's path, and so does `Use`. -/
def Group.use (g : Group) : List Registration :=
  if g.handlers = [] then []
  else [⟨⟨none, parse false (trimSlashes g.path), g.handlers⟩, g⟩]

/-- `Add`: a route for one method. The registered paths are in lower case already. -/
def Group.add (g : Group) (m : Method) (path : String) (handlers : List Handler) :
    Registration :=
  ⟨⟨some m, parse false (trimSlashes (getGroupPath g.path path)), handlers⟩, g⟩

/-- `Get` registers the route for `HEAD` as well. -/
def Group.get (g : Group) (path : String) (handlers : List Handler) : List Registration :=
  [g.add .head path handlers, g.add .get path handlers]

/-- `Post`. -/
def Group.post (g : Group) (path : String) (handlers : List Handler) : List Registration :=
  [g.add .post path handlers]

/-- `Patch`. -/
def Group.patch (g : Group) (path : String) (handlers : List Handler) : List Registration :=
  [g.add .patch path handlers]

/-- `Delete`. -/
def Group.delete (g : Group) (path : String) (handlers : List Handler) :
    List Registration :=
  [g.add .delete path handlers]

/-- `api`. -/
def api : Group := app.group "/api/v1" [.authenticateAny, .rateLimitGlobal]

/-- `u`, the user administration. -/
def usersGroup : Group := api.group "/users" []

/-- `self`, the self-service routes. -/
def selfGroup : Group := api.group "/" [.requireUserActor]

/-- `rbacGroup`. -/
def rbacGroup : Group := api.group "/rbac" [.requirePermission "rbac" "manage"]

/-- `iotAdmin`. -/
def iotAdmin : Group := api.group "/iot" [.requirePermission "iot" "manage"]

/-- `iotEvents`. -/
def iotEvents : Group := api.group "/iot" [.requirePermission "iot" "read"]

/-- `clientsAdmin`. -/
def clientsAdmin : Group :=
  api.group "/api-clients" [.requirePermission "api_clients" "manage"]

/-- The middleware `New` registers for every request. -/
def globalMiddleware : List Registration :=
  List.flatten [
    (app.group "/" [.requestid]).use,
    (app.group "/" [.metricsMiddleware]).use,
    (app.group "/" [.securityHeaders]).use,
    (app.group "/" [.csrfOriginCheck]).use]

/-- The routes outside `/api/v1` that `registerRoutes` starts with, and login and logout. -/
def publicRoutes : List Registration :=
  let discovery := app.group "/.well-known" [.rateLimitGlobal]
  let oauth := app.group "/oauth2" [.rateLimitGlobal]
  List.flatten [
    app.get "/healthz" [.endpoint .handleHealth],
    app.get "/metrics" [.endpoint .handleMetrics],
    discovery.use,
    discovery.get "/openid-configuration" [.endpoint .handleDiscovery],
    oauth.use,
    oauth.get "/jwks" [.endpoint .handleJWKS],
    oauth.get "/authorize" [.endpoint .handleAuthorize],
    oauth.post "/token" [.endpoint .handleToken],
    oauth.get "/userinfo" [.endpoint .handleUserinfo],
    app.post "/api/v1/login" [.rateLimitLogin, .endpoint .handleLogin],
    app.post "/api/v1/logout" [.endpoint .handleLogout]]

/-- The user administration, the first routes behind `api`. -/
def userRoutes : List Registration :=
  let manage := Handler.requirePermission "users" "manage"
  let read := Handler.requirePermission "users" "read"
  let u := usersGroup
  List.flatten [
    api.use,
    u.use,
    u.post "/" [manage, .endpoint .handleCreateUser],
    u.get "/" [read, .endpoint .handleListUsers],
    u.get "/:id" [read, .endpoint .handleGetUser],
    u.patch "/:id" [manage, .endpoint .handleUpdateUser],
    u.delete "/:id" [manage, .endpoint .handleDeleteUser],
    u.post "/:id/offboard" [manage, .endpoint .handleOffboardUser],
    u.post "/:id/reset-password" [manage, .endpoint .handleResetUserPassword],
    u.post "/:id/device-credentials" [manage, .endpoint .handleAddDeviceCredential],
    u.get "/:id/device-credentials" [read, .endpoint .handleListDeviceCredentials],
    u.delete "/:id/device-credentials/:cred_id"
      [manage, .endpoint .handleDeleteDeviceCredential]]

/-- The self-service routes. -/
def selfRoutes : List Registration :=
  let wa := selfGroup.group "/webauthn" []
  let m := selfGroup.group "/mfa" []
  List.flatten [
    selfGroup.use,
    selfGroup.post "/users/:id/avatar" [.endpoint .handleUploadAvatar],
    selfGroup.get "/me" [.endpoint .handleMe],
    selfGroup.post "/change-password" [.endpoint .handleChangePassword],
    wa.use,
    wa.post "/register/begin" [.endpoint .handleWebAuthnRegisterBegin],
    wa.post "/register/finish" [.endpoint .handleWebAuthnRegisterFinish],
    wa.post "/login/begin" [.endpoint .handleWebAuthnLoginBegin],
    wa.post "/login/finish" [.endpoint .handleWebAuthnLoginFinish],
    m.use,
    m.post "/enroll" [.endpoint .handleMFAEnroll],
    m.post "/confirm" [.endpoint .handleMFAConfirm],
    m.post "/verify" [.endpoint .handleMFAVerify],
    m.post "/disable" [.endpoint .handleMFADisable]]

/-- The administration of roles, permissions and groups. -/
def rbacRoutes : List Registration :=
  List.flatten [
    rbacGroup.use,
    rbacGroup.post "/roles" [.endpoint .handleCreateRole],
    rbacGroup.get "/roles" [.endpoint .handleListRoles],
    rbacGroup.get "/roles/:id" [.endpoint .handleGetRole],
    rbacGroup.get "/roles/:id/permissions" [.endpoint .handleListRolePermissions],
    rbacGroup.delete "/roles/:id" [.endpoint .handleDeleteRole],
    rbacGroup.post "/roles/:id/permissions" [.endpoint .handleGrantPermissionToRole],
    rbacGroup.delete "/roles/:id/permissions/:permission_id"
      [.endpoint .handleRevokePermissionFromRole],
    rbacGroup.post "/permissions" [.endpoint .handleCreatePermission],
    rbacGroup.get "/permissions" [.endpoint .handleListPermissions],
    rbacGroup.post "/groups" [.endpoint .handleCreateGroup],
    rbacGroup.get "/groups" [.endpoint .handleListGroups],
    rbacGroup.post "/groups/:id/roles" [.endpoint .handleAssignRoleToGroup],
    rbacGroup.delete "/groups/:id/roles/:role_id" [.endpoint .handleRemoveRoleFromGroup],
    rbacGroup.post "/groups/:id/users/:user_id" [.endpoint .handleAddUserToGroup],
    rbacGroup.delete "/groups/:id/users/:user_id" [.endpoint .handleRemoveUserFromGroup],
    rbacGroup.get "/users/:id/roles" [.endpoint .handleListUserRoles],
    rbacGroup.post "/users/:id/roles" [.endpoint .handleAssignRoleToUser],
    rbacGroup.delete "/users/:id/roles/:role_id" [.endpoint .handleRemoveRoleFromUser]]

/-- Devices, API clients and the rest of `/api/v1`. -/
def adminRoutes : List Registration :=
  List.flatten [
    iotAdmin.use,
    iotAdmin.post "/devices" [.endpoint .handleCreateDevice],
    iotAdmin.get "/devices" [.endpoint .handleListDevices],
    iotEvents.use,
    iotEvents.get "/events" [.endpoint .handleQueryEvents],
    clientsAdmin.use,
    clientsAdmin.post "/" [.endpoint .handleCreateAPIClient],
    clientsAdmin.get "/" [.endpoint .handleListAPIClients],
    clientsAdmin.delete "/:id" [.endpoint .handleDeleteAPIClient],
    api.get "/audit-logs" [.requirePermission "audit" "read", .endpoint .handleQueryAuditLogs],
    api.get "/metrics/history"
      [.requirePermission "metrics" "read", .endpoint .handleMetricsHistory],
    api.get "/settings" [.requirePermission "settings" "read", .endpoint .handleGetSettings],
    api.get "/announcements" [.endpoint .handleListAnnouncements],
    api.post "/announcements"
      [.requirePermission "announcements" "manage", .endpoint .handleCreateAnnouncement],
    api.get "/ws" [.wsAuthContext, .wsUpgradeGuard, .endpoint .handleWS]]

/-- The routes of devices, integrations and the reverse proxy, and the SPA, which comes
last. -/
def machineRoutes : List Registration :=
  let iotDevice := app.group "/device/v1" [.requireDeviceKey]
  let external := app.group "/external/v1" [.requireAPIClient]
  let fa := app.group "/forwardauth" []
  List.flatten [
    iotDevice.use,
    iotDevice.post "/checkin" [.endpoint .handleDeviceCheckin],
    external.use,
    external.post "/login" [.endpoint .handleExternalLogin],
    external.get "/users/:id" [.endpoint .handleExternalGetUser],
    external.post "/users" [.endpoint .handleExternalCreateUser],
    fa.use,
    fa.get "/" [.endpoint .handleForwardAuth],
    (app.group "/" [.spa]).use]

/-- The registrations of `New` and `registerRoutes`, in order. -/
def registerRoutes : List Registration :=
  globalMiddleware ++ publicRoutes ++ userRoutes ++ selfRoutes ++ rbacRoutes ++ adminRoutes ++
    machineRoutes

/-! ### Serving a request -/

/-- The path Fiber routes by: lower case, without slashes at its end. -/
def detectionPath (path : String) : List Char :=
  let lower := path.toList.map Char.toLower
  if lower.length > 1 then trimSlashes lower else lower

/-- A path that does not end in a slash is routed by its characters in lower case. -/
theorem detectionPath_of_getLast? {path : String}
    (h : (path.toList.map Char.toLower).getLast? ≠ some '/') :
    detectionPath path = path.toList.map Char.toLower := by
  have htrim : trimSlashes (path.toList.map Char.toLower) = path.toList.map Char.toLower := by
    rcases (path.toList.map Char.toLower).eq_nil_or_concat with hnil | ⟨init, c, hconcat⟩
    · rw [hnil]
      rfl
    · have hc : c ≠ '/' := by simpa [hconcat] using h
      simp [trimSlashes, hconcat, hc]
  rw [detectionPath, htrim, ite_self]

/-- The fate of a request. -/
def serve (env : Environment) (req : Request) : Outcome :=
  match dispatch (execHandler env req) req.method (detectionPath req.path)
      (registerRoutes.map (·.layer)) {} with
  | .done outcome => outcome
  | .next _ => .notFound

end IdpForge
