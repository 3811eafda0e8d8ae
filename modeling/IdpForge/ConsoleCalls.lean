import Mathlib
import IdpForge.MatcherAgreement
import IdpForge.RouteAuthorization
import IdpForge.UrlTemplate

/-!
# The Console and the Router

The pages of the web console call the server through the functions of `api`, and decide by the
permissions of `/api/v1/me` which links and buttons they show. `NAV` says of itself that the
permissions it asks for are those the server demands of the page's calls. Here the functions
are URLs over the parameters of the source's templates, the pages are the calls they make with
what hides them, and both are held against the route table.

## Main results

* `answered_iff`: a call of a signed-in user reaches its own endpoint exactly when the user
  holds what the call needs, whatever ids and queries it is made with.
* `console_agrees`: which of the calls that the console offers can be refused, and when the
  dashboard has its counts.
-/

open GoStrings RouteDispatch UrlTemplate

namespace IdpForge

/-! ### The calls -/

/-- The functions of `api`, and the two calls that are made without them: `useMe` and the form
of the change-password page. -/
inductive ConsoleCall where
  | login | logout
  | usersList | usersGet | usersCreate | usersUpdate | usersRemove | usersOffboard
  | usersResetPassword | usersCredentials | usersAddCredential | usersRemoveCredential
  | rbacRoles | rbacGetRole | rbacRolePermissions | rbacCreateRole | rbacDeleteRole
  | rbacPermissions | rbacCreatePermission | rbacGrantPermission | rbacRevokePermission
  | rbacUserRoles | rbacGroups | rbacCreateGroup | rbacAssignRoleToUser
  | rbacRemoveRoleFromUser
  | mfaEnroll | mfaConfirm | mfaDisable | webauthnRegisterBegin | webauthnRegisterFinish
  | avatarUpload | apiClientsList | apiClientsCreate | apiClientsRemove
  | iotDevices | iotCreateDevice | iotEvents | auditLogs | metricsHistory | settings
  | announcementsList | announcementsCreate | me | changePassword
  deriving DecidableEq, Repr

/-- What `fetch` is called with: the method, and the template of the URL in its two parts. -/
structure Fetch where
  method : Method
  path : List (Piece String)
  query : List (Piece String) := []
  deriving DecidableEq, Repr

/-- The method and the URL of a function of `api`. A body has no part in routing. -/
def ConsoleCall.fetch : ConsoleCall → Fetch
  | .login => ⟨.post, [.text "/api/v1/login"], []⟩
  | .logout => ⟨.post, [.text "/api/v1/logout"], []⟩
  | .usersList => ⟨.get, [.text "/api/v1/users"],
      [.text "?limit=", .arg "limit", .text "&offset=", .arg "offset"]⟩
  | .usersGet => ⟨.get, [.text "/api/v1/users/", .arg "id"], []⟩
  | .usersCreate => ⟨.post, [.text "/api/v1/users"], []⟩
  | .usersUpdate => ⟨.patch, [.text "/api/v1/users/", .arg "id"], []⟩
  | .usersRemove => ⟨.delete, [.text "/api/v1/users/", .arg "id"], []⟩
  | .usersOffboard => ⟨.post, [.text "/api/v1/users/", .arg "id", .text "/offboard"], []⟩
  | .usersResetPassword =>
      ⟨.post, [.text "/api/v1/users/", .arg "id", .text "/reset-password"], []⟩
  | .usersCredentials =>
      ⟨.get, [.text "/api/v1/users/", .arg "id", .text "/device-credentials"], []⟩
  | .usersAddCredential =>
      ⟨.post, [.text "/api/v1/users/", .arg "id", .text "/device-credentials"], []⟩
  | .usersRemoveCredential => ⟨.delete,
      [.text "/api/v1/users/", .arg "id", .text "/device-credentials/", .arg "credId"], []⟩
  | .rbacRoles => ⟨.get, [.text "/api/v1/rbac/roles"], []⟩
  | .rbacGetRole => ⟨.get, [.text "/api/v1/rbac/roles/", .arg "id"], []⟩
  | .rbacRolePermissions =>
      ⟨.get, [.text "/api/v1/rbac/roles/", .arg "id", .text "/permissions"], []⟩
  | .rbacCreateRole => ⟨.post, [.text "/api/v1/rbac/roles"], []⟩
  | .rbacDeleteRole => ⟨.delete, [.text "/api/v1/rbac/roles/", .arg "id"], []⟩
  | .rbacPermissions => ⟨.get, [.text "/api/v1/rbac/permissions"], []⟩
  | .rbacCreatePermission => ⟨.post, [.text "/api/v1/rbac/permissions"], []⟩
  | .rbacGrantPermission =>
      ⟨.post, [.text "/api/v1/rbac/roles/", .arg "roleId", .text "/permissions"], []⟩
  | .rbacRevokePermission => ⟨.delete,
      [.text "/api/v1/rbac/roles/", .arg "roleId", .text "/permissions/", .arg "permissionId"],
      []⟩
  | .rbacUserRoles => ⟨.get, [.text "/api/v1/rbac/users/", .arg "userId", .text "/roles"], []⟩
  | .rbacGroups => ⟨.get, [.text "/api/v1/rbac/groups"], []⟩
  | .rbacCreateGroup => ⟨.post, [.text "/api/v1/rbac/groups"], []⟩
  | .rbacAssignRoleToUser =>
      ⟨.post, [.text "/api/v1/rbac/users/", .arg "userId", .text "/roles"], []⟩
  | .rbacRemoveRoleFromUser => ⟨.delete,
      [.text "/api/v1/rbac/users/", .arg "userId", .text "/roles/", .arg "roleId"], []⟩
  | .mfaEnroll => ⟨.post, [.text "/api/v1/mfa/enroll"], []⟩
  | .mfaConfirm => ⟨.post, [.text "/api/v1/mfa/confirm"], []⟩
  | .mfaDisable => ⟨.post, [.text "/api/v1/mfa/disable"], []⟩
  | .webauthnRegisterBegin => ⟨.post, [.text "/api/v1/webauthn/register/begin"], []⟩
  | .webauthnRegisterFinish => ⟨.post, [.text "/api/v1/webauthn/register/finish"], []⟩
  | .avatarUpload => ⟨.post, [.text "/api/v1/users/", .arg "id", .text "/avatar"], []⟩
  | .apiClientsList => ⟨.get, [.text "/api/v1/api-clients"], []⟩
  | .apiClientsCreate => ⟨.post, [.text "/api/v1/api-clients"], []⟩
  | .apiClientsRemove => ⟨.delete, [.text "/api/v1/api-clients/", .arg "id"], []⟩
  | .iotDevices => ⟨.get, [.text "/api/v1/iot/devices"], []⟩
  | .iotCreateDevice => ⟨.post, [.text "/api/v1/iot/devices"], []⟩
  | .iotEvents => ⟨.get, [.text "/api/v1/iot/events"], [.arg "params"]⟩
  | .auditLogs => ⟨.get, [.text "/api/v1/audit-logs"], [.arg "params"]⟩
  | .metricsHistory => ⟨.get, [.text "/api/v1/metrics/history"],
      [.text "?days=", .arg "days"]⟩
  | .settings => ⟨.get, [.text "/api/v1/settings"], []⟩
  | .announcementsList => ⟨.get, [.text "/api/v1/announcements"], []⟩
  | .announcementsCreate => ⟨.post, [.text "/api/v1/announcements"], []⟩
  | .me => ⟨.get, [.text "/api/v1/me"], []⟩
  | .changePassword => ⟨.post, [.text "/api/v1/change-password"], []⟩

/-- The endpoint a call is meant for. -/
def ConsoleCall.endpoint : ConsoleCall → Endpoint
  | .login => .handleLogin
  | .logout => .handleLogout
  | .usersList => .handleListUsers
  | .usersGet => .handleGetUser
  | .usersCreate => .handleCreateUser
  | .usersUpdate => .handleUpdateUser
  | .usersRemove => .handleDeleteUser
  | .usersOffboard => .handleOffboardUser
  | .usersResetPassword => .handleResetUserPassword
  | .usersCredentials => .handleListDeviceCredentials
  | .usersAddCredential => .handleAddDeviceCredential
  | .usersRemoveCredential => .handleDeleteDeviceCredential
  | .rbacRoles => .handleListRoles
  | .rbacGetRole => .handleGetRole
  | .rbacRolePermissions => .handleListRolePermissions
  | .rbacCreateRole => .handleCreateRole
  | .rbacDeleteRole => .handleDeleteRole
  | .rbacPermissions => .handleListPermissions
  | .rbacCreatePermission => .handleCreatePermission
  | .rbacGrantPermission => .handleGrantPermissionToRole
  | .rbacRevokePermission => .handleRevokePermissionFromRole
  | .rbacUserRoles => .handleListUserRoles
  | .rbacGroups => .handleListGroups
  | .rbacCreateGroup => .handleCreateGroup
  | .rbacAssignRoleToUser => .handleAssignRoleToUser
  | .rbacRemoveRoleFromUser => .handleRemoveRoleFromUser
  | .mfaEnroll => .handleMFAEnroll
  | .mfaConfirm => .handleMFAConfirm
  | .mfaDisable => .handleMFADisable
  | .webauthnRegisterBegin => .handleWebAuthnRegisterBegin
  | .webauthnRegisterFinish => .handleWebAuthnRegisterFinish
  | .avatarUpload => .handleUploadAvatar
  | .apiClientsList => .handleListAPIClients
  | .apiClientsCreate => .handleCreateAPIClient
  | .apiClientsRemove => .handleDeleteAPIClient
  | .iotDevices => .handleListDevices
  | .iotCreateDevice => .handleCreateDevice
  | .iotEvents => .handleQueryEvents
  | .auditLogs => .handleQueryAuditLogs
  | .metricsHistory => .handleMetricsHistory
  | .settings => .handleGetSettings
  | .announcementsList => .handleListAnnouncements
  | .announcementsCreate => .handleCreateAnnouncement
  | .me => .handleMe
  | .changePassword => .handleChangePassword

/-- What the caller has to hold, besides a session. -/
def ConsoleCall.needs : ConsoleCall → List Permission
  | .usersList | .usersGet | .usersCredentials => [⟨"users", "read"⟩]
  | .usersCreate | .usersUpdate | .usersRemove | .usersOffboard | .usersResetPassword
  | .usersAddCredential | .usersRemoveCredential => [⟨"users", "manage"⟩]
  | .rbacRoles | .rbacGetRole | .rbacRolePermissions | .rbacCreateRole | .rbacDeleteRole
  | .rbacPermissions | .rbacCreatePermission | .rbacGrantPermission | .rbacRevokePermission
  | .rbacUserRoles | .rbacGroups | .rbacCreateGroup | .rbacAssignRoleToUser
  | .rbacRemoveRoleFromUser => [⟨"rbac", "manage"⟩]
  | .apiClientsList | .apiClientsCreate | .apiClientsRemove => [⟨"api_clients", "manage"⟩]
  | .iotDevices | .iotCreateDevice => [⟨"iot", "manage"⟩]
  | .iotEvents => [⟨"iot", "manage"⟩, ⟨"iot", "read"⟩]
  | .auditLogs => [⟨"audit", "read"⟩]
  | .metricsHistory => [⟨"metrics", "read"⟩]
  | .settings => [⟨"settings", "read"⟩]
  | .announcementsCreate => [⟨"announcements", "manage"⟩]
  | .login | .logout | .mfaEnroll | .mfaConfirm | .mfaDisable | .webauthnRegisterBegin
  | .webauthnRegisterFinish | .avatarUpload | .announcementsList | .me | .changePassword => []

/-! ### A signed-in browser -/

/-- The texts of ids: letters, digits and hyphens. -/
def IsId (s : String) : Prop := s ≠ "" ∧ ∀ c ∈ s.toList, c.isAlphanum = true ∨ c = '-'

/-- The parameters a function is called with: ids in its path, and where the function leaves the
query to its caller, a query with its question mark or nothing. -/
structure ConsoleCall.Fits (call : ConsoleCall) (args : String → String) : Prop where
  ids : ∀ n, .arg n ∈ call.fetch.path → IsId (args n)
  query : QueryText (render (fun n => (args n).toList) call.fetch.query)

/-- A browser with a live session of a user, on a page of the server's own origin, while no
request limit is reached. -/
structure ConsoleSession (env : Environment) where
  userID : String
  cookie : String
  origin : String
  referer : String
  ip : String
  resolved : Resolved
  userID_ne : userID ≠ ""
  cookie_ne : cookie ≠ ""
  origin_ne : origin ≠ ""
  live : env.sessionsGet cookie = some userID
  sameOrigin : originOf env env.baseURL = origin
  resolves : env.resolve userID = some resolved
  unlimited : ∀ req, env.globalLimitReached req = false
  loginUnlimited : ∀ req, env.loginLimitReached req = false

section Session

variable {env : Environment}

/-- The request `fetch` makes: the session cookie goes along, and the origin with a method
other than `GET`. -/
def ConsoleSession.request (session : ConsoleSession env) (call : ConsoleCall)
    (args : String → String) : Request where
  method := call.fetch.method
  path := String.ofList (urlPath (render (fun n => (args n).toList)
    (call.fetch.path ++ call.fetch.query)))
  sessionCookie := session.cookie
  apiKey := ""
  deviceKey := ""
  origin := if call.fetch.method = .get then "" else session.origin
  referer := session.referer
  ip := session.ip
  upgrade := false

/-- The call gets to the endpoint it is meant for. -/
def ConsoleSession.Answered (session : ConsoleSession env) (call : ConsoleCall)
    (args : String → String) : Prop :=
  ∃ locals, serve env (session.request call args) = .reached call.endpoint locals

end Session

/-! ### The pages -/

/-- A page: the link it is reached by, the permission the link asks for, and the calls of the
page, each with the permissions that what makes it is hidden without. -/
structure ConsolePage where
  href : String
  requires : Option Permission
  calls : List (ConsoleCall × List Permission)
  deriving DecidableEq, Repr

/-- Calls that are made for whoever has the page. -/
def forAll (calls : List ConsoleCall) : List (ConsoleCall × List Permission) :=
  calls.map fun call => (call, [])

/-- Calls of what `useCan` hides. -/
def useCan (resource action : String) (calls : List ConsoleCall) :
    List (ConsoleCall × List Permission) :=
  calls.map fun call => (call, [⟨resource, action⟩])

/-- The pages of the console, the shell around them first. The two detail pages ask for nothing
themselves; the links to them are on the pages of the users and of the roles, and among the
users that a search finds. -/
def consolePages : List ConsolePage := [
  ⟨"AppShell", none,
    forAll [.me, .announcementsList, .usersList, .logout] ++
      useCan "announcements" "manage" [.announcementsCreate]⟩,
  ⟨"/login", none, forAll [.login]⟩,
  ⟨"/change-password", none, forAll [.changePassword]⟩,
  ⟨"/", none, forAll [.usersList, .rbacRoles, .apiClientsList, .iotDevices]⟩,
  ⟨"/users", some ⟨"users", "read"⟩,
    forAll [.usersList] ++ useCan "users" "manage" [.usersCreate]⟩,
  ⟨"/users/detail", some ⟨"users", "read"⟩,
    forAll [.usersGet, .rbacUserRoles, .rbacRoles, .usersCredentials] ++
      useCan "users" "manage" [.usersUpdate, .usersResetPassword, .usersOffboard, .usersRemove,
        .usersRemoveCredential, .usersAddCredential] ++
      useCan "rbac" "manage" [.rbacRemoveRoleFromUser, .rbacAssignRoleToUser]⟩,
  ⟨"/roles", some ⟨"rbac", "manage"⟩,
    forAll [.rbacRoles, .rbacPermissions, .rbacGroups, .rbacCreateRole, .rbacDeleteRole,
      .rbacCreatePermission, .rbacCreateGroup]⟩,
  ⟨"/roles/detail", some ⟨"rbac", "manage"⟩,
    forAll [.rbacGetRole, .rbacRolePermissions, .rbacPermissions, .rbacRevokePermission,
      .rbacGrantPermission]⟩,
  ⟨"/api-clients", some ⟨"api_clients", "manage"⟩,
    forAll [.apiClientsList, .apiClientsCreate, .apiClientsRemove]⟩,
  ⟨"/iot", some ⟨"iot", "read"⟩,
    forAll [.iotDevices, .iotEvents] ++ useCan "iot" "manage" [.iotCreateDevice]⟩,
  ⟨"/usage", some ⟨"metrics", "read"⟩, forAll [.metricsHistory]⟩,
  ⟨"/audit", some ⟨"audit", "read"⟩, forAll [.usersList, .auditLogs]⟩,
  ⟨"/settings", some ⟨"settings", "read"⟩, forAll [.settings]⟩,
  ⟨"/account", none,
    forAll [.avatarUpload, .mfaEnroll, .mfaConfirm, .mfaDisable, .webauthnRegisterBegin,
      .webauthnRegisterFinish]⟩]

/-- A call on a page, with all that hides it. -/
structure ConsoleOffer where
  page : String
  call : ConsoleCall
  gates : List Permission
  deriving DecidableEq, Repr

/-- What the console offers. -/
def consoleOffers : List ConsoleOffer :=
  consolePages.flatMap fun page =>
    page.calls.map fun use => ⟨page.href, use.1, page.requires.toList ++ use.2⟩

/-- Whether the console makes the offer to a user with these permissions of `/api/v1/me`. -/
def ConsoleOffer.shown (offer : ConsoleOffer) (permissions : List String) : Bool :=
  offer.gates.all fun p => webHasPermission permissions p.resource p.action

/-- The offers that do not ask for all that their call needs. -/
def refusable : List (String × ConsoleCall) := [
  ("AppShell", .usersList),
  ("/", .usersList), ("/", .rbacRoles), ("/", .apiClientsList), ("/", .iotDevices),
  ("/users/detail", .rbacUserRoles), ("/users/detail", .rbacRoles),
  ("/iot", .iotDevices), ("/iot", .iotEvents),
  ("/audit", .usersList)]

/-- The four lists of the dashboard. -/
def dashboardCalls : List ConsoleCall := [.usersList, .rbacRoles, .apiClientsList, .iotDevices]

/-- The counts of the dashboard, by the lengths of the four answers: `Promise.all` has all of
them or fails. -/
def dashboardCounts (count : ConsoleCall → Option Nat) : Option (List Nat) :=
  dashboardCalls.mapM count

/-! ### The requests -/

/-- What the templates of paths are like: in lower case, with no slash at the end and no
parameter that is only a part of a segment. -/
def ConsoleCall.wellFormed (call : ConsoleCall) : Bool :=
  closed (pattern call.fetch.path) &&
    call.fetch.path.all (fun
      | .text s => s.toList ≠ [] && s.toList.map Char.toLower = s.toList && '?' ∉ s.toList &&
          '#' ∉ s.toList
      | .arg _ => true) &&
    (match call.fetch.path.getLast? with
      | some (.text s) => s.toList.getLast? ≠ some '/'
      | some (.arg _) => true
      | none => false)

/-- The templates are well formed. -/
theorem wellFormed_all (call : ConsoleCall) : call.wellFormed = true := by
  cases call <;> decide +kernel

/-- Only a slash has a slash as its lower case. -/
theorem toLower_eq_slash_iff {c : Char} : c.toLower = '/' ↔ c = '/' := by
  constructor
  · intro h
    by_cases hupper : c.isUpper = true
    · have hlower := Char.isLower_toLower_eq_isAlpha c
      rw [h, Char.isAlpha, hupper, Bool.true_or] at hlower
      exact absurd hlower (by decide)
    · rw [← h, Char.toLower_eq_of_not_isUpper hupper]
  · rintro rfl
    decide

/-- An id has no character that means something in a URL. -/
theorem IsId.notMem {s : String} (h : IsId s) {c : Char} (hc : c.isAlphanum = false)
    (hne : c ≠ '-') : c ∉ s.toList := by
  intro hmem
  rcases h.2 c hmem with halnum | hdash
  · rw [hc] at halnum
    exact Bool.false_ne_true halnum
  · exact hne hdash

/-- An id in lower case is a segment. -/
theorem IsId.segment {s : String} (h : IsId s) : Segment (s.toList.map Char.toLower) := by
  refine ⟨by simpa using h.1, ?_⟩
  rw [List.mem_map]
  rintro ⟨c, hc, hlower⟩
  rw [toLower_eq_slash_iff] at hlower
  exact h.notMem (by decide) (by decide) (hlower ▸ hc)

section Request

variable {env : Environment} {call : ConsoleCall} {args : String → String}

/-- The texts of the paths. -/
theorem ConsoleCall.text_mem {s : String} (hs : .text s ∈ call.fetch.path) :
    s.toList ≠ [] ∧ s.toList.map Char.toLower = s.toList ∧ '?' ∉ s.toList ∧ '#' ∉ s.toList := by
  have hall := wellFormed_all call
  simp only [ConsoleCall.wellFormed, Bool.and_eq_true, List.all_eq_true] at hall
  have htext := hall.1.2 _ hs
  simp only [Bool.and_eq_true, decide_eq_true_eq] at htext
  exact ⟨htext.1.1.1, htext.1.1.2, htext.1.2, htext.2⟩

/-- **The path a call is routed by** is its template with the ids in lower case. -/
theorem detectionPath_request (session : ConsoleSession env) (hfits : call.Fits args) :
    detectionPath (session.request call args).path =
      render (fun n => (args n).toList.map Char.toLower) call.fetch.path := by
  have hquestion : '?' ∉ render (fun n => (args n).toList) call.fetch.path :=
    notMem_render (fun s hs => (ConsoleCall.text_mem hs).2.2.1)
      fun n hn => (hfits.ids n hn).notMem (by decide) (by decide)
  have hhash : '#' ∉ render (fun n => (args n).toList) call.fetch.path :=
    notMem_render (fun s hs => (ConsoleCall.text_mem hs).2.2.2)
      fun n hn => (hfits.ids n hn).notMem (by decide) (by decide)
  have hpath : (session.request call args).path.toList =
      render (fun n => (args n).toList) call.fetch.path := by
    rw [ConsoleSession.request, String.toList_ofList, render_append,
      urlPath_render hquestion hhash hfits.query]
  have hlower : (render (fun n => (args n).toList) call.fetch.path).map Char.toLower =
      render (fun n => (args n).toList.map Char.toLower) call.fetch.path :=
    render_map Char.toLower fun s hs => (ConsoleCall.text_mem hs).2.1
  have hlast : (render (fun n => (args n).toList.map Char.toLower) call.fetch.path).getLast? ≠
      some '/' := by
    have hall := wellFormed_all call
    simp only [ConsoleCall.wellFormed, Bool.and_eq_true] at hall
    have hend := hall.2
    cases hp : call.fetch.path.getLast? with
    | none => simp [hp] at hend
    | some p =>
        have hmem : p ∈ call.fetch.path := List.mem_of_getLast? hp
        cases p with
        | text s =>
            rw [hp] at hend
            rw [getLast?_render hp (ConsoleCall.text_mem hmem).1]
            simpa using hend
        | arg n =>
            have hsegment : Segment ((Piece.arg n).render fun n =>
                (args n).toList.map Char.toLower) := (hfits.ids n hmem).segment
            rw [getLast?_render hp hsegment.1]
            exact fun hsome => hsegment.2 (List.mem_of_getLast? hsome)
  rw [detectionPath_of_getLast? (by rw [hpath, hlower]; exact hlast), hpath, hlower]

/-- The gates of the route that a call is meant for are its needs. -/
def ConsoleCall.routedBy (call : ConsoleCall) (reg : Registration) : Bool :=
  reg.layer.method = some call.fetch.method && reg.layer.path = pattern call.fetch.path &&
    reg.endpoint = some call.endpoint &&
    (reg.group.gates ++ reg.layer.handlers.dropLast).all
      (fun h => h = .requireUserActor || h.demand.isSome) &&
    (reg.group.gates ++ reg.layer.handlers.dropLast).filterMap Handler.demand = call.needs

/-- The calls that come before the API's own authentication, with the handlers they pass. -/
def ConsoleCall.openTo (call : ConsoleCall) (reg : Registration) : Bool :=
  let common := [Handler.requestid, .metricsMiddleware, .securityHeaders, .csrfOriginCheck]
  reg.layer.method = some call.fetch.method && reg.layer.path = pattern call.fetch.path &&
    reg.endpoint = some call.endpoint && call.needs = [] &&
    (reg.guardedBy common || reg.guardedBy (common ++ [.rateLimitLogin]))

/-- **Every call has its route**, with exactly what the call needs before the endpoint. -/
theorem routed_all (call : ConsoleCall) :
    apiRoutes.any call.routedBy = true ∨ publicRoutes.any call.openTo = true := by
  cases call <;> first | (left; decide +kernel) | (right; decide +kernel)

/-- The request is one of each route with the call's method and pattern. -/
theorem matchesRequest_request (session : ConsoleSession env) (hfits : call.Fits args)
    {reg : Registration} (hmethod : reg.layer.method = some call.fetch.method)
    (hpath : reg.layer.path = pattern call.fetch.path) :
    reg.matchesRequest (session.request call args) := by
  have hall := wellFormed_all call
  simp only [ConsoleCall.wellFormed, Bool.and_eq_true] at hall
  refine ⟨hmethod, ?_⟩
  rw [detectionPath_request session hfits, hpath]
  exact matchPath_render hall.1.1 (fun s hs => (ConsoleCall.text_mem hs).1)
    fun n hn => (hfits.ids n hn).segment

/-- The console's own calls pass the cross-origin check. -/
theorem csrfOriginCheck_request (session : ConsoleSession env) :
    csrfOriginCheck env (session.request call args) = .ok () := by
  rw [csrfOriginCheck]
  by_cases hget : call.fetch.method = .get
  · simp [ConsoleSession.request, hget, isStateChanging]
  · have horigin : reportedOrigin env (session.request call args) = session.origin := by
      simp [reportedOrigin, ConsoleSession.request, hget, session.origin_ne]
    rw [horigin, session.sameOrigin]
    simp [session.origin_ne]

/-- The session is what authenticates the call. -/
theorem authenticateAny_request (session : ConsoleSession env) :
    authenticateAny env (session.request call args) {} = .next { userID := session.userID } := by
  have huser : sessionUser env (session.request call args) = some session.userID := by
    simp [sessionUser, ConsoleSession.request, session.cookie_ne, session.live]
  rw [authenticateAny, huser]

/-- The gates of a route let the user pass who holds what they ask for. -/
theorem exists_runHandlers_gates_iff (session : ConsoleSession env) {req : Request}
    {gates : List Handler}
    (hgates : ∀ h ∈ gates, h = .requireUserActor ∨ h.demand.isSome = true) :
    (∃ locals, runHandlers (execHandler env req) gates { userID := session.userID } =
        .next locals) ↔
      ∀ p ∈ gates.filterMap Handler.demand,
        session.resolved.has p.resource p.action = true := by
  have hgate : ∀ check (s s' : Locals), gate check s = .next s' ↔ s' = s ∧ check = .ok () := by
    intro check s s'
    cases check <;> simp [gate, eq_comm]
  have hholds : ∀ (s : Locals) resource action, s.userID = session.userID →
      (s.holds env.resolve resource action = true ↔
        session.resolved.has resource action = true) := by
    intro s resource action hs
    simp [Locals.holds, hasPermission, hs, session.userID_ne, session.resolves]
  have hkeep : ∀ h ∈ gates, ∀ s s', s.userID = session.userID →
      execHandler env req h s = .next s' → s'.userID = session.userID := by
    intro h hh s s' hs hnext
    rcases hgates h hh with rfl | hdemand
    · rw [execHandler, hgate] at hnext
      rw [hnext.1, hs]
    · cases h with
      | requirePermission resource action =>
          rw [execHandler, hgate] at hnext
          rw [hnext.1, hs]
      | _ => simp [Handler.demand] at hdemand
  have hok : ∀ h ∈ gates, ∀ s, s.userID = session.userID →
      ((∃ s', execHandler env req h s = .next s') ↔
        ∀ p, h.demand = some p → session.resolved.has p.resource p.action = true) := by
    intro h hh s hs
    rcases hgates h hh with rfl | hdemand
    · simp [execHandler, hgate, requireUserActor_eq_ok_iff, hs, session.userID_ne, Handler.demand]
    · cases h with
      | requirePermission resource action =>
          simp [execHandler, hgate, requirePermission_eq_ok_iff, hholds s _ _ hs, Handler.demand]
      | _ => simp [Handler.demand] at hdemand
  rw [exists_runHandlers_next_iff hkeep hok rfl]
  simp only [List.mem_filterMap]
  constructor
  · rintro h p ⟨g, hg, hp⟩
    exact h g hg p hp
  · intro h g hg p hp
    exact h p ⟨g, hg, hp⟩

/-- **A call is answered for whoever holds what it needs.** -/
theorem answered_iff (session : ConsoleSession env) (hfits : call.Fits args) :
    session.Answered call args ↔
      ∀ p ∈ call.needs, session.resolved.has p.resource p.action = true := by
  rcases routed_all call with hany | hany
  · obtain ⟨reg, hreg, hrouted⟩ := List.any_eq_true.mp hany
    simp only [ConsoleCall.routedBy, Bool.and_eq_true, decide_eq_true_eq, List.all_eq_true,
      Bool.or_eq_true] at hrouted
    obtain ⟨⟨⟨⟨hmethod, hpath⟩, he⟩, hgates⟩, hneeds⟩ := hrouted
    have hmatch := matchesRequest_request session hfits hmethod hpath
    have hpreamble : runHandlers (execHandler env (session.request call args)) apiPreamble {} =
        .next { userID := session.userID } :=
      runHandlers_apiPreamble.mpr ⟨csrfOriginCheck_request session,
        authenticateAny_request session, session.unlimited _⟩
    rw [← hneeds, ← exists_runHandlers_gates_iff session hgates]
    refine exists_congr fun locals => ?_
    rw [serve_eq_reached_iff hreg he hmatch, Registration.guards, runHandlers_append, hpreamble]
    exact and_iff_right rfl
  · obtain ⟨reg, -, hopen⟩ := List.any_eq_true.mp hany
    simp only [ConsoleCall.openTo, Bool.and_eq_true, decide_eq_true_eq, Bool.or_eq_true] at hopen
    obtain ⟨⟨⟨⟨hmethod, hpath⟩, he⟩, hneeds⟩, hguarded⟩ := hopen
    have hmatch := matchesRequest_request session hfits hmethod hpath
    have hcsrf : csrfOriginCheck env (session.request call args) = .ok () :=
      csrfOriginCheck_request session
    rw [hneeds]
    refine ⟨fun _ p hp => absurd hp List.not_mem_nil, fun _ => ⟨{}, ?_⟩⟩
    rcases hguarded with hguarded | hguarded
    · rw [serve_eq_reached_of_guardedBy hguarded (by decide) he hmatch]
      simp [runHandlers, execHandler, gate, hcsrf]
    · rw [serve_eq_reached_of_guardedBy hguarded (by decide) he hmatch]
      simp [runHandlers, execHandler, gate, hcsrf, session.loginUnlimited]

end Request

/-! ### What the console offers -/

/-- A string with a colon in its resource spells a permission with a colon in its action. -/
theorem colon_mem_of_spelled {p g : Permission} (hcolon : ':' ∈ p.resource.toList)
    (hspells : scopeGrant p.string = some g) : ':' ∈ g.action.toList := by
  obtain ⟨⟨before, after⟩, hcut, rfl⟩ := Option.map_eq_some_iff.mp hspells
  obtain ⟨hstring, hbefore⟩ := cut_eq_some_iff.mp hcut
  have hcount := congrArg (fun s : String => s.toList.count ':') hstring
  have hresource : 0 < p.resource.toList.count ':' := List.count_pos_iff.mpr hcolon
  have hzero : before.toList.count ':' = 0 := List.count_eq_zero.mpr hbefore
  have hafter : 0 < after.toList.count ':' := by
    simp [Permission.string] at hcount
    omega
  exact List.count_pos_iff.mp hafter

/-- A pattern with a colon covers no resource without one. -/
theorem colon_mem_of_covers {pattern resource : String} (hcolon : ':' ∈ pattern.toList)
    (hcovers : PatternCovers pattern resource) : ':' ∈ resource.toList := by
  rcases hcovers with h | h | ⟨q, hq, hr⟩
  · exact h ▸ hcolon
  · simp [h] at hcolon
  · have hmem : ':' ∈ q := by simpa [hq] using hcolon
    rcases hr with h | ⟨t, h⟩ <;> simp [h, hmem]

/-- **The console and the server agree** on every question without a colon. -/
theorem webHasPermission_mePermissions {resolved : Resolved} {resource action : String}
    (hresource : ':' ∉ resource.toList) (haction : ':' ∉ action.toList) :
    webHasPermission (mePermissions resolved) resource action = resolved.has resource action := by
  have hweb := webHasPermission_eq_hasScope
    ⟨"", "", [], mePermissions resolved, [], 0, 0, true⟩ resource action
  rw [hweb, Bool.eq_iff_iff, ApiClient.hasScope_iff, Resolved.has_iff, ApiClient.grants]
  constructor
  · rintro ⟨g, hg, rfl, hcovers⟩
    obtain ⟨s, hs, hspells⟩ := List.mem_filterMap.mp hg
    obtain ⟨p, hp, rfl⟩ := List.mem_map.mp hs
    by_cases hcolon : ':' ∈ p.resource.toList
    · exact absurd (colon_mem_of_spelled hcolon hspells) haction
    · have hpg : scopeGrant p.string = some p := scopeGrant_string_iff.mpr hcolon
      obtain rfl : p = g := Option.some.inj (hpg.symm.trans hspells)
      exact ⟨p, hp, rfl, hcovers⟩
  · rintro ⟨p, hp, rfl, hcovers⟩
    have hcolon : ':' ∉ p.resource.toList := fun h => hresource (colon_mem_of_covers h hcovers)
    exact ⟨p, List.mem_filterMap.mpr ⟨p.string, List.mem_map_of_mem hp,
      scopeGrant_string_iff.mpr hcolon⟩, rfl, hcovers⟩

/-- What hides an offer is asked without colons. -/
theorem gates_without_colon : consoleOffers.all (fun offer => offer.gates.all fun p =>
    decide (':' ∉ p.resource.toList ∧ ':' ∉ p.action.toList)) = true := by
  decide +kernel

/-- An offer is made to whoever holds all that it asks for. -/
theorem ConsoleOffer.shown_iff {offer : ConsoleOffer} (hoffer : offer ∈ consoleOffers)
    {resolved : Resolved} : offer.shown (mePermissions resolved) = true ↔
      ∀ p ∈ offer.gates, resolved.has p.resource p.action = true := by
  have hcolon := List.all_eq_true.mp gates_without_colon offer hoffer
  rw [ConsoleOffer.shown, List.all_eq_true]
  refine forall₂_congr fun p hp => ?_
  have hp := of_decide_eq_true (List.all_eq_true.mp hcolon p hp)
  rw [webHasPermission_mePermissions hp.1 hp.2]

/-- An offer that cannot be refused asks for what its call needs. -/
theorem needs_subset_gates : consoleOffers.all (fun offer =>
    (offer.page, offer.call) ∈ refusable || offer.call.needs.all (· ∈ offer.gates)) = true := by
  decide +kernel

/-! ### A user with given permissions -/

/-- A server on which one user is signed in, with these permissions. -/
def consoleEnvironment (permissions : List Permission) : Environment where
  baseURL := "https://sso.example.com"
  parseURL := fun url => if url = "https://sso.example.com" then some ("https", "sso.example.com")
    else none
  toLower := id
  parseIP := fun _ => true
  cidrContains := fun _ _ => false
  nowUnix := 1700000000
  sessionsGet := fun cookie => if cookie = "s1" then some "u1" else none
  authenticateClient := fun _ => none
  authenticateDevice := fun _ => none
  increment := fun _ => some 1
  resolve := fun id => if id = "u1" then some ⟨"u1", [], permissions⟩ else none
  globalLimitReached := fun _ => false
  loginLimitReached := fun _ => false

/-- The browser of that user. -/
def consoleSession (permissions : List Permission) :
    ConsoleSession (consoleEnvironment permissions) where
  userID := "u1"
  cookie := "s1"
  origin := "https://sso.example.com"
  referer := ""
  ip := "10.0.0.1"
  resolved := ⟨"u1", [], permissions⟩
  userID_ne := by decide
  cookie_ne := by decide
  origin_ne := by decide
  live := rfl
  sameOrigin := rfl
  resolves := rfl
  unlimited := fun _ => rfl
  loginUnlimited := fun _ => rfl

/-- Parameters that every function can be called with. -/
def consoleArgs (n : String) : String := if n = "params" then "" else "7"

/-- They fit every call. -/
theorem consoleArgs_fits (call : ConsoleCall) : call.Fits consoleArgs where
  ids := by
    have hparams : .arg "params" ∉ call.fetch.path := by cases call <;> decide +kernel
    intro n hn
    have hne : n ≠ "params" := fun h => hparams (h ▸ hn)
    rw [consoleArgs, if_neg hne]
    have hdigits : "7".toList = ['7'] := rfl
    refine ⟨by decide, fun c hc => ?_⟩
    rw [hdigits, List.mem_singleton] at hc
    exact Or.inl (hc ▸ rfl)
  query := by
    rw [QueryText]
    cases call <;> decide +kernel

/-- A user who holds no more than a refusable offer asks for does not hold what its call
needs. -/
theorem refusable_lacks : consoleOffers.all (fun offer =>
    (offer.page, offer.call) ∉ refusable ||
      ((offer.gates.all fun p => Resolved.has ⟨"u1", [], offer.gates⟩ p.resource p.action) &&
      !(offer.call.needs.all fun p =>
        Resolved.has ⟨"u1", [], offer.gates⟩ p.resource p.action))) = true := by
  decide +kernel

/-- `Promise.all` has its results when every promise has one. -/
theorem isSome_mapM {α β : Type} {f : α → Option β} {l : List α} :
    (l.mapM f).isSome = true ↔ ∀ x ∈ l, (f x).isSome = true := by
  induction l with
  | nil => simp
  | cons x l ih =>
      rw [List.mapM_cons, List.forall_mem_cons, ← ih]
      cases f x <;> cases l.mapM f <;> simp

/-- **The console and the router agree**, up to the refusable offers. A call with ids and a
query of its kind reaches its own endpoint exactly when the user holds what it needs. What the
console offers is answered to everyone it is offered to, unless it is one of ten: the search of
the shell, the four lists of the dashboard, the roles on the page of a user, both lists of the
devices' page, and the users on the page of the audit log. The dashboard has its four counts
exactly when the user may read all four lists. -/
theorem console_agrees :
    (∀ (env : Environment) (session : ConsoleSession env) (call : ConsoleCall)
        (args : String → String), call.Fits args →
      (session.Answered call args ↔
        ∀ p ∈ call.needs, session.resolved.has p.resource p.action = true)) ∧
    (∀ offer ∈ consoleOffers,
      (∀ (env : Environment) (session : ConsoleSession env) (args : String → String),
          offer.call.Fits args → offer.shown (mePermissions session.resolved) = true →
          session.Answered offer.call args) ↔
        (offer.page, offer.call) ∉ refusable) ∧
    (∀ (env : Environment) (session : ConsoleSession env) (args : String → String)
        (count : ConsoleCall → Option Nat), (∀ call ∈ dashboardCalls, call.Fits args) →
      (∀ call ∈ dashboardCalls, (count call).isSome = true ↔ session.Answered call args) →
      ((dashboardCounts count).isSome = true ↔
        session.resolved.has "users" "read" = true ∧ session.resolved.has "rbac" "manage" = true ∧
          session.resolved.has "api_clients" "manage" = true ∧
          session.resolved.has "iot" "manage" = true)) := by
  refine ⟨fun env session call args hfits => answered_iff session hfits,
    fun offer hoffer => ⟨fun h hmem => ?_, fun hnot env session args hfits hshown => ?_⟩,
    fun env session args count hfits hcount => ?_⟩
  · have hlacks := List.all_eq_true.mp refusable_lacks offer hoffer
    simp only [Bool.or_eq_true, decide_eq_true_eq, Bool.and_eq_true, List.all_eq_true] at hlacks
    obtain ⟨hgates, hneeds⟩ := hlacks.resolve_left fun hnot => hnot hmem
    have hshown : offer.shown (mePermissions (consoleSession offer.gates).resolved) = true :=
      (offer.shown_iff hoffer).mpr hgates
    have hanswered := h _ (consoleSession offer.gates) consoleArgs (consoleArgs_fits _) hshown
    rw [answered_iff _ (consoleArgs_fits _)] at hanswered
    rw [Bool.not_eq_true', List.all_eq_false] at hneeds
    obtain ⟨p, hp, hlacking⟩ := hneeds
    exact hlacking (hanswered p hp)
  · have hsubset := List.all_eq_true.mp needs_subset_gates offer hoffer
    simp only [Bool.or_eq_true, decide_eq_true_eq, List.all_eq_true] at hsubset
    have hneeds := hsubset.resolve_left hnot
    rw [answered_iff session hfits]
    exact fun p hp => (offer.shown_iff hoffer).mp hshown p (hneeds p hp)
  · have hholds : ∀ call ∈ dashboardCalls, (count call).isSome = true ↔
        ∀ p ∈ call.needs, session.resolved.has p.resource p.action = true :=
      fun call hcall => (hcount call hcall).trans (answered_iff session (hfits call hcall))
    rw [dashboardCounts, isSome_mapM, forall₂_congr hholds]
    simp [dashboardCalls, ConsoleCall.needs]

end IdpForge
