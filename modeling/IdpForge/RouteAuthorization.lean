import IdpForge.Router

/-!
# What a Route Demands

The handlers that run before the endpoint of an `/api/v1` route, computed from the
registrations, and the exact condition under which a request gets to the endpoint. Two
group layers decide more than their own routes: `requireUserActor`, registered on the group
`/` of `/api/v1`, stands before every route registered after it, and `iotAdmin` and
`iotEvents` share the path `/iot`.

## Main results

* `serve_eq_reached_iff`: a request of an API route reaches its endpoint exactly when the
  cross-origin check, the authentication, the rate limit and the gates pass on.
* `reaches_iff_authorised_iff`: when reaching a permission route and holding its permission
  come to the same.
-/

open RouteDispatch

namespace IdpForge

/-! ### Reading the route table -/

/-- The endpoint a route ends in; middleware has none. -/
def Registration.endpoint (reg : Registration) : Option Endpoint :=
  match reg.layer.method, reg.layer.handlers.getLast? with
  | some _, some (.endpoint e) => some e
  | _, _ => none

/-- The permission a handler asks for. -/
def Handler.demand : Handler → Option Permission
  | .requirePermission resource action => some ⟨resource, action⟩
  | _ => none

/-- The permissions a route is registered with, through its own group or directly. -/
def Registration.demands (reg : Registration) : List Permission :=
  (reg.group.handlers ++ reg.layer.handlers).filterMap Handler.demand

/-- The request of the route: its method, and a path that its own path matches. -/
def Registration.matchesRequest (reg : Registration) (req : Request) : Prop :=
  reg.layer.method = some req.method ∧
    matchPath true reg.layer.path (detectionPath req.path) = true

/-- The registrations under `api`. -/
def apiRoutes : List Registration :=
  userRoutes ++ selfRoutes ++ rbacRoutes ++ adminRoutes

/-- The handlers that run on every API route before the gates of its group. -/
def apiPreamble : List Handler :=
  [.requestid, .metricsMiddleware, .securityHeaders, .csrfOriginCheck, .authenticateAny,
    .rateLimitGlobal]

/-- The gates that stand before the routes of a group. The user administration is
registered before the self-service group, and `/iot/events` after both groups on `/iot`. -/
def Group.gates (g : Group) : List Handler :=
  (if g = usersGroup then [] else [.requireUserActor]) ++
    (if g = iotEvents then iotAdmin.handlers else []) ++
    g.handlers.filter fun h => h.demand.isSome

/-- The handlers that run before the endpoint of an API route. -/
def Registration.guards (reg : Registration) : List Handler :=
  apiPreamble ++ (reg.group.gates ++ reg.layer.handlers.dropLast)

/-- The registrations give the route a chain that starts with the handlers `hs` and its
endpoint. -/
def Registration.guardedBy (reg : Registration) (hs : List Handler) : Bool :=
  match reg.layer.method, reg.endpoint with
  | some m, some e =>
      match staticChain m reg.layer.path (registerRoutes.map Registration.layer) with
      | some handlers => (hs ++ [Handler.endpoint e]).isPrefixOf handlers
      | none => false
  | _, _ => true

/-- The registrations give the route the chain `guards`. -/
def Registration.guarded (reg : Registration) : Bool := reg.guardedBy reg.guards

/-- Every API route runs its guards and then its endpoint. -/
theorem apiRoutes_guarded : apiRoutes.all Registration.guarded = true := by
  decide +kernel

/-- No registration outside `api` asks for a permission. -/
theorem demands_eq_nil : (globalMiddleware ++ publicRoutes ++ machineRoutes).all
    (fun reg => reg.demands = []) = true := by
  decide +kernel

/-- A route that asks for a permission is an API route. -/
theorem mem_apiRoutes_of_demands {reg : Registration} (hreg : reg ∈ registerRoutes)
    {p : Permission} (hp : p ∈ reg.demands) : reg ∈ apiRoutes := by
  have hnil := List.all_eq_true.mp demands_eq_nil reg
  have hne : reg.demands ≠ [] := List.ne_nil_of_mem hp
  simp only [registerRoutes, apiRoutes, List.mem_append, decide_eq_true_eq] at hreg hnil ⊢
  tauto

/-! ### The chain of a request -/

section Serve

variable {env : Environment} {req : Request} {reg : Registration} {e : Endpoint}

/-- The handlers that run for a request of a route. -/
theorem chain_eq_of_guardedBy {hs : List Handler} (hguarded : reg.guardedBy hs = true)
    (he : reg.endpoint = some e) (hmatch : reg.matchesRequest req) :
    ∃ rest, chain req.method (detectionPath req.path) (registerRoutes.map Registration.layer) =
      hs ++ .endpoint e :: rest := by
  obtain ⟨hmethod, hpath⟩ := hmatch
  simp only [Registration.guardedBy, hmethod, he] at hguarded
  cases hstatic : staticChain req.method reg.layer.path
      (registerRoutes.map Registration.layer) with
  | none => simp [hstatic] at hguarded
  | some handlers =>
      simp only [hstatic, List.isPrefixOf_iff_prefix] at hguarded
      obtain ⟨rest, hrest⟩ := hguarded
      refine ⟨rest, ?_⟩
      rw [chain_eq_of_staticChain hstatic hpath, ← hrest, List.append_assoc,
        List.singleton_append]

/-- Only an endpoint answers that it was reached. -/
theorem execHandler_ne_reached {h : Handler} (hne : ∀ e, h ≠ .endpoint e) (s : Locals)
    (e : Endpoint) (locals : Locals) :
    execHandler env req h s ≠ .done (.reached e locals) := by
  have hgate : ∀ check s, gate check s ≠ .done (.reached e locals) := by
    intro check s
    cases check <;> simp [gate]
  have hclient : ∀ missingKey s,
      admitAPIClient env req missingKey s ≠ .done (.reached e locals) := by
    intro missingKey s
    obtain ⟨client, hnext⟩ | ⟨outcome, hdone, hne⟩ := admitAPIClient_cases env req missingKey s
    · simp [hnext]
    · simpa [hdone] using hne e locals
  cases h with
  | requestid => simp [execHandler]
  | metricsMiddleware => simp [execHandler]
  | securityHeaders => simp [execHandler]
  | csrfOriginCheck => exact hgate _ _
  | rateLimitGlobal =>
      rw [execHandler]
      split <;> simp [refuse]
  | rateLimitLogin =>
      rw [execHandler]
      split <;> simp [refuse]
  | authenticateAny =>
      rw [execHandler, authenticateAny]
      cases sessionUser env req with
      | none => exact hclient _ _
      | some userID => simp
  | requireUserActor => exact hgate _ _
  | requirePermission resource action => exact hgate _ _
  | requireDeviceKey =>
      rw [execHandler, requireDeviceKey]
      split
      · simp [refuse]
      · cases env.authenticateDevice req.deviceKey with
        | none => simp [refuse]
        | some device =>
            simp only
            split <;> simp [refuse]
  | requireAPIClient => exact hclient _ _
  | wsAuthContext => simp [execHandler, wsAuthContext]
  | wsUpgradeGuard =>
      rw [execHandler]
      split <;> simp [refuse]
  | endpoint e => exact absurd rfl (hne e)
  | spa =>
      rw [execHandler, spa]
      split
      · simp
      · split <;> simp

/-- Handlers without an endpoint among them do not answer that one was reached. -/
theorem runHandlers_ne_reached {hs : List Handler} (hne : ∀ h ∈ hs, ∀ e, h ≠ .endpoint e)
    (s : Locals) (e : Endpoint) (locals : Locals) :
    runHandlers (execHandler env req) hs s ≠ .done (.reached e locals) := by
  induction hs generalizing s with
  | nil => simp
  | cons h hs ih =>
      rw [List.forall_mem_cons] at hne
      rw [runHandlers]
      cases hexec : execHandler env req h s with
      | next s' => exact ih hne.2 s'
      | done r =>
          have hr : execHandler env req h s ≠ .done (.reached e locals) :=
            execHandler_ne_reached hne.1 s e locals
          rw [hexec] at hr
          simpa using hr

/-- The handler is an endpoint. -/
def Handler.isEndpoint : Handler → Bool
  | .endpoint _ => true
  | _ => false

/-- Reaching the endpoint of a route is passing the handlers before it. -/
theorem serve_eq_reached_of_guardedBy {hs : List Handler} (hguarded : reg.guardedBy hs = true)
    (hne : hs.all (fun h => !h.isEndpoint) = true) (he : reg.endpoint = some e)
    (hmatch : reg.matchesRequest req) {e' : Endpoint} {locals : Locals} :
    serve env req = .reached e' locals ↔
      e' = e ∧ runHandlers (execHandler env req) hs {} = .next locals := by
  obtain ⟨rest, hchain⟩ := chain_eq_of_guardedBy hguarded he hmatch
  have hnone : ∀ h ∈ hs, ∀ e, h ≠ .endpoint e := by
    intro h hh e heq
    have := List.all_eq_true.mp hne h hh
    simp [heq, Handler.isEndpoint] at this
  have hdispatch : dispatch (execHandler env req) req.method (detectionPath req.path)
      (registerRoutes.map Registration.layer) {} =
        runHandlers (execHandler env req) (hs ++ .endpoint e :: rest) {} := by
    rw [dispatch_eq_runHandlers, hchain]
  rw [serve, hdispatch, runHandlers_append]
  cases hrun : runHandlers (execHandler env req) hs {} with
  | next s =>
      simp only [runHandlers, execHandler, Outcome.reached.injEq, Flow.next.injEq]
      exact and_congr_left' eq_comm
  | done r =>
      have hr : runHandlers (execHandler env req) hs {} ≠ .done (.reached e' locals) :=
        runHandlers_ne_reached hnone {} e' locals
      rw [hrun] at hr
      simpa using hr

/-- The guards of an API route hold no endpoint. -/
theorem guards_ne_endpoint :
    apiRoutes.all (fun reg => reg.guards.all fun h => !h.isEndpoint) = true := by
  decide +kernel

/-- **Reaching the endpoint of an API route** is passing its guards. -/
theorem serve_eq_reached_iff (hreg : reg ∈ apiRoutes) (he : reg.endpoint = some e)
    (hmatch : reg.matchesRequest req) {e' : Endpoint} {locals : Locals} :
    serve env req = .reached e' locals ↔
      e' = e ∧ runHandlers (execHandler env req) reg.guards {} = .next locals :=
  serve_eq_reached_of_guardedBy (List.all_eq_true.mp apiRoutes_guarded reg hreg)
    (List.all_eq_true.mp guards_ne_endpoint reg hreg) he hmatch

/-- The handlers before the gates pass on what `authenticateAny` makes of the request. -/
theorem runHandlers_apiPreamble {locals : Locals} :
    runHandlers (execHandler env req) apiPreamble {} = .next locals ↔
      csrfOriginCheck env req = .ok () ∧ authenticateAny env req {} = .next locals ∧
        env.globalLimitReached req = false := by
  simp only [apiPreamble, runHandlers, execHandler, gate]
  cases csrfOriginCheck env req with
  | error err => simp
  | ok u =>
      cases hauth : authenticateAny env req {} with
      | done r => simp [hauth]
      | next s => cases hlimit : env.globalLimitReached req <;> simp [hauth, refuse]

/-- The gates of a permission route, computed from the registrations. -/
def permissionGates (g : Group) (p : Permission) : List Handler :=
  (if g = usersGroup then [] else [.requireUserActor]) ++
    (if g = iotEvents then [.requirePermission "iot" "manage"] else []) ++
    [.requirePermission p.resource p.action]

/-- An API route asks for one permission at most, and the gates of one that does are
`permissionGates`. -/
theorem apiRoutes_gates : apiRoutes.all (fun reg =>
    match reg.endpoint, reg.demands with
    | some _, [p] => reg.guards = apiPreamble ++ permissionGates reg.group p
    | some _, _ :: _ => false
    | _, _ => true) = true := by
  decide +kernel

/-- The guards of a route that asks for `p`. -/
theorem guards_eq_permissionGates (hreg : reg ∈ apiRoutes) (he : reg.endpoint = some e)
    {p : Permission} (hp : p ∈ reg.demands) :
    reg.guards = apiPreamble ++ permissionGates reg.group p := by
  have hgates := List.all_eq_true.mp apiRoutes_gates reg hreg
  rw [he] at hgates
  cases hdem : reg.demands with
  | nil => simp [hdem] at hp
  | cons q qs =>
      cases qs with
      | nil =>
          obtain rfl : p = q := by simpa [hdem] using hp
          simpa [hdem] using hgates
      | cons q' qs => simp [hdem] at hgates

/-- Passing the gates of a permission route. -/
theorem runHandlers_permissionGates {g : Group} {p : Permission} {s locals : Locals} :
    runHandlers (execHandler env req) (permissionGates g p) s = .next locals ↔
      locals = s ∧ (s.userID ≠ "" ∨ g = usersGroup) ∧
        (g = iotEvents → s.holds env.resolve "iot" "manage" = true) ∧
        s.holds env.resolve p.resource p.action = true := by
  have hgate : ∀ check s', gate check s = .next s' ↔ s' = s ∧ check = .ok () := by
    intro check s'
    cases check <;> simp [gate, eq_comm]
  have hpure : ∀ h ∈ permissionGates g p, ∀ s', execHandler env req h s = .next s' → s' = s := by
    intro h hh s'
    simp only [permissionGates, List.mem_append, List.mem_singleton, List.mem_ite_nil_left,
      List.mem_ite_nil_right] at hh
    rcases hh with (⟨-, rfl⟩ | ⟨-, rfl⟩) | rfl <;>
      exact fun hs' => ((hgate _ _).mp hs').1
  rw [runHandlers_eq_next_iff hpure, permissionGates, List.forall_mem_append,
    List.forall_mem_append, List.forall_mem_singleton]
  refine and_congr_right fun _ => ?_
  rw [and_assoc]
  refine and_congr ?_ (and_congr ?_ ?_)
  · split
    · next hg => simp [hg]
    · next hg =>
        rw [List.forall_mem_singleton, execHandler, hgate, requireUserActor_eq_ok_iff]
        simp [hg]
  · split
    · next hg =>
        rw [List.forall_mem_singleton, execHandler, hgate, requirePermission_eq_ok_iff]
        simp [hg]
    · next hg => simp [hg]
  · rw [execHandler, hgate, requirePermission_eq_ok_iff]
    simp

end Serve

/-! ### Reaching a permission route -/

/-- The request is authenticated by `authenticateAny`, which leaves `locals`, and its actor
holds `p`. -/
def Authorised (env : Environment) (req : Request) (p : Permission) (locals : Locals) :
    Prop :=
  authenticateAny env req {} = .next locals ∧
    locals.holds env.resolve p.resource p.action = true

/-- Reaching a permission route, spelled out. -/
theorem serve_permission_route_iff {env : Environment} {req : Request} {reg : Registration}
    {e : Endpoint} {p : Permission} {locals : Locals} (hreg : reg ∈ registerRoutes)
    (he : reg.endpoint = some e) (hp : p ∈ reg.demands) (hmatch : reg.matchesRequest req) :
    serve env req = .reached e locals ↔
      env.globalLimitReached req = false ∧ csrfOriginCheck env req = .ok () ∧
        Authorised env req p locals ∧ (locals.userID ≠ "" ∨ reg.group = usersGroup) ∧
        (reg.group = iotEvents → locals.holds env.resolve "iot" "manage" = true) := by
  have hapi := mem_apiRoutes_of_demands hreg hp
  rw [serve_eq_reached_iff hapi he hmatch, guards_eq_permissionGates hapi he hp,
    runHandlers_append, Authorised]
  cases hpre : runHandlers (execHandler env req) apiPreamble {} with
  | next s =>
      obtain ⟨hcsrf, hauth, hlimit⟩ := runHandlers_apiPreamble.mp hpre
      rw [hauth]
      simp only [runHandlers_permissionGates, Flow.next.injEq]
      constructor
      · rintro ⟨-, rfl, huser, hiot, hholds⟩
        exact ⟨hlimit, hcsrf, ⟨rfl, hholds⟩, huser, hiot⟩
      · rintro ⟨-, -, ⟨rfl, hholds⟩, huser, hiot⟩
        exact ⟨trivial, rfl, huser, hiot, hholds⟩
  | done r =>
      simp only [reduceCtorEq, and_false, false_iff]
      rintro ⟨hlimit, hcsrf, ⟨hauth, -⟩, -⟩
      simp [runHandlers_apiPreamble.mpr ⟨hcsrf, hauth, hlimit⟩] at hpre

/-- **Reaching a permission route and holding its permission** come to the same for a
request exactly when, provided its actor holds the permission, the request passes the
cross-origin check, the actor is a user or the route belongs to the user administration, and
on `/iot/events` the actor also holds `iot:manage`. -/
theorem reaches_iff_authorised_iff (env : Environment) (req : Request) (reg : Registration)
    (e : Endpoint) (p : Permission) (hlimit : env.globalLimitReached req = false)
    (hreg : reg ∈ registerRoutes) (he : reg.endpoint = some e) (hp : p ∈ reg.demands)
    (hmatch : reg.matchesRequest req) :
    ((∃ locals, serve env req = .reached e locals) ↔
        ∃ locals, Authorised env req p locals) ↔
      ∀ locals, Authorised env req p locals →
        csrfOriginCheck env req = .ok () ∧
          (locals.userID ≠ "" ∨ reg.group = usersGroup) ∧
          (reg.group = iotEvents → locals.holds env.resolve "iot" "manage" = true) := by
  simp only [serve_permission_route_iff hreg he hp hmatch]
  constructor
  · intro hiff locals hauth
    obtain ⟨locals', -, hcsrf, hauth', huser, hiot⟩ := hiff.mpr ⟨locals, hauth⟩
    obtain rfl : locals' = locals := by
      have := hauth.1.symm.trans hauth'.1
      rw [Flow.next.injEq] at this
      exact this.symm
    exact ⟨hcsrf, huser, hiot⟩
  · intro hcond
    constructor
    · rintro ⟨locals, -, -, hauth, -, -⟩
      exact ⟨locals, hauth⟩
    · rintro ⟨locals, hauth⟩
      obtain ⟨hcsrf, huser, hiot⟩ := hcond locals hauth
      exact ⟨locals, hlimit, hcsrf, hauth, huser, hiot⟩

/-- A server with one API client, which holds the scope `rbac:manage`. -/
def rbacClientEnvironment : Environment where
  baseURL := "https://sso.example.com"
  parseURL := fun url => if url = "https://sso.example.com" then some ("https", "sso.example.com")
    else none
  toLower := id
  parseIP := fun _ => true
  cidrContains := fun _ _ => false
  nowUnix := 1700000000
  sessionsGet := fun _ => none
  authenticateClient := fun key =>
    if key = "apik_1" then some ⟨"c1", "token", [], ["rbac:manage"], [], 60, 60, true⟩ else none
  authenticateDevice := fun _ => none
  increment := fun _ => some 1
  resolve := fun _ => none
  globalLimitReached := fun _ => false
  loginLimitReached := fun _ => false

/-- The client's request for the list of roles. -/
def listRolesRequest : Request where
  method := .get
  path := "/api/v1/rbac/roles"
  sessionCookie := ""
  apiKey := "apik_1"
  deviceKey := ""
  origin := ""
  referer := ""
  ip := "10.0.0.1"
  upgrade := false

/-- The route of that request. -/
def listRolesRoute : Registration :=
  rbacGroup.add .get "/roles" [.endpoint .handleListRoles]

/-- The condition, read at the client's request for the list of roles. -/
theorem reaches_iff_authorised_iff_listRoles :
    ((∃ locals, serve rbacClientEnvironment listRolesRequest =
        .reached .handleListRoles locals) ↔
      ∃ locals, Authorised rbacClientEnvironment listRolesRequest ⟨"rbac", "manage"⟩ locals) ↔
      ∀ locals, Authorised rbacClientEnvironment listRolesRequest ⟨"rbac", "manage"⟩ locals →
        csrfOriginCheck rbacClientEnvironment listRolesRequest = .ok () ∧
          (locals.userID ≠ "" ∨ listRolesRoute.group = usersGroup) ∧
          (listRolesRoute.group = iotEvents →
            locals.holds rbacClientEnvironment.resolve "iot" "manage" = true) :=
  reaches_iff_authorised_iff rbacClientEnvironment listRolesRequest listRolesRoute
    .handleListRoles ⟨"rbac", "manage"⟩ rfl (by decide +kernel) (by decide +kernel)
    (by decide +kernel) ⟨by decide +kernel, by decide +kernel⟩

/-- An API client with the scope `rbac:manage` does not get to the list of roles, which a
user with that permission does. -/
theorem rbac_client_refused :
    ¬ ∀ (env : Environment) (req : Request) (reg : Registration) (e : Endpoint)
      (p : Permission), env.globalLimitReached req = false → reg ∈ registerRoutes →
      reg.endpoint = some e → p ∈ reg.demands → reg.matchesRequest req →
      ((∃ locals, serve env req = .reached e locals) ↔
        ∃ locals, Authorised env req p locals) := by
  intro h
  have hiff := h rbacClientEnvironment listRolesRequest listRolesRoute .handleListRoles
    ⟨"rbac", "manage"⟩ rfl (by decide +kernel) (by decide +kernel) (by decide +kernel)
    ⟨by decide +kernel, by decide +kernel⟩
  have hauth : ∃ locals,
      Authorised rbacClientEnvironment listRolesRequest ⟨"rbac", "manage"⟩ locals :=
    ⟨{ apiClient := some ⟨"c1", "token", [], ["rbac:manage"], [], 60, 60, true⟩ },
      by decide +kernel, by decide +kernel⟩
  obtain ⟨locals, hreached⟩ := hiff.mpr hauth
  have hrefused : serve rbacClientEnvironment listRolesRequest =
      .refused ⟨403, "this endpoint requires a user session, not an API client"⟩ := by
    decide +kernel
  simp [hrefused] at hreached

end IdpForge
