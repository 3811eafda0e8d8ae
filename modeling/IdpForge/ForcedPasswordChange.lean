import IdpForge.AccountSteps
import IdpForge.RouteAuthorization

/-!
# A Pending Password Change Confines Nothing

A user whose password was set by somebody else has `force_password_change` set until the
next change of password. The flag is copied into the session and shown to the front end, but
no entrance of the server reads it: a request that carries a session is let through whenever
its other checks pass.

## Main results

* `session_serve_iff`: what a request with a session needs to reach the endpoint of a route.
* `pending_change_confines_iff`: when a request of a user with a pending change is refused
  as it should be.
* `pending_change_not_enforced`: such a user reaches the API, gets a code and passes the
  forward authentication.
-/

open RouteDispatch PartialMap TransitionSystem

namespace IdpForge

/-! ### The entrances of a session -/

/-- The endpoints outside the API that a session opens. -/
def entrances : List Endpoint := [.handleAuthorize, .handleLogout, .handleForwardAuth]

/-- The handlers before the endpoint of a route that a session opens. -/
def Registration.sessionGuards (reg : Registration) : List Handler :=
  if reg ∈ apiRoutes then reg.guards
  else
    [.requestid, .metricsMiddleware, .securityHeaders, .csrfOriginCheck] ++
      (if reg.endpoint = some .handleAuthorize then [.rateLimitGlobal] else [])

/-- A session opens the route: it is a route of the API or an entrance. -/
def Registration.opensBySession (reg : Registration) : Bool :=
  reg ∈ apiRoutes || entrances.any fun e => reg.endpoint = some e

/-- The routes outside the API that a session opens run these handlers. -/
theorem entrances_guarded : (publicRoutes ++ machineRoutes).all (fun reg =>
    !reg.opensBySession || (reg.guardedBy reg.sessionGuards &&
      reg.sessionGuards.all fun h => !h.isEndpoint)) = true := by
  decide +kernel

/-- The middleware registered for every request is no route of the API, nor an entrance. -/
theorem globalMiddleware_not_opened :
    globalMiddleware.all (fun reg => !reg.opensBySession) = true := by
  decide +kernel

/-- Every route that a session opens runs its guards first. -/
theorem guardedBy_sessionGuards {reg : Registration} (hreg : reg ∈ registerRoutes)
    (hopens : reg.opensBySession = true) :
    reg.guardedBy reg.sessionGuards = true ∧
      reg.sessionGuards.all (fun h => !h.isEndpoint) = true := by
  by_cases hapi : reg ∈ apiRoutes
  · rw [Registration.sessionGuards, if_pos hapi]
    exact ⟨List.all_eq_true.mp apiRoutes_guarded reg hapi,
      List.all_eq_true.mp guards_ne_endpoint reg hapi⟩
  · have hother : reg ∈ publicRoutes ++ machineRoutes := by
      have hglobal := List.all_eq_true.mp globalMiddleware_not_opened reg
      simp only [registerRoutes, apiRoutes, List.mem_append] at hreg hapi hglobal ⊢
      simp only [hopens, Bool.not_true, Bool.false_eq_true, imp_false] at hglobal
      tauto
    have hguarded := List.all_eq_true.mp entrances_guarded reg hother
    simpa [hopens] using hguarded

/-! ### The other checks -/

/-- A handler lets the request of a user through, whatever the user's password. -/
def Handler.passes (env : Environment) (req : Request) (userID : String) : Handler → Bool
  | .csrfOriginCheck => (IdpForge.csrfOriginCheck env req).toOption.isSome
  | .rateLimitGlobal => !env.globalLimitReached req
  | .requirePermission resource action =>
      (hasPermission env.resolve userID resource action).getD false
  | .wsUpgradeGuard => req.upgrade
  | _ => true

/-- The handlers of the API that run after the authentication. -/
def Handler.afterAuthentication : Handler → Bool
  | .requireUserActor | .requirePermission _ _ | .wsAuthContext | .wsUpgradeGuard => true
  | _ => false

/-- The gates of the API. -/
theorem apiRoutes_afterAuthentication : apiRoutes.all (fun reg =>
    (reg.group.gates ++ reg.layer.handlers.dropLast).all fun h =>
      reg.endpoint.isNone || h.afterAuthentication) = true := by
  decide +kernel

section Serve

variable {env : Environment} {req : Request} {reg : Registration} {e : Endpoint}
  {userID : String}

/-- A handler after the authentication leaves the user. -/
theorem execHandler_keeps_user {h : Handler} (hgate : h.afterAuthentication = true)
    {s s' : Locals} (hexec : execHandler env req h s = .next s') : s'.userID = s.userID := by
  have hsame : ∀ check, gate check s = .next s' → s'.userID = s.userID := by
    intro check hcheck
    cases check with
    | ok u => exact (Flow.next.inj hcheck) ▸ rfl
    | error err => simp [gate] at hcheck
  cases h with
  | requireUserActor => exact hsame _ hexec
  | requirePermission resource action => exact hsame _ hexec
  | wsAuthContext => exact (Flow.next.inj hexec) ▸ rfl
  | wsUpgradeGuard =>
      rw [execHandler] at hexec
      split at hexec
      · exact (Flow.next.inj hexec) ▸ rfl
      · simp [refuse] at hexec
  | _ => simp [Handler.afterAuthentication] at hgate

/-- For a user it passes on exactly when its check is passed. -/
theorem execHandler_next_iff {h : Handler} (hgate : h.afterAuthentication = true)
    {s : Locals} (hs : s.userID = userID) (hne : userID ≠ "") :
    (∃ s', execHandler env req h s = .next s') ↔ h.passes env req userID = true := by
  cases h with
  | requireUserActor =>
      have hok : requireUserActor s = .ok () := requireUserActor_eq_ok_iff.mpr (hs ▸ hne)
      simp [execHandler, gate, hok, Handler.passes]
  | requirePermission resource action =>
      simp only [execHandler, gate, requirePermission, hs, Handler.passes, if_pos hne]
      cases hasPermission env.resolve userID resource action with
      | none => simp [newError]
      | some allowed => cases allowed <;> simp [newError]
  | wsAuthContext => simp [execHandler, wsAuthContext, Handler.passes]
  | wsUpgradeGuard => cases hup : req.upgrade <;> simp [execHandler, hup, refuse, Handler.passes]
  | _ => simp [Handler.afterAuthentication] at hgate

/-- The handlers before the gates of the API, for the user of a session. -/
theorem apiPreamble_next_iff (hsession : sessionUser env req = some userID) {s : Locals} :
    runHandlers (execHandler env req) apiPreamble {} = .next s ↔
      s = { userID := userID } ∧ ∀ h ∈ apiPreamble, h.passes env req userID = true := by
  have hauth : authenticateAny env req {} = .next { userID := userID } := by
    rw [authenticateAny, hsession]
  have hpasses : (∀ h ∈ apiPreamble, h.passes env req userID = true) ↔
      csrfOriginCheck env req = .ok () ∧ env.globalLimitReached req = false := by
    cases hcsrf : csrfOriginCheck env req <;>
      simp [apiPreamble, Handler.passes, hcsrf, Except.toOption]
  rw [runHandlers_apiPreamble, hauth, Flow.next.injEq, hpasses]
  constructor
  · rintro ⟨hcsrf, rfl, hlimit⟩
    exact ⟨rfl, hcsrf, hlimit⟩
  · rintro ⟨rfl, hcsrf, hlimit⟩
    exact ⟨hcsrf, rfl, hlimit⟩

/-- The guards of a route of the API, for the user of a session. -/
theorem guards_next_iff (hreg : reg ∈ apiRoutes) (he : reg.endpoint = some e)
    (hsession : sessionUser env req = some userID) (hne : userID ≠ "") :
    (∃ s, runHandlers (execHandler env req) reg.guards {} = .next s) ↔
      ∀ h ∈ reg.guards, h.passes env req userID = true := by
  have hgates : ∀ h ∈ reg.group.gates ++ reg.layer.handlers.dropLast,
      h.afterAuthentication = true := by
    intro h hh
    have hall := List.all_eq_true.mp apiRoutes_afterAuthentication reg hreg
    simpa [he] using List.all_eq_true.mp hall h hh
  rw [Registration.guards, List.forall_mem_append, runHandlers_append]
  cases hpre : runHandlers (execHandler env req) apiPreamble {} with
  | next s =>
      obtain ⟨rfl, hpasses⟩ := (apiPreamble_next_iff hsession).mp hpre
      rw [exists_runHandlers_next_iff (P := fun s => s.userID = userID)
        (fun h hh s s' hs hexec => (execHandler_keeps_user (hgates h hh) hexec).trans hs)
        (fun h hh s hs => execHandler_next_iff (hgates h hh) hs hne) rfl]
      exact ⟨fun h => ⟨hpasses, h⟩, fun h => h.2⟩
  | done r =>
      simp only [reduceCtorEq, exists_false, false_iff, not_and]
      intro hpasses
      have := (apiPreamble_next_iff hsession).mpr ⟨rfl, hpasses⟩
      simp [hpre] at this

/-- The guards of an entrance. -/
theorem entranceGuards_next_iff (hreg : reg ∉ apiRoutes) :
    (∃ s, runHandlers (execHandler env req) reg.sessionGuards {} = .next s) ↔
      ∀ h ∈ reg.sessionGuards, h.passes env req userID = true := by
  refine exists_runHandlers_next_iff (P := fun _ => True) (fun _ _ _ _ _ _ => trivial) ?_ trivial
  intro h hh s _
  rw [Registration.sessionGuards, if_neg hreg] at hh
  have hmem : h ∈ [Handler.requestid, .metricsMiddleware, .securityHeaders, .csrfOriginCheck,
      .rateLimitGlobal] := by
    split at hh <;> simp at hh ⊢ <;> tauto
  simp only [List.mem_cons, List.not_mem_nil, or_false] at hmem
  rcases hmem with rfl | rfl | rfl | rfl | rfl
  · simp [execHandler, Handler.passes]
  · simp [execHandler, Handler.passes]
  · simp [execHandler, Handler.passes]
  · cases hcsrf : csrfOriginCheck env req <;>
      simp [execHandler, gate, Handler.passes, hcsrf, Except.toOption]
  · cases hlimit : env.globalLimitReached req <;>
      simp [execHandler, refuse, Handler.passes, hlimit]

/-- **What a request with a session needs** to reach the endpoint of a route that a session
opens: the checks of the route, none of which reads the password flag. -/
theorem session_serve_iff (hreg : reg ∈ registerRoutes) (hopens : reg.opensBySession = true)
    (he : reg.endpoint = some e) (hmatch : reg.matchesRequest req)
    (hsession : sessionUser env req = some userID) (hne : userID ≠ "") {e' : Endpoint} :
    (∃ locals, serve env req = .reached e' locals) ↔
      e' = e ∧ ∀ h ∈ reg.sessionGuards, h.passes env req userID = true := by
  obtain ⟨hguarded, hendpoint⟩ := guardedBy_sessionGuards hreg hopens
  simp only [serve_eq_reached_of_guardedBy hguarded hendpoint he hmatch, exists_and_left]
  refine and_congr_right fun _ => ?_
  by_cases hapi : reg ∈ apiRoutes
  · rw [Registration.sessionGuards, if_pos hapi]
    exact guards_next_iff hapi he hsession hne
  · exact entranceGuards_next_iff hapi

end Serve

/-! ### Refusals -/

section Refusal

variable (ctx : RequestContext) (s : ServerState) (env : Environment) (req : Request)
  (q : AuthorizeQuery)

/-- An endpoint carries the request out. Those of the API do so once they are reached; the
two that look the session up themselves issue a code, or let the application proceed. -/
def carriesOut : Endpoint → Bool
  | .handleAuthorize =>
      match handleAuthorize ctx s req.sessionCookie q with
      | .code _ => true
      | _ => false
  | .handleForwardAuth => (handleForwardAuth ctx s req.sessionCookie).toOption.isSome
  | _ => true

/-- The request is refused: it reaches no endpoint that carries it out. -/
def Refused : Prop :=
  ∀ e locals, serve (s.environment ctx env) req = .reached e locals →
    carriesOut ctx s req q e = false

/-- The requests that remain open with a pending change. -/
def Exempt : Endpoint → Prop
  | .handleMe => req.method = .get
  | .handleChangePassword => True
  | .handleLogout => True
  | _ => False

/-- The user has to change the password. -/
def ServerState.Pending (userID : String) : Prop :=
  ∃ row ∈ s.users, row.id = userID ∧ row.forcePasswordChange = true

/-- Everything but the session that a request is checked for passes: the cross-origin check,
the rate limit and the permissions of the route, and at the two endpoints that look the
session up themselves the checks they make after that. -/
structure OtherChecksPass (userID : String) (reg : Registration) (e : Endpoint) : Prop where
  guards : ∀ h ∈ reg.sessionGuards, h.passes (s.environment ctx env) req userID = true
  authorize : e = .handleAuthorize → q.responseType = "code" ∧
    (∃ client, authorizeCheck s.oidc.clients (q.request userID) = .ok client) ∧
      ctx.fails .storeCode = false
  forwardAuth : e = .handleForwardAuth → ∃ resolved, ctx.resolve userID = some resolved

variable {ctx s env req q} {userID : String}

/-- `handleAuthorize` issues a code for the user of a session when its other checks pass. -/
theorem carriesOut_authorize_iff (h : s.sessionUser ctx req.sessionCookie = some userID) :
    carriesOut ctx s req q .handleAuthorize = true ↔ q.responseType = "code" ∧
      (∃ client, authorizeCheck s.oidc.clients (q.request userID) = .ok client) ∧
        ctx.fails .storeCode = false := by
  obtain ⟨-, hread, -⟩ := sessionUser_eq_some h
  simp only [carriesOut, handleAuthorize, hread, h, Bool.false_eq_true, and_false, if_false]
  by_cases htype : q.responseType = "code"
  · cases hcheck : authorizeCheck s.oidc.clients (q.request userID) with
    | error err => simp [htype]
    | ok client => cases hstore : ctx.fails .storeCode <;> simp [htype]
  · simp [htype]

/-- `handleForwardAuth` lets the user of a session proceed when the roles can be resolved. -/
theorem carriesOut_forwardAuth_iff (h : s.sessionUser ctx req.sessionCookie = some userID) :
    carriesOut ctx s req q .handleForwardAuth = true ↔
      ∃ resolved, ctx.resolve userID = some resolved := by
  obtain ⟨hcookie, -, -⟩ := sessionUser_eq_some h
  rw [ServerState.sessionUser, if_neg hcookie] at h
  simp only [carriesOut, handleForwardAuth, if_neg hcookie, h]
  cases ctx.resolve userID <;> simp [newError, Except.toOption]

/-- Carrying a request with a session out. -/
theorem carriesOut_iff (h : s.sessionUser ctx req.sessionCookie = some userID) {e : Endpoint} :
    carriesOut ctx s req q e = true ↔
      (e = .handleAuthorize → q.responseType = "code" ∧
        (∃ client, authorizeCheck s.oidc.clients (q.request userID) = .ok client) ∧
          ctx.fails .storeCode = false) ∧
      (e = .handleForwardAuth → ∃ resolved, ctx.resolve userID = some resolved) := by
  by_cases hauthorize : e = .handleAuthorize
  · subst hauthorize
    simpa using carriesOut_authorize_iff h
  · by_cases hforward : e = .handleForwardAuth
    · subst hforward
      simpa using carriesOut_forwardAuth_iff h
    · simp only [hauthorize, hforward, false_implies, and_self, iff_true]
      cases e <;> first | rfl | contradiction

/-- A request with a session is refused exactly when one of its other checks fails. -/
theorem refused_iff {reg : Registration} {e : Endpoint} (hreg : reg ∈ registerRoutes)
    (hopens : reg.opensBySession = true) (he : reg.endpoint = some e)
    (hmatch : reg.matchesRequest req)
    (hsession : s.sessionUser ctx req.sessionCookie = some userID) (hne : userID ≠ "") :
    Refused ctx s env req q ↔ ¬ OtherChecksPass ctx s env req q userID reg e := by
  have henv : IdpForge.sessionUser (s.environment ctx env) req = some userID := hsession
  have hserve : ∀ e', (∃ locals, serve (s.environment ctx env) req = .reached e' locals) ↔
      e' = e ∧ ∀ h ∈ reg.sessionGuards, h.passes (s.environment ctx env) req userID = true :=
    fun _ => session_serve_iff hreg hopens he hmatch henv hne
  constructor
  · rintro hrefused ⟨hguards, hauthorize, hforward⟩
    obtain ⟨locals, hlocals⟩ := (hserve e).mpr ⟨rfl, hguards⟩
    have hout := (carriesOut_iff (q := q) hsession).mpr ⟨hauthorize, hforward⟩
    simp [hrefused e locals hlocals] at hout
  · intro hfails e' locals hlocals
    obtain ⟨rfl, hguards⟩ := (hserve e').mp ⟨locals, hlocals⟩
    by_contra hout
    rw [Bool.not_eq_false] at hout
    obtain ⟨hauthorize, hforward⟩ := (carriesOut_iff hsession).mp hout
    exact hfails ⟨hguards, hauthorize, hforward⟩

end Refusal

/-- **When a pending change confines a session.** In every reachable state, a request with
the session of a user with a pending password change is exempt or refused exactly when it is
exempt or one of its other checks fails: nothing reads the flag. -/
theorem pending_change_confines_iff (cfg : AccountConfig) (now : Int)
    (clients : List OidcClient) (users : List UserRow) (hids : ∀ user ∈ users, user.id ≠ "")
    (as : List ServerAction) (s : ServerState)
    (hrun : run (serverStep cfg) (ServerState.start now clients users) as = some s)
    (ctx : RequestContext) (env : Environment) (req : Request) (q : AuthorizeQuery)
    (reg : Registration) (e : Endpoint) (hreg : reg ∈ registerRoutes)
    (hopens : reg.opensBySession = true) (he : reg.endpoint = some e)
    (hmatch : reg.matchesRequest req) (userID : String)
    (hsession : s.sessionUser ctx req.sessionCookie = some userID) :
    (s.Pending userID → Exempt req e ∨ Refused ctx s env req q) ↔
      (s.Pending userID → Exempt req e ∨ ¬ OtherChecksPass ctx s env req q userID reg e) := by
  have hinv := accountInv_run hids hrun
  have hne : userID ≠ "" := by
    obtain ⟨-, -, data, hdata, rfl⟩ := sessionUser_eq_some hsession
    intro hempty
    exact hinv.nonempty (hempty ▸ hinv.sessions _ data hdata)
  rw [refused_iff hreg hopens he hmatch hsession hne]

/-- A request that nothing fails for, by a user without roles. -/
def exampleContext : RequestContext where
  resolve := fun userID => some ⟨userID, [], []⟩

/-- A request for the announcements, with a session. -/
def announcementsRequest : Request where
  method := .get
  path := "/api/v1/announcements"
  sessionCookie := "sid"
  apiKey := ""
  deviceKey := ""
  origin := ""
  referer := ""
  ip := "10.0.0.1"
  upgrade := false

/-- The route of that request. -/
def announcementsRoute : Registration :=
  api.add .get "/announcements" [.endpoint .handleListAnnouncements]

/-- The run of the example ends in its state. -/
theorem run_exampleLogin :
    run (serverStep exampleAccounts) exampleStart [exampleLogin "sid"] = some exampleSession :=
  rfl

/-- The user of the example has a pending change and a session. -/
theorem exampleSession_pending : exampleSession.Pending "u" ∧
    exampleSession.sessionUser exampleContext "sid" = some "u" :=
  ⟨⟨exampleUser, by decide +kernel, rfl, rfl⟩, by decide +kernel⟩

/-- With the pending change the user reaches a route of the API, is issued a code, and is let
through to an application behind the forward authentication. -/
theorem pending_change_not_enforced :
    run (serverStep exampleAccounts) exampleStart [exampleLogin "sid"] = some exampleSession ∧
      exampleSession.Pending "u" ∧
      exampleSession.sessionUser exampleContext "sid" = some "u" ∧
      (∃ locals, serve (exampleSession.environment exampleContext rbacClientEnvironment)
        announcementsRequest = .reached .handleListAnnouncements locals) ∧
      handleAuthorize exampleContext exampleSession "sid" exampleQuery =
        .code (exampleQuery.request "u") ∧
      (handleForwardAuth exampleContext exampleSession "sid").toOption = some ("u", []) := by
  obtain ⟨hpending, hsession⟩ := exampleSession_pending
  refine ⟨run_exampleLogin, hpending, hsession, ⟨{ userID := "u" }, ?_⟩, ?_, ?_⟩
  · decide +kernel
  · decide +kernel
  · decide +kernel

/-- The condition, read at the request for the announcements. -/
theorem pending_change_confines_iff_announcements :
    (exampleSession.Pending "u" → Exempt announcementsRequest .handleListAnnouncements ∨
        Refused exampleContext exampleSession rbacClientEnvironment announcementsRequest
          exampleQuery) ↔
      (exampleSession.Pending "u" → Exempt announcementsRequest .handleListAnnouncements ∨
        ¬ OtherChecksPass exampleContext exampleSession rbacClientEnvironment
          announcementsRequest exampleQuery "u" announcementsRoute .handleListAnnouncements) :=
  pending_change_confines_iff exampleAccounts 0 [exampleClient] [exampleUser]
    (by simp [exampleUser]) [exampleLogin "sid"] exampleSession run_exampleLogin exampleContext
    rbacClientEnvironment announcementsRequest exampleQuery announcementsRoute
    .handleListAnnouncements (by decide +kernel) (by decide +kernel) (by decide +kernel)
    ⟨by decide +kernel, by decide +kernel⟩ "u" exampleSession_pending.2

end IdpForge
