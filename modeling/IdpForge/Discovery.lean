import Mathlib
import IdpForge.AuthorizeRedirect
import IdpForge.Base64
import IdpForge.OidcSteps
import IdpForge.RouteAuthorization
import IdpForge.UrlTemplate

/-!
# What the Discovery Document Promises

The discovery document tells the applications where the endpoints of the provider are, how they
may authenticate at the token endpoint and which grants, response types and challenge methods it
takes. The URLs are put together from the configured issuer, and nothing compares them with the
routes of the server.

Texts of requests are their bytes. The form values of a request are looked up in its query and
then in its body, as the framework does.

## Main results

* `path_advertised`: the path of an advertised URL.
* `reached_advertised_iff`: an advertised URL leads to its endpoint exactly when the issuer has no
  path.
* `handleToken_post`, `handleToken_basic_iff`: a grant is read from the request that asks for it.
* `discovery_kept`: the promises of the document.
-/

open GoStrings TransitionSystem UrlQuery UrlTemplate

open RouteDispatch hiding parse

namespace IdpForge

/-! ### The document -/

/-- The fields of the discovery document. -/
structure DiscoveryDocument where
  issuer : String
  authorizationEndpoint : String
  tokenEndpoint : String
  userinfoEndpoint : String
  jwksURI : String
  responseTypesSupported : List String
  subjectTypesSupported : List String
  idTokenSigningAlgValuesSupported : List String
  scopesSupported : List String
  tokenEndpointAuthMethodsSupported : List String
  codeChallengeMethodsSupported : List String
  grantTypesSupported : List String
  deriving DecidableEq, Repr

/-- `DiscoveryDocument`. -/
def discoveryDocument (cfg : OidcConfig) : DiscoveryDocument where
  issuer := cfg.issuer
  authorizationEndpoint := cfg.issuer ++ "/oauth2/authorize"
  tokenEndpoint := cfg.issuer ++ "/oauth2/token"
  userinfoEndpoint := cfg.issuer ++ "/oauth2/userinfo"
  jwksURI := cfg.issuer ++ "/oauth2/jwks"
  responseTypesSupported := ["code"]
  subjectTypesSupported := ["public"]
  idTokenSigningAlgValuesSupported := ["RS256"]
  scopesSupported := ["openid", "profile", "email", "roles"]
  tokenEndpointAuthMethodsSupported := ["client_secret_basic", "client_secret_post"]
  codeChallengeMethodsSupported := ["S256"]
  grantTypesSupported := ["authorization_code", "refresh_token", "client_credentials"]

/-- An application's way to a URL: the document itself, at its place under the issuer, and the
endpoints of the document, each with the method it is used with. -/
def DiscoveryDocument.advertised (doc : DiscoveryDocument) : List (String × Method × Endpoint) := [
  (doc.issuer ++ "/.well-known/openid-configuration", .get, .handleDiscovery),
  (doc.authorizationEndpoint, .get, .handleAuthorize),
  (doc.tokenEndpoint, .post, .handleToken),
  (doc.userinfoEndpoint, .get, .handleUserinfo),
  (doc.jwksURI, .get, .handleJWKS)]

/-- What the URLs have after the issuer. -/
def advertisedPaths : List (String × Method × Endpoint) := [
  ("/.well-known/openid-configuration", .get, .handleDiscovery),
  ("/oauth2/authorize", .get, .handleAuthorize),
  ("/oauth2/token", .post, .handleToken),
  ("/oauth2/userinfo", .get, .handleUserinfo),
  ("/oauth2/jwks", .get, .handleJWKS)]

/-- The advertised URLs are the issuer with these paths. -/
theorem advertised_eq (cfg : OidcConfig) : (discoveryDocument cfg).advertised =
    advertisedPaths.map fun entry => (cfg.issuer ++ entry.1, entry.2) := rfl

/-- An issuer that is a URL without query and fragment, by its parts. -/
structure IssuerURL where
  scheme : String
  authority : String
  path : String
  scheme_ne : scheme ≠ ""
  scheme_plain : colon ∉ utf8 scheme ∧ slash ∉ utf8 scheme ∧ Bare (utf8 scheme)
  authority_plain : slash ∉ utf8 authority ∧ Bare (utf8 authority)
  path_plain : Bare (utf8 path)
  path_rooted : path = "" ∨ ∃ rest, path = "/" ++ rest

/-- The issuer as it is configured. -/
def IssuerURL.text (u : IssuerURL) : String := u.scheme ++ "://" ++ u.authority ++ u.path

/-! ### The token endpoint -/

/-- The call of the provider that `handleToken` makes, with the values of the request. -/
inductive TokenCall where
  | exchangeCode (clientID clientSecret code redirectURI codeVerifier : Bytes)
  | refreshTokens (clientID clientSecret refreshToken : Bytes)
  | clientCredentials (clientID clientSecret : Bytes)
  deriving DecidableEq, Repr

/-- The call for a grant, with the id and the secret of the client as they were read. -/
def Grant.callFor (client : Bytes × Bytes) : Grant → TokenCall
  | .exchange req => .exchangeCode client.1 client.2 (utf8 req.code) (utf8 req.redirectURI)
      (utf8 req.codeVerifier)
  | .refresh req => .refreshTokens client.1 client.2 (utf8 req.refreshToken)
  | .clientCredentials _ _ => .clientCredentials client.1 client.2

/-- The call that a grant is. -/
def Grant.call (g : Grant) : TokenCall := g.callFor (utf8 g.clientID, utf8 g.clientSecret)

/-- The client is part of the call. -/
theorem Grant.callFor_injective (g : Grant) : Function.Injective g.callFor := by
  rintro ⟨clientID, clientSecret⟩ ⟨otherID, otherSecret⟩ h
  cases g <;> simp_all [Grant.callFor]

namespace TokenEndpoint

/-- `basicAuth`. -/
def basicAuth (header : String) : Option (Bytes × Bytes) :=
  if hasPrefix header "Basic " then
    (Base64.decode (trimPrefix header "Basic ").toList).bind fun decoded =>
      (after colon decoded).map fun secret => (before colon decoded, secret)
  else none

/-- The first value of a parameter, empty when there is none. -/
def peek (params : List Param) (key : String) : Bytes :=
  ((params.find? fun p => p.1 = utf8 key).map (·.2)).getD []

/-- `FormValue`: the value of the query, or else that of the body. -/
def formValue (query body : List Param) (key : String) : Bytes :=
  if peek query key ≠ [] then peek query key else peek body key

/-- `clientCredentials`. -/
def clientCredentials (header : String) (form : String → Bytes) : Bytes × Bytes :=
  (basicAuth header).getD (form "client_id", form "client_secret")

/-- `handleToken` up to the call it makes. -/
def handleToken (header : String) (form : String → Bytes) : Except FiberError TokenCall :=
  let client := clientCredentials header form
  if form "grant_type" = utf8 "authorization_code" then
    .ok (.exchangeCode client.1 client.2 (form "code") (form "redirect_uri") (form "code_verifier"))
  else if form "grant_type" = utf8 "refresh_token" then
    .ok (.refreshTokens client.1 client.2 (form "refresh_token"))
  else if form "grant_type" = utf8 "client_credentials" then
    .ok (.clientCredentials client.1 client.2)
  else newError 400 "unsupported grant_type"

/-- The parameters with which an application asks for a grant. -/
def grantParams : Grant → List (String × String)
  | .exchange req => [("grant_type", "authorization_code"), ("code", req.code),
      ("redirect_uri", req.redirectURI), ("code_verifier", req.codeVerifier)]
  | .refresh req => [("grant_type", "refresh_token"), ("refresh_token", req.refreshToken)]
  | .clientCredentials _ _ => [("grant_type", "client_credentials")]

/-- Parameters by their bytes. -/
def paramBytes (params : List (String × String)) : List Param :=
  params.map fun p => (utf8 p.1, utf8 p.2)

/-- The body of a request with `client_secret_post`. -/
def postBody (g : Grant) : Bytes :=
  encode (paramBytes (grantParams g ++
    [("client_id", g.clientID), ("client_secret", g.clientSecret)]))

/-- The body of a request with `client_secret_basic`. -/
def basicBody (g : Grant) : Bytes := encode (paramBytes (grantParams g))

/-- Its header. -/
def basicHeader (g : Grant) : String :=
  "Basic " ++ String.ofList
    (Base64.encode (utf8 g.clientID ++ colon :: utf8 g.clientSecret))

end TokenEndpoint

/-! ### The path of an advertised URL -/

/-- The bytes of two texts in sequence. -/
theorem utf8_append (s t : String) : utf8 (s ++ t) = utf8 s ++ utf8 t := by
  simp [utf8]

/-- The paths after the issuer are rooted and plain. -/
theorem advertisedPaths_plain : advertisedPaths.all (fun entry =>
    (utf8 entry.1).head? = some slash ∧ question ∉ utf8 entry.1 ∧ hash ∉ utf8 entry.1) = true := by
  decide +kernel

/-- **The path of an advertised URL** is the issuer's with what follows it. -/
theorem path_advertised (u : IssuerURL) {entry : String × Method × Endpoint}
    (hentry : entry ∈ advertisedPaths) :
    (parse (utf8 (u.text ++ entry.1))).path = utf8 (u.path ++ entry.1) := by
  have hplain := List.all_eq_true.mp advertisedPaths_plain entry hentry
  obtain ⟨hhead, hquestion, hhash⟩ := of_decide_eq_true hplain
  obtain ⟨rest, hrest⟩ := List.head?_eq_some_iff.mp hhead
  have hlocation : ∃ more, utf8 (u.path ++ entry.1) = slash :: more := by
    rcases u.path_rooted with hpath | ⟨path, hpath⟩
    · exact ⟨rest, by rw [hpath, String.empty_append, hrest]⟩
    · exact ⟨utf8 (path ++ entry.1), by rw [hpath, String.append_assoc, utf8_append]; rfl⟩
  obtain ⟨more, hmore⟩ := hlocation
  have hsep : utf8 "://" = [colon, slash, slash] := by decide
  have htext : utf8 (u.text ++ entry.1) =
      utf8 u.scheme ++ colon :: (slash :: slash :: (utf8 u.authority ++ slash :: more)) := by
    rw [← hmore, IssuerURL.text]
    simp only [utf8_append, hsep, List.append_assoc, List.cons_append, List.nil_append]
  have hpathMem : ∀ {sep : UInt8}, sep ∉ utf8 u.path → sep ∉ utf8 entry.1 →
      sep ∉ slash :: more := by
    intro sep hpath hafter
    rw [← hmore, utf8_append, List.mem_append, not_or]
    exact ⟨hpath, hafter⟩
  have hplainText : Bare (utf8 (u.text ++ entry.1)) := by
    rw [htext]
    have hq := hpathMem u.path_plain.1 hquestion
    have hh := hpathMem u.path_plain.2 hhash
    simp only [List.mem_cons, not_or] at hq hh
    obtain ⟨-, -, hschemeBare⟩ := u.scheme_plain
    obtain ⟨-, hauthorityBare⟩ := u.authority_plain
    constructor
    · simp only [List.mem_append, List.mem_cons, not_or]
      exact ⟨hschemeBare.1, by decide, hq.1, hq.1, hauthorityBare.1, hq⟩
    · simp only [List.mem_append, List.mem_cons, not_or]
      exact ⟨hschemeBare.2, by decide, hh.1, hh.1, hauthorityBare.2, hh⟩
  have hscheme : splitScheme (utf8 (u.text ++ entry.1)) =
      (some (utf8 u.scheme), slash :: slash :: (utf8 u.authority ++ slash :: more)) := by
    have hne : utf8 u.scheme ≠ [] := fun h => u.scheme_ne (utf8_injective (h.trans (by rfl)))
    rw [splitScheme, htext, after_append u.scheme_plain.1]
    simp only [before_append u.scheme_plain.1]
    rw [if_pos ⟨hne, u.scheme_plain.2.1⟩]
  have hall : ∀ b ∈ utf8 u.authority, decide (b ≠ slash) = true := by
    intro b hb
    rw [decide_eq_true_eq]
    exact fun h => u.authority_plain.1 (h ▸ hb)
  have hauthority : splitAuthority (slash :: slash :: (utf8 u.authority ++ slash :: more)) =
      (some (utf8 u.authority), slash :: more) := by
    rw [splitAuthority, if_pos (by simp [List.isPrefixOf])]
    simp only [List.drop_succ_cons, List.drop_zero]
    rw [before_append u.authority_plain.1, List.dropWhile_append_of_pos hall]
    simp
  rw [hmore, parse, before_of_notMem hplainText.2, before_of_notMem hplainText.1, hscheme,
    hauthority]

/-! ### Where it leads -/

section Routes

variable {env : Environment} {req : Request}

/-- The endpoint that answers is among the handlers that run. -/
theorem mem_of_runHandlers {hs : List Handler} {s : Locals} {e : Endpoint} {locals : Locals}
    (h : runHandlers (execHandler env req) hs s = .done (.reached e locals)) :
    Handler.endpoint e ∈ hs := by
  by_contra hmem
  induction hs generalizing s with
  | nil => simp at h
  | cons handler hs ih =>
      rw [List.mem_cons, not_or] at hmem
      rw [runHandlers] at h
      cases hexec : execHandler env req handler s with
      | next t =>
          rw [hexec] at h
          exact ih h hmem.2
      | done r =>
          rw [hexec, Flow.done.injEq] at h
          by_cases hend : ∃ e', handler = .endpoint e'
          · obtain ⟨e', rfl⟩ := hend
            simp only [execHandler, Flow.done.injEq, h, Outcome.reached.injEq] at hexec
            exact hmem.1 (by rw [hexec.1])
          · rw [h] at hexec
            exact execHandler_ne_reached (fun e' he' => hend ⟨e', he'⟩) s e locals hexec

/-- **Who reaches an endpoint** has come by a registration of it. -/
theorem exists_route_of_reached {e : Endpoint} {locals : Locals}
    (h : serve env req = .reached e locals) :
    ∃ reg ∈ registerRoutes, Handler.endpoint e ∈ reg.layer.handlers ∧
      reg.layer.covers req.method (detectionPath req.path) = true := by
  rw [serve, dispatch_eq_runHandlers] at h
  cases hrun : runHandlers (execHandler env req)
      (chain req.method (detectionPath req.path) (registerRoutes.map (·.layer))) {} with
  | next s => simp [hrun] at h
  | done r =>
      simp only [hrun] at h
      obtain ⟨l, hl, hcovers, hmem⟩ := mem_chain (mem_of_runHandlers (h ▸ hrun))
      obtain ⟨reg, hreg, rfl⟩ := List.mem_map.mp hl
      exact ⟨reg, hreg, hmem, hcovers⟩

/-- The handlers before the endpoints of the provider. -/
def providerGuards : List Handler :=
  [.requestid, .metricsMiddleware, .securityHeaders, .csrfOriginCheck, .rateLimitGlobal]

/-- The endpoints of the provider are registered under their advertised paths alone. -/
theorem registered_only : registerRoutes.all (fun reg => advertisedPaths.all fun entry =>
    Handler.endpoint entry.2.2 ∉ reg.layer.handlers ||
      (reg.layer.method.isSome && reg.layer.path = entry.1.toList.map .lit)) = true := by
  decide +kernel

/-- Each of them is registered, behind the guards. -/
theorem registered_once : advertisedPaths.all (fun entry => registerRoutes.any fun reg =>
    reg.layer.method = some entry.2.1 && reg.layer.path = entry.1.toList.map .lit &&
      reg.endpoint = some entry.2.2 && reg.guardedBy providerGuards) = true := by
  decide +kernel

/-- The advertised paths are in lower case and do not end in a slash. -/
theorem advertisedPaths_lower : advertisedPaths.all (fun entry =>
    entry.1.toList.map Char.toLower = entry.1.toList ∧ entry.1 ≠ "" ∧
      entry.1.toList.getLast? ≠ some '/') = true := by
  decide +kernel

/-- The path of an advertised URL is the registered one when the issuer adds nothing. -/
theorem detectionPath_advertised {entry : String × Method × Endpoint}
    (hentry : entry ∈ advertisedPaths) (path : String) :
    detectionPath (path ++ entry.1) = entry.1.toList ↔ path = "" := by
  have hlower := List.all_eq_true.mp advertisedPaths_lower entry hentry
  obtain ⟨hfixed, hne, hlast⟩ := of_decide_eq_true hlower
  have hchars : (path ++ entry.1).toList.map Char.toLower =
      path.toList.map Char.toLower ++ entry.1.toList := by
    rw [String.toList_append, List.map_append, hfixed]
  have hlist : entry.1.toList ≠ [] := by simpa using hne
  have hend : ((path ++ entry.1).toList.map Char.toLower).getLast? ≠ some '/' := by
    rw [hchars, List.getLast?_append_of_ne_nil _ hlist]
    exact hlast
  rw [detectionPath_of_getLast? hend, hchars, List.append_left_eq_self, List.map_eq_nil_iff,
    String.toList_eq_nil_iff]

/-- **An advertised URL leads to its endpoint** exactly when the issuer has no path. -/
theorem reached_advertised_iff (u : IssuerURL) {entry : String × Method × Endpoint}
    (hentry : entry ∈ advertisedPaths) (hmethod : req.method = entry.2.1)
    (hpath : utf8 req.path = (parse (utf8 (u.text ++ entry.1))).path)
    (hcsrf : csrfOriginCheck env req = .ok ()) (hlimit : env.globalLimitReached req = false) :
    (∃ locals, serve env req = .reached entry.2.2 locals) ↔ u.path = "" := by
  have hrequest : req.path = u.path ++ entry.1 :=
    utf8_injective (hpath.trans (path_advertised u hentry))
  rw [← detectionPath_advertised hentry u.path, ← hrequest]
  constructor
  · rintro ⟨locals, hreached⟩
    obtain ⟨reg, hreg, hmem, hcovers⟩ := exists_route_of_reached hreached
    have honly := List.all_eq_true.mp (List.all_eq_true.mp registered_only reg hreg) entry hentry
    simp only [Bool.or_eq_true, decide_eq_true_eq, Bool.and_eq_true] at honly
    obtain ⟨hsome, hlits⟩ := honly.resolve_left fun hnot => hnot hmem
    obtain ⟨m, hm⟩ := Option.isSome_iff_exists.mp hsome
    rw [Layer.covers, hm, hlits] at hcovers
    simp only [Bool.and_eq_true] at hcovers
    exact matchPath_lits_iff.mp hcovers.2
  · intro hdetected
    have honce := List.all_eq_true.mp registered_once entry hentry
    obtain ⟨reg, hreg, hroute⟩ := List.any_eq_true.mp honce
    simp only [Bool.and_eq_true, decide_eq_true_eq] at hroute
    obtain ⟨⟨⟨hregMethod, hlits⟩, he⟩, hguarded⟩ := hroute
    have hmatch : reg.matchesRequest req :=
      ⟨by rw [hregMethod, hmethod], by rw [hlits, hdetected]; exact matchPath_lits_iff.mpr rfl⟩
    refine ⟨{}, ?_⟩
    rw [serve_eq_reached_of_guardedBy hguarded (by decide) he hmatch]
    simp [providerGuards, runHandlers, execHandler, gate, hcsrf, hlimit]

end Routes

/-! ### What the token endpoint reads -/

namespace TokenEndpoint

/-- The first value among parameters that were texts. -/
theorem peek_paramBytes (params : List (String × String)) (key : String) :
    peek (paramBytes params) key = utf8 ((params.lookup key).getD "") := by
  induction params with
  | nil => rfl
  | cons p ps ih =>
      obtain ⟨k, v⟩ := p
      have hkeys : utf8 k = utf8 key ↔ k = key := utf8_injective.eq_iff
      by_cases hkey : k = key
      · simp [peek, paramBytes, hkey]
      · have hne : (key == k) = false := beq_false_of_ne (Ne.symm hkey)
        rw [peek, paramBytes, List.map_cons, List.find?_cons_of_neg (by simpa [hkeys] using hkey),
          List.lookup_cons, hne]
        exact ih

/-- A parameter of an encoded body, as the form gives it back. -/
theorem formValue_encode (params : List (String × String)) (key : String) :
    formValue [] (parseQuery (encode (paramBytes params))) key =
      utf8 ((params.lookup key).getD "") := by
  rw [formValue, if_neg (by simp [peek]), parseQuery_encode, peek_paramBytes]

/-- The call for a grant whose parameters are in the form, with the client of the request. -/
theorem handleToken_params {header : String} (g : Grant) (extra : List (String × String))
    {client : Bytes × Bytes}
    (hclient : clientCredentials header
      (formValue [] (parseQuery (encode (paramBytes (grantParams g ++ extra))))) = client) :
    handleToken header (formValue [] (parseQuery (encode (paramBytes (grantParams g ++ extra))))) =
      .ok (g.callFor client) := by
  rw [handleToken, hclient]
  cases g with
  | exchange req => simp [formValue_encode, grantParams, List.lookup, Grant.callFor]
  | refresh req =>
      simp [formValue_encode, grantParams, List.lookup, Grant.callFor, utf8_injective.eq_iff]
  | clientCredentials clientID clientSecret =>
      simp [formValue_encode, grantParams, List.lookup, Grant.callFor, utf8_injective.eq_iff]

/-- **The post method.** A grant is read from the body that asks for it. -/
theorem handleToken_post (g : Grant) :
    handleToken "" (formValue [] (parseQuery (postBody g))) = .ok g.call := by
  have hclient : clientCredentials "" (formValue [] (parseQuery (postBody g))) =
      (utf8 g.clientID, utf8 g.clientSecret) := by
    rw [clientCredentials, show basicAuth "" = none by decide, postBody]
    cases g <;> simp [formValue_encode, grantParams, List.lookup, Grant.clientID,
      Grant.clientSecret]
  rw [postBody, handleToken_params g _ hclient, Grant.call]

/-- What is read from a Basic header: its text is cut at the first colon. -/
theorem basicAuth_basicHeader (g : Grant) :
    ∃ secret, basicAuth (basicHeader g) = some (before colon (utf8 g.clientID), secret) ∧
      (colon ∉ utf8 g.clientID → secret = utf8 g.clientSecret) := by
  have hdecode : (basicAuth (basicHeader g)) =
      (after colon (utf8 g.clientID ++ colon :: utf8 g.clientSecret)).map fun secret =>
        (before colon (utf8 g.clientID ++ colon :: utf8 g.clientSecret), secret) := by
    rw [basicAuth, basicHeader, if_pos (hasPrefix_iff.mpr ⟨_, rfl⟩), trimPrefix_append,
      String.toList_ofList, Base64.decode_encode, Option.bind_some]
  by_cases hcolon : colon ∈ utf8 g.clientID
  · obtain ⟨front, back, hsplit, hfront⟩ := List.eq_append_cons_of_mem hcolon
    rw [hdecode, hsplit, List.append_assoc, List.cons_append, after_append hfront,
      before_append hfront, before_append hfront]
    exact ⟨_, rfl, fun hnot => absurd (by simp) hnot⟩
  · rw [hdecode, after_append hcolon, before_append hcolon, before_of_notMem hcolon]
    exact ⟨_, rfl, fun _ => rfl⟩

/-- **The basic method.** A grant is read from the request that asks for it exactly when the id of
the client has no colon. -/
theorem handleToken_basic_iff (g : Grant) :
    handleToken (basicHeader g) (formValue [] (parseQuery (basicBody g))) = .ok g.call ↔
      colon ∉ utf8 g.clientID := by
  obtain ⟨secret, hbasic, hsecret⟩ := basicAuth_basicHeader g
  have hclient : clientCredentials (basicHeader g)
      (formValue [] (parseQuery (encode (paramBytes (grantParams g ++ []))))) =
        (before colon (utf8 g.clientID), secret) := by
    rw [clientCredentials, hbasic, Option.getD_some]
  have hread := handleToken_params g [] hclient
  rw [List.append_nil] at hread
  rw [basicBody, hread, Grant.call, Except.ok.injEq, g.callFor_injective.eq_iff, Prod.mk.injEq]
  constructor
  · rintro ⟨hbefore, -⟩ hmem
    rw [← hbefore] at hmem
    simpa using List.mem_takeWhile_imp hmem
  · intro hcolon
    exact ⟨before_of_notMem hcolon, hsecret hcolon⟩

/-- **The grants that are taken** are those of the document. -/
theorem handleToken_ok_iff (cfg : OidcConfig) {header : String} {form : String → Bytes} :
    (∃ call, handleToken header form = .ok call) ↔
      ∃ grantType ∈ (discoveryDocument cfg).grantTypesSupported,
        form "grant_type" = utf8 grantType := by
  simp only [discoveryDocument, List.mem_cons, List.not_mem_nil, or_false, exists_eq_or_imp,
    exists_eq_left]
  rw [handleToken]
  by_cases hcode : form "grant_type" = utf8 "authorization_code"
  · simp [hcode]
  · by_cases hrefresh : form "grant_type" = utf8 "refresh_token"
    · simp [hrefresh, utf8_injective.eq_iff]
    · by_cases hclient : form "grant_type" = utf8 "client_credentials"
      · simp [hclient, utf8_injective.eq_iff]
      · simp [hcode, hrefresh, hclient, newError]

end TokenEndpoint

/-! ### What the provider keeps to -/

/-- **A code is given** for a response type and a challenge method of the document. -/
theorem handleAuthorize_advertised (cfg : OidcConfig) {ctx : RequestContext} {s : ServerState}
    {cookie : String} {q : AuthorizeQuery} {req : AuthorizeRequest}
    (h : handleAuthorize ctx s cookie q = .code req) :
    q.responseType ∈ (discoveryDocument cfg).responseTypesSupported ∧
      req.codeChallengeMethod ∈ (discoveryDocument cfg).codeChallengeMethodsSupported := by
  rw [handleAuthorize] at h
  split at h
  · cases h
  · split at h
    · cases h
    · next userID _ =>
        split at h
        · cases h
        · next htype =>
            split at h
            · cases h
            · next client hcheck =>
                split at h
                · cases h
                · obtain rfl := AuthorizeAnswer.code.inj h
                  obtain ⟨-, -, -, hmethod⟩ := authorizeCheck_eq_ok_iff.mp hcheck
                  rw [not_not] at htype
                  exact ⟨List.mem_singleton.mpr htype, List.mem_singleton.mpr hmethod⟩

/-- The tokens of a response name the issuer of the document. -/
def Issued.Named (cfg : OidcConfig) (e : Issued) : Prop :=
  e.response.accessToken.iss = (discoveryDocument cfg).issuer ∧
    e.response.idToken.iss = (discoveryDocument cfg).issuer

section Runs

variable {cfg : OidcConfig} {s s' : OidcState}

/-- All issued tokens name the issuer, after a step as before it. -/
theorem named_step {a : OidcAction}
    (h : ∀ e, OidcEvent.issued e ∈ s.history → e.Named cfg) (hstep : oidcStep cfg s a = some s') :
    ∀ e, OidcEvent.issued e ∈ s'.history → e.Named cfg := by
  cases oidcStep_cases hstep with
  | @storeCode id client req code =>
      exact forall_issued_record (s := s.leave id) (fun i hi => by simp at hi) h
  | @deleteCode id ok client req record =>
      exact forall_issued_record
        (s := (s.dropCode req.code ok).goOn id
          (.issuing client (.exchange req) record.userID record.scope))
        (fun i hi => by simp at hi) h
  | issueClient =>
      refine forall_issued_record (fun i hi => ?_) h
      obtain rfl := OidcEvent.issued.inj hi
      exact ⟨rfl, rfl⟩
  | @issue id roles refreshToken =>
      refine forall_issued_record
        (s := { s with digests := hashToken cfg refreshToken :: s.digests }.leave id)
        (fun i hi => ?_) h
      obtain rfl := OidcEvent.issued.inj hi
      exact ⟨rfl, rfl⟩
  | refused => exact h
  | leave => exact h
  | authorize => exact h
  | exchange => exact h
  | getCode => exact h
  | rejectCode => exact h
  | refresh => exact h
  | getRefresh => exact h
  | deleteRefresh => exact h
  | clientCredentials => exact h
  | drawRefresh => exact h
  | tick => exact h
  | setClients => exact h

/-- **The issuer of a token** is that of the document, in every run. -/
theorem named_run {now : Int} {clients : List OidcClient} {as : List OidcAction}
    (hrun : run (oidcStep cfg) (OidcState.start now clients) as = some s) :
    ∀ e, OidcEvent.issued e ∈ s.history → e.Named cfg :=
  run_invariant (fun _ _ _ h hs => named_step h hs) (by simp [OidcState.start]) hrun

end Runs

/-! ### The promises -/

/-- **What the discovery document promises.** For an issuer that is the URL `u`, each advertised
URL leads to its endpoint, past the checks that all requests meet, exactly when `u` has no path. A
grant is read from the body that asks for it, and from a Basic header exactly when the id of the
client has no colon. No grant, response type and challenge method is taken but those of the
document, and all tokens of a run name its issuer. -/
theorem discovery_kept {cfg : OidcConfig} {u : IssuerURL} (hissuer : cfg.issuer = u.text) :
    (∀ env req, ∀ way ∈ (discoveryDocument cfg).advertised, req.method = way.2.1 →
      utf8 req.path = (parse (utf8 way.1)).path → csrfOriginCheck env req = .ok () →
        env.globalLimitReached req = false →
          ((∃ locals, serve env req = .reached way.2.2 locals) ↔ u.path = "")) ∧
      (∀ g : Grant, TokenEndpoint.handleToken ""
        (TokenEndpoint.formValue [] (parseQuery (TokenEndpoint.postBody g))) = .ok g.call) ∧
      (∀ g : Grant, TokenEndpoint.handleToken (TokenEndpoint.basicHeader g)
        (TokenEndpoint.formValue [] (parseQuery (TokenEndpoint.basicBody g))) = .ok g.call ↔
          colon ∉ utf8 g.clientID) ∧
      (∀ header form, (∃ call, TokenEndpoint.handleToken header form = .ok call) ↔
        ∃ grantType ∈ (discoveryDocument cfg).grantTypesSupported,
          form "grant_type" = utf8 grantType) ∧
      (∀ ctx s cookie q req, handleAuthorize ctx s cookie q = .code req →
        q.responseType ∈ (discoveryDocument cfg).responseTypesSupported ∧
          req.codeChallengeMethod ∈ (discoveryDocument cfg).codeChallengeMethodsSupported) ∧
      ∀ now clients as s, run (oidcStep cfg) (OidcState.start now clients) as = some s →
        ∀ e, OidcEvent.issued e ∈ s.history → e.Named cfg := by
  refine ⟨?_, TokenEndpoint.handleToken_post, TokenEndpoint.handleToken_basic_iff,
    fun header form => TokenEndpoint.handleToken_ok_iff cfg,
    fun ctx s cookie q req => handleAuthorize_advertised cfg,
    fun now clients as s => named_run⟩
  intro env req way hway hmethod hpath hcsrf hlimit
  rw [advertised_eq, List.mem_map] at hway
  obtain ⟨entry, hentry, rfl⟩ := hway
  rw [hissuer] at hpath
  exact (reached_advertised_iff u hentry hmethod hpath hcsrf hlimit :)

/-- The issuer of the example deployment, by its parts. -/
def exampleIssuer : IssuerURL where
  scheme := "https"
  authority := "idp.example"
  path := ""
  scheme_ne := by decide
  scheme_plain := ⟨by decide, by decide, by decide, by decide⟩
  authority_plain := ⟨by decide, by decide, by decide⟩
  path_plain := ⟨by decide, by decide⟩
  path_rooted := Or.inl rfl

/-- An application's request for the document of that deployment. -/
def discoveryRequest : Request where
  method := .get
  path := "/.well-known/openid-configuration"
  sessionCookie := ""
  apiKey := ""
  deviceKey := ""
  origin := ""
  referer := ""
  ip := "10.0.0.1"
  upgrade := false

/-- It leads to the document. -/
theorem discovery_kept_example :
    exampleConfig.issuer = exampleIssuer.text ∧
      ∃ locals,
        serve rbacClientEnvironment discoveryRequest = .reached .handleDiscovery locals := by
  have hissuer : exampleConfig.issuer = exampleIssuer.text := by decide
  obtain ⟨hways, -⟩ := discovery_kept hissuer
  have hpath : utf8 discoveryRequest.path =
      (parse (utf8 (exampleConfig.issuer ++ "/.well-known/openid-configuration"))).path := by
    rw [hissuer]
    have hentry : ("/.well-known/openid-configuration", .get, .handleDiscovery) ∈
        advertisedPaths := List.mem_cons_self
    exact (path_advertised exampleIssuer hentry).symm
  have hcsrf : csrfOriginCheck rbacClientEnvironment discoveryRequest = .ok () := rfl
  exact ⟨hissuer, (hways _ _ _ List.mem_cons_self rfl hpath hcsrf rfl).mpr rfl⟩

end IdpForge
