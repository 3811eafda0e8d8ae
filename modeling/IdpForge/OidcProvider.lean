import IdpForge.PartialMap
import IdpForge.TransitionSystem

/-!
# The OpenID Connect Provider

`Authorize`, `ExchangeCode`, `RefreshTokens` and `ClientCredentials`, one cache operation at
a time, so that any number of calls can interleave. An authorization code and a refresh
token are cache entries: the code under itself, the token under its digest. A call looks its
client up and authenticates it in one step, then takes one step for each `Get`, `Delete` and
`Set`, whose error a flag stands for.

A signed token is represented by its claims. The two digests of the code are parameters:
the hexadecimal one of client secrets and the base64url one of verifiers and refresh tokens.
Fresh UUIDs are arguments of the steps that draw them; a step is not enabled with one that
repeats.

## Main definitions

* `oidcStep`: the step function of the provider, with a history of the successful calls.
* `authenticateClient_eq_ok_iff`, `authorizeCheck_eq_ok_iff`, `exchangeCheck_eq_ok_iff`,
  `refreshCheck_eq_ok_iff`: what the checks let through.
-/

open PartialMap TransitionSystem

namespace IdpForge

/-- `oidc.Client`. -/
structure OidcClient where
  id : String
  secretHash : String
  redirectURIs : List String
  allowedScopes : List String
  deriving DecidableEq, Repr

/-- `Client.AllowsRedirect`. -/
def OidcClient.allowsRedirect (c : OidcClient) (uri : String) : Bool :=
  c.redirectURIs.any fun u => u = uri

/-- `ClientStore.Get` over the enabled OIDC applications. -/
def clientStoreGet (clients : List OidcClient) (clientID : String) : Option OidcClient :=
  clients.find? fun c => c.id = clientID

/-- `AuthorizeRequest`, the fields `Authorize` reads. -/
structure AuthorizeRequest where
  clientID : String
  redirectURI : String
  scope : String
  codeChallenge : String
  codeChallengeMethod : String
  userID : String
  deriving DecidableEq, Repr

/-- `authCode`. -/
structure AuthCode where
  clientID : String
  redirectURI : String
  scope : String
  userID : String
  codeChallenge : String
  codeChallengeMethod : String
  deriving DecidableEq, Repr

/-- The record behind a refresh token. -/
structure RefreshRecord where
  clientID : String
  userID : String
  scope : String
  deriving DecidableEq, Repr

/-- The claims of a token; the ID token has neither scope nor roles. -/
structure Claims where
  iss : String
  sub : String
  aud : String
  scope : Option String
  roles : Option (List String)
  iat : Int
  exp : Int
  deriving DecidableEq, Repr

/-- `TokenResponse`, the tokens by their claims; without a refresh token it is empty. -/
structure TokenResponse where
  accessToken : Claims
  idToken : Claims
  refreshToken : String
  tokenType : String
  expiresIn : Int
  scope : String
  deriving DecidableEq, Repr

/-- `config.OIDCConfig` and the digests. -/
structure OidcConfig where
  issuer : String
  accessTokenTTL : Int
  idTokenTTL : Int
  refreshTokenTTL : Int
  /-- The hexadecimal SHA-256 digest. -/
  sha256Hex : String → String
  /-- The unpadded base64url SHA-256 digest. -/
  sha256Base64 : String → String

/-- The arguments of `ExchangeCode`. -/
structure ExchangeRequest where
  clientID : String
  clientSecret : String
  code : String
  redirectURI : String
  codeVerifier : String
  deriving DecidableEq, Repr

/-- The arguments of `RefreshTokens`. -/
structure RefreshRequest where
  clientID : String
  clientSecret : String
  refreshToken : String
  deriving DecidableEq, Repr

/-- The call that tokens are issued for. -/
inductive Grant where
  | exchange (req : ExchangeRequest)
  | refresh (req : RefreshRequest)
  | clientCredentials (clientID clientSecret : String)
  deriving DecidableEq, Repr

/-- The client of the call. -/
def Grant.clientID : Grant → String
  | .exchange req => req.clientID
  | .refresh req => req.clientID
  | .clientCredentials clientID _ => clientID

/-- The secret presented by the call. -/
def Grant.clientSecret : Grant → String
  | .exchange req => req.clientSecret
  | .refresh req => req.clientSecret
  | .clientCredentials _ clientSecret => clientSecret

/-- A grant on behalf of a user, which comes with a refresh token. -/
def Grant.withRefresh : Grant → Bool
  | .clientCredentials _ _ => false
  | _ => true

/-! ### The checks -/

section Checks

variable (cfg : OidcConfig)

/-- `hashClientSecret`. -/
def hashClientSecret (secret : String) : String := cfg.sha256Hex secret

/-- `hashToken`. -/
def hashToken (token : String) : String := cfg.sha256Base64 token

/-- `verifyPKCE`. -/
def verifyPKCE (challenge verifier : String) : Bool := cfg.sha256Base64 verifier = challenge

/-- `authenticateClient`, with the client it finds. -/
def authenticateClient (clients : List OidcClient) (clientID clientSecret : String) :
    Except String OidcClient :=
  match clientStoreGet clients clientID with
  | none => .error "unknown client"
  | some client =>
      if client.secretHash = "" then .ok client
      else if hashClientSecret cfg clientSecret ≠ client.secretHash then
        .error "invalid client credentials"
      else .ok client

/-- The checks of `Authorize`, with the client it finds. -/
def authorizeCheck (clients : List OidcClient) (req : AuthorizeRequest) :
    Except String OidcClient :=
  match clientStoreGet clients req.clientID with
  | none => .error "unknown client"
  | some client =>
      if !client.allowsRedirect req.redirectURI then
        .error "redirect_uri not registered for client"
      else if req.codeChallenge = "" ∨ req.codeChallengeMethod ≠ "S256" then
        .error "PKCE (S256) is required"
      else .ok client

/-- The record `Authorize` stores. -/
def AuthorizeRequest.record (req : AuthorizeRequest) : AuthCode where
  clientID := req.clientID
  redirectURI := req.redirectURI
  scope := req.scope
  userID := req.userID
  codeChallenge := req.codeChallenge
  codeChallengeMethod := req.codeChallengeMethod

/-- The checks of `ExchangeCode` on the record of the code. -/
def exchangeCheck (req : ExchangeRequest) (record : AuthCode) : Except String Unit :=
  if record.clientID ≠ req.clientID ∨ record.redirectURI ≠ req.redirectURI then
    .error "code does not match client/redirect_uri"
  else if !verifyPKCE cfg record.codeChallenge req.codeVerifier then
    .error "invalid code_verifier"
  else .ok ()

/-- The check of `RefreshTokens` on the record of the token. -/
def refreshCheck (req : RefreshRequest) (record : RefreshRecord) : Except String Unit :=
  if record.clientID ≠ req.clientID then .error "refresh token does not match client"
  else .ok ()

/-- `issueTokens` up to the storing of the refresh token. -/
def issueTokens (now : Int) (clientID userID scope : String) (roles : List String)
    (refreshToken : String) : TokenResponse where
  accessToken :=
    { iss := cfg.issuer, sub := userID, aud := clientID, scope := some scope,
      roles := some roles, iat := now, exp := now + cfg.accessTokenTTL }
  idToken :=
    { iss := cfg.issuer, sub := userID, aud := clientID, scope := none, roles := none,
      iat := now, exp := now + cfg.idTokenTTL }
  refreshToken := refreshToken
  tokenType := "Bearer"
  expiresIn := cfg.accessTokenTTL
  scope := scope

/-- The presented secret fits the client: it has none, or the digest is the stored one. -/
def OidcClient.SecretFits (client : OidcClient) (clientSecret : String) : Prop :=
  client.secretHash = "" ∨ hashClientSecret cfg clientSecret = client.secretHash

variable {cfg} {clients : List OidcClient} {client : OidcClient}

/-- A client is found under its id. -/
theorem clientStoreGet_id {clientID : String} (h : clientStoreGet clients clientID = some client) :
    client.id = clientID := by
  simpa using List.find?_some h

/-- Authentication finds the client of the id, and the secret fits it. -/
theorem authenticateClient_eq_ok_iff {clientID clientSecret : String} :
    authenticateClient cfg clients clientID clientSecret = .ok client ↔
      clientStoreGet clients clientID = some client ∧ client.SecretFits cfg clientSecret := by
  rw [authenticateClient]
  cases clientStoreGet clients clientID with
  | none => simp
  | some found =>
      simp only [Option.some.injEq, OidcClient.SecretFits]
      split
      · next hempty =>
          rw [Except.ok.injEq]
          exact ⟨fun h => ⟨h, Or.inl (h ▸ hempty)⟩, fun h => h.1⟩
      · next hset =>
          split
          · next hne =>
              simp only [reduceCtorEq, false_iff, not_and, not_or]
              rintro rfl
              exact ⟨hset, hne⟩
          · next heq =>
              rw [not_not] at heq
              rw [Except.ok.injEq]
              exact ⟨fun h => ⟨h, Or.inr (h ▸ heq)⟩, fun h => h.1⟩

/-- `Authorize` accepts a request of a known client with a registered redirect URI and an
S256 challenge. -/
theorem authorizeCheck_eq_ok_iff {req : AuthorizeRequest} :
    authorizeCheck clients req = .ok client ↔
      clientStoreGet clients req.clientID = some client ∧
        client.allowsRedirect req.redirectURI = true ∧ req.codeChallenge ≠ "" ∧
          req.codeChallengeMethod = "S256" := by
  rw [authorizeCheck]
  cases clientStoreGet clients req.clientID with
  | none => simp
  | some found =>
      simp only [Option.some.injEq]
      split
      · next hredirect =>
          simp only [reduceCtorEq, false_iff, not_and]
          rintro rfl hallows
          simp [hallows] at hredirect
      · next hredirect =>
          split
          · next hpkce =>
              simp only [reduceCtorEq, false_iff, not_and]
              rintro - - hchallenge
              exact hpkce.resolve_left hchallenge
          · next hpkce =>
              push Not at hpkce
              rw [Except.ok.injEq]
              refine ⟨fun h => ⟨h, ?_, hpkce⟩, fun h => h.1⟩
              simpa [← h] using hredirect

/-- A code is exchanged by its client, for its redirect URI and with a verifier of its
challenge. -/
theorem exchangeCheck_eq_ok_iff {req : ExchangeRequest} {record : AuthCode} :
    exchangeCheck cfg req record = .ok () ↔
      record.clientID = req.clientID ∧ record.redirectURI = req.redirectURI ∧
        cfg.sha256Base64 req.codeVerifier = record.codeChallenge := by
  rw [exchangeCheck]
  split
  · next hne =>
      simp only [reduceCtorEq, false_iff, not_and]
      intro hclient hredirect
      exact absurd hredirect (hne.resolve_left (not_not.mpr hclient))
  · next heq =>
      push Not at heq
      rw [verifyPKCE]
      split
      · next hverify => simpa [heq] using hverify
      · next hverify => simpa [heq] using hverify

/-- A refresh token is used by its client. -/
theorem refreshCheck_eq_ok_iff {req : RefreshRequest} {record : RefreshRecord} :
    refreshCheck req record = .ok () ↔ record.clientID = req.clientID := by
  rw [refreshCheck]
  split
  · next hne => simpa using hne
  · next heq => simpa using heq

end Checks

/-! ### Running calls -/

/-- Where a running call stands, with the client it was authenticated for. -/
inductive Stage where
  | storingCode (client : OidcClient) (req : AuthorizeRequest) (code : String)
  | exchanging (client : OidcClient) (req : ExchangeRequest)
  | gotCode (client : OidcClient) (req : ExchangeRequest) (record : AuthCode) (gotAt : Int)
  | refreshing (client : OidcClient) (req : RefreshRequest)
  | gotRefresh (client : OidcClient) (req : RefreshRequest) (record : RefreshRecord)
  | issuing (client : OidcClient) (grant : Grant) (userID scope : String)
  deriving DecidableEq, Repr

/-- A call of `Authorize` that returned a code. -/
structure Authorized where
  time : Int
  client : OidcClient
  request : AuthorizeRequest
  code : String
  deriving DecidableEq, Repr

/-- A call of `ExchangeCode` that found its code at `time` and passed the checks. -/
structure Exchanged where
  time : Int
  client : OidcClient
  request : ExchangeRequest
  deriving DecidableEq, Repr

/-- A call that returned tokens. -/
structure Issued where
  time : Int
  client : OidcClient
  grant : Grant
  response : TokenResponse
  deriving DecidableEq, Repr

/-- What the history records. -/
inductive OidcEvent where
  | authorized (e : Authorized)
  | exchanged (e : Exchanged)
  | issued (e : Issued)
  deriving DecidableEq, Repr

/-- The cache, the registered clients, the running calls and the clock. The history has the
latest event first; `drawn` and `digests` list the codes and the digests of the refresh
tokens drawn so far. -/
structure OidcState where
  now : Int
  clients : List OidcClient
  codes : Expiring String AuthCode
  refreshes : Expiring String RefreshRecord
  calls : Nat → Option Stage
  drawn : List String
  digests : List String
  history : List OidcEvent

/-- The beginning of a call, one of its cache operations, or what happens around it. -/
inductive OidcAction where
  | authorize (id : Nat) (req : AuthorizeRequest) (code : String)
  | storeCode (id : Nat) (ok : Bool)
  | exchange (id : Nat) (req : ExchangeRequest)
  | getCode (id : Nat) (ok : Bool)
  | deleteCode (id : Nat) (ok : Bool)
  | refresh (id : Nat) (req : RefreshRequest)
  | getRefresh (id : Nat) (ok : Bool)
  | deleteRefresh (id : Nat) (ok : Bool)
  | clientCredentials (id : Nat) (clientID clientSecret : String)
  | issue (id : Nat) (roles : List String) (refreshToken : String) (signed stored : Bool)
  | tick (d : Nat)
  | setClients (clients : List OidcClient)
  deriving DecidableEq, Repr

/-- The call goes on. -/
def OidcState.goOn (s : OidcState) (id : Nat) (stage : Stage) : OidcState :=
  { s with calls := Function.update s.calls id (some stage) }

/-- The call returns. -/
def OidcState.leave (s : OidcState) (id : Nat) : OidcState :=
  { s with calls := Function.update s.calls id none }

/-- Something worth recording has happened. -/
def OidcState.record (s : OidcState) (e : OidcEvent) : OidcState :=
  { s with history := e :: s.history }

section Steps

variable (cfg : OidcConfig) (s : OidcState) (id : Nat)

/-- The beginning of a call that authenticates its client; a refused call returns. -/
def beginStep (check : Except String OidcClient) (stage : OidcClient → Stage) :
    Option OidcState :=
  match s.calls id, check with
  | some _, _ => none
  | none, .error _ => some s
  | none, .ok client => some (s.goOn id (stage client))

/-- The beginning of `Authorize`, which draws a code once its checks have passed. -/
def authorizeStep (req : AuthorizeRequest) (code : String) : Option OidcState :=
  match s.calls id, authorizeCheck s.clients req with
  | some _, _ => none
  | none, .error _ => some s
  | none, .ok client =>
      if code ∈ s.drawn then none
      else
        some ({ s with drawn := code :: s.drawn }.goOn id (.storingCode client req code))

/-- The `Set` of `Authorize`, for two minutes. -/
def storeCodeStep (ok : Bool) : Option OidcState :=
  match s.calls id with
  | some (.storingCode client req code) =>
      some (if ok then
        { (s.leave id).record (.authorized ⟨s.now, client, req, code⟩) with
          codes := set s.codes s.now code req.record 120 }
      else s.leave id)
  | _ => none

/-- The `Get` of `ExchangeCode`. -/
def getCodeStep (ok : Bool) : Option OidcState :=
  match s.calls id with
  | some (.exchanging client req) =>
      some (match ok, get s.codes s.now req.code with
        | true, some record => s.goOn id (.gotCode client req record s.now)
        | _, _ => s.leave id)
  | _ => none

/-- The `Delete` of `ExchangeCode`, whose error is dropped, and the checks after it. -/
def deleteCodeStep (ok : Bool) : Option OidcState :=
  match s.calls id with
  | some (.gotCode client req record gotAt) =>
      let s' := { s with codes := if ok then delete s.codes req.code else s.codes }
      some (match exchangeCheck cfg req record with
        | .error _ => s'.leave id
        | .ok () =>
            (s'.goOn id (.issuing client (.exchange req) record.userID record.scope)).record
              (.exchanged ⟨gotAt, client, req⟩))
  | _ => none

/-- The `Get` of `RefreshTokens` and the check after it. -/
def getRefreshStep (ok : Bool) : Option OidcState :=
  match s.calls id with
  | some (.refreshing client req) =>
      some (match ok, get s.refreshes s.now (hashToken cfg req.refreshToken) with
        | true, some record =>
            match refreshCheck req record with
            | .error _ => s.leave id
            | .ok () => s.goOn id (.gotRefresh client req record)
        | _, _ => s.leave id)
  | _ => none

/-- The `Delete` of `RefreshTokens`, whose error is dropped. -/
def deleteRefreshStep (ok : Bool) : Option OidcState :=
  match s.calls id with
  | some (.gotRefresh client req record) =>
      let key := hashToken cfg req.refreshToken
      let s' := { s with refreshes := if ok then delete s.refreshes key else s.refreshes }
      some (s'.goOn id (.issuing client (.refresh req) record.userID record.scope))
  | _ => none

/-- `issueTokens`: signing, drawing and storing a refresh token, and the return of the
call. -/
def issueStep (roles : List String) (refreshToken : String) (signed stored : Bool) :
    Option OidcState :=
  match s.calls id with
  | some (.issuing client grant userID scope) =>
      let key := hashToken cfg refreshToken
      if !signed then some (s.leave id)
      else if !grant.withRefresh then
        some ((s.leave id).record (.issued ⟨s.now, client, grant,
          issueTokens cfg s.now grant.clientID userID scope roles ""⟩))
      else if key ∈ s.digests then none
      else
        let s' := { s with digests := key :: s.digests }
        some (if stored then
          { (s'.leave id).record (.issued ⟨s.now, client, grant,
              issueTokens cfg s.now grant.clientID userID scope roles refreshToken⟩) with
            refreshes :=
              set s.refreshes s.now key ⟨grant.clientID, userID, scope⟩ cfg.refreshTokenTTL }
        else s'.leave id)
  | _ => none

end Steps

/-- The step function. -/
def oidcStep (cfg : OidcConfig) (s : OidcState) : OidcAction → Option OidcState
  | .authorize id req code => authorizeStep s id req code
  | .storeCode id ok => storeCodeStep s id ok
  | .exchange id req =>
      beginStep s id (authenticateClient cfg s.clients req.clientID req.clientSecret)
        fun client => .exchanging client req
  | .getCode id ok => getCodeStep s id ok
  | .deleteCode id ok => deleteCodeStep cfg s id ok
  | .refresh id req =>
      beginStep s id (authenticateClient cfg s.clients req.clientID req.clientSecret)
        fun client => .refreshing client req
  | .getRefresh id ok => getRefreshStep cfg s id ok
  | .deleteRefresh id ok => deleteRefreshStep cfg s id ok
  | .clientCredentials id clientID clientSecret =>
      beginStep s id (authenticateClient cfg s.clients clientID clientSecret) fun client =>
        .issuing client (.clientCredentials clientID clientSecret) clientID
          (" ".intercalate client.allowedScopes)
  | .issue id roles refreshToken signed stored =>
      issueStep cfg s id roles refreshToken signed stored
  | .tick d => some { s with now := s.now + d }
  | .setClients clients => some { s with clients := clients }

/-- Before any call. -/
def OidcState.start (now : Int) (clients : List OidcClient) : OidcState where
  now := now
  clients := clients
  codes := fun _ => none
  refreshes := fun _ => none
  calls := fun _ => none
  drawn := []
  digests := []
  history := []

/-! ### An example deployment -/

/-- The digests of the secret, the verifier and the refresh tokens of the examples. -/
def exampleDigest : String → String
  | "s" => "043a718774c572bd8a25adbeb1bfcd5c0256ae11cecf9f9c3f925d0e52beaf89"
  | "v" => "TJRIXgwhrmxBzh3-e2v6zupato5AokdvUCCOUm9QYIA"
  | "t1" => "YotJ2W3N6XpDDdT1l3BYmeCalo95NJHktwTK4zpA3AI"
  | "t2" => "xER0A41FnkDkcUr--nv42un5g0si9ejsHdQ07LYrUS4"
  | other => other

/-- Tokens that live for a quarter of an hour and can be refreshed for thirty days. -/
def exampleConfig : OidcConfig where
  issuer := "https://idp.example"
  accessTokenTTL := 900
  idTokenTTL := 900
  refreshTokenTTL := 2592000
  sha256Hex := exampleDigest
  sha256Base64 := exampleDigest

/-- A client with the secret `s`. -/
def exampleClient : OidcClient where
  id := "app"
  secretHash := exampleDigest "s"
  redirectURIs := ["https://app.example/callback"]
  allowedScopes := ["openid"]

/-- A user consents to the client, whose verifier is `v`. -/
def exampleAuthorize : AuthorizeRequest where
  clientID := "app"
  redirectURI := "https://app.example/callback"
  scope := "openid"
  codeChallenge := exampleDigest "v"
  codeChallengeMethod := "S256"
  userID := "u"

/-- The client redeems a code. -/
def exampleExchange (code : String) : ExchangeRequest where
  clientID := "app"
  clientSecret := "s"
  code := code
  redirectURI := "https://app.example/callback"
  codeVerifier := "v"

/-- The client redeems a refresh token. -/
def exampleRefresh (refreshToken : String) : RefreshRequest where
  clientID := "app"
  clientSecret := "s"
  refreshToken := refreshToken

/-- A consent, the exchange of its code and a refresh, one call after the other. -/
def exampleActions : List OidcAction :=
  [.authorize 0 exampleAuthorize "c", .storeCode 0 true, .tick 60,
    .exchange 0 (exampleExchange "c"), .getCode 0 true, .deleteCode 0 true,
    .issue 0 [] "t1" true true, .tick 600,
    .refresh 0 (exampleRefresh "t1"), .getRefresh 0 true, .deleteRefresh 0 true,
    .issue 0 [] "t2" true true]

/-- The tokens of the exchange. -/
def exampleExchanged : Issued :=
  ⟨60, exampleClient, .exchange (exampleExchange "c"),
    issueTokens exampleConfig 60 "app" "u" "openid" [] "t1"⟩

/-- The tokens of the refresh. -/
def exampleRefreshed : Issued :=
  ⟨660, exampleClient, .refresh (exampleRefresh "t1"),
    issueTokens exampleConfig 660 "app" "u" "openid" [] "t2"⟩

/-- The history up to the exchange. -/
def examplePast : List OidcEvent :=
  [.issued exampleExchanged, .exchanged ⟨60, exampleClient, exampleExchange "c"⟩,
    .authorized ⟨0, exampleClient, exampleAuthorize, "c"⟩]

/-- The history of the example. -/
theorem exampleActions_history :
    (run (oidcStep exampleConfig) (OidcState.start 0 [exampleClient]) exampleActions).map
      (·.history) = some (.issued exampleRefreshed :: examplePast) := by
  decide +kernel

end IdpForge
