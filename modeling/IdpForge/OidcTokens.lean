import IdpForge.Authorization
import IdpForge.OidcSteps
import IdpForge.Users

/-!
# What the Verifier of Access Tokens Accepts

`issueTokens` signs an access token and an ID token with one key, and `ParseAccessToken` asks
of a token no more than that key and an expiry that lies ahead. So it accepts ID tokens as
well, and `handleUserinfo` with it. The JWT library is a parameter: a signing function and a
parser that accepts the unexpired tokens signed so far and nothing else.

## Main results

* `tokenInv_step`: every token signed is an ID token, which carries no scope, or an access
  token, which carries one.
* `access_token_only_iff`: the raw tokens for which the verifier and `handleUserinfo` accept
  access tokens only.
* `id_token_accepted`: `handleUserinfo` answers to an ID token.
-/

open GoStrings PartialMap TransitionSystem

namespace IdpForge

/-- The JWT library under the key of the provider. -/
structure Jwt where
  /-- `SignedString`, with the header that names the key. -/
  sign : Claims → String
  /-- `jwt.Parse` at a time, with the checks of the key function. -/
  parse : Int → String → Option Claims

/-- The tokens signed are accepted until they expire, and signatures cannot be forged. -/
structure Jwt.Verifies (jwt : Jwt) (now : Int) (signed : List Claims) : Prop where
  accepts : ∀ c ∈ signed, now < c.exp → jwt.parse now (jwt.sign c) = some c
  only : ∀ raw c, jwt.parse now raw = some c → c ∈ signed ∧ raw = jwt.sign c ∧ now < c.exp

/-- `ParseAccessToken`. -/
def parseAccessToken (jwt : Jwt) (now : Int) (raw : String) : Except String Claims :=
  match jwt.parse now raw with
  | none => .error "invalid token"
  | some claims => .ok claims

/-- The answer of `handleUserinfo`. -/
structure Userinfo where
  sub : String
  email : String
  username : String
  roles : Option (List String)
  deriving DecidableEq, Repr

/-- `handleUserinfo` on an `Authorization` header. -/
def handleUserinfo (jwt : Jwt) (now : Int) (fails : StoreOp → Bool) (users : List UserRow)
    (auth : String) : Except FiberError Userinfo :=
  if !hasPrefix auth "Bearer " then newError 401 "missing bearer token"
  else
    match parseAccessToken jwt now (trimPrefix auth "Bearer ") with
    | .error _ => newError 401 "invalid access token"
    | .ok claims =>
        match usersGet fails users claims.sub with
        | none => newError 404 "user not found"
        | some user => .ok ⟨user.id, user.email, user.username, claims.roles⟩

/-! ### The tokens signed in a run -/

/-- The provider with the claims of the tokens it has signed so far, whether or not the call
they were signed for returned them. -/
structure TokenState where
  provider : OidcState
  accessTokens : List Claims
  idTokens : List Claims

/-- The claims of all tokens signed so far. -/
def TokenState.signed (s : TokenState) : List Claims := s.accessTokens ++ s.idTokens

/-- A step of the provider, or a call that signs its access token and then fails to sign the
ID token. -/
inductive TokenAction where
  | provider (a : OidcAction)
  | halfSigned (id : Nat) (roles : List String)
  deriving DecidableEq, Repr

/-- The tokens that a call at `issueTokens` signs. -/
def signedTokens (cfg : OidcConfig) (s : OidcState) (id : Nat) (roles : List String) :
    Option TokenResponse :=
  match s.calls id with
  | some (.issuing _ grant userID scope) =>
      some (issueTokens cfg s.now grant.clientID userID scope roles "")
  | _ => none

/-- The tokens signed in a step of the provider. -/
def signedBy (cfg : OidcConfig) (s : OidcState) : OidcAction → Option TokenResponse
  | .issue id roles _ true _ => signedTokens cfg s id roles
  | _ => none

/-- The step function, with the tokens signed in it. -/
def tokenStep (cfg : OidcConfig) (s : TokenState) : TokenAction → Option TokenState
  | .provider a =>
      (oidcStep cfg s.provider a).map fun provider =>
        let tokens := (signedBy cfg s.provider a).toList
        { provider := provider
          accessTokens := tokens.map (·.accessToken) ++ s.accessTokens
          idTokens := tokens.map (·.idToken) ++ s.idTokens }
  | .halfSigned id roles =>
      (signedTokens cfg s.provider id roles).map fun tokens =>
        { s with
          provider := s.provider.leave id
          accessTokens := tokens.accessToken :: s.accessTokens }

/-- Before any call. -/
def TokenState.start (now : Int) (clients : List OidcClient) : TokenState where
  provider := OidcState.start now clients
  accessTokens := []
  idTokens := []

/-- The string is the access token of a response the provider has returned, and it has not
expired. -/
def IssuedAccessToken (jwt : Jwt) (s : TokenState) (raw : String) : Prop :=
  ∃ e, OidcEvent.issued e ∈ s.provider.history ∧ raw = jwt.sign e.response.accessToken ∧
    s.provider.now < e.response.accessToken.exp

/-- The string is an unexpired token, with these claims, that was signed and is not an access
token in the hands of a client: it is an ID token, or the access token of calls that returned
an error. -/
def StrayToken (jwt : Jwt) (s : TokenState) (raw : String) (c : Claims) : Prop :=
  raw = jwt.sign c ∧ s.provider.now < c.exp ∧
    (c ∈ s.idTokens ∨ (c ∈ s.accessTokens ∧
      ∀ e, OidcEvent.issued e ∈ s.provider.history → e.response.accessToken ≠ c))

/-! ### The invariant -/

/-- The invariant: ID tokens carry no scope, access tokens do, and the access tokens in the
history were signed. -/
structure TokenInv (s : TokenState) : Prop where
  idTokens : ∀ c ∈ s.idTokens, c.scope = none
  history : ∀ e, OidcEvent.issued e ∈ s.provider.history →
    e.response.accessToken ∈ s.accessTokens ∧ e.response.accessToken.scope ≠ none

section Steps

variable {cfg : OidcConfig} {s s' : OidcState} {id : Nat}

/-- The tokens that a call at `issueTokens` signs. -/
theorem signedTokens_eq_some {client : OidcClient} {grant : Grant} {userID scope : String}
    (hcall : s.calls id = some (.issuing client grant userID scope)) (roles : List String) :
    signedTokens cfg s id roles =
      some (issueTokens cfg s.now grant.clientID userID scope roles "") := by
  rw [signedTokens, hcall]

/-- Signed tokens come in pairs of an access token with a scope and an ID token without. -/
theorem scope_of_signedTokens {roles : List String} {tokens : TokenResponse}
    (h : signedTokens cfg s id roles = some tokens) :
    tokens.accessToken.scope ≠ none ∧ tokens.idToken.scope = none := by
  rw [signedTokens.eq_def] at h
  split at h
  · obtain rfl := Option.some.inj h
    exact ⟨by simp [issueTokens], rfl⟩
  · simp at h

/-- Signed tokens come in pairs of an access token with a scope and an ID token without. -/
theorem scope_of_signedBy {a : OidcAction} {tokens : TokenResponse}
    (h : signedBy cfg s a = some tokens) :
    tokens.accessToken.scope ≠ none ∧ tokens.idToken.scope = none := by
  rw [signedBy.eq_def] at h
  split at h
  · exact scope_of_signedTokens h
  · simp at h

/-- A response recorded in a step carries the access token signed in it. -/
theorem OidcStep.issued_cases {a : OidcAction} (h : OidcStep cfg s a s') {e : Issued}
    (he : OidcEvent.issued e ∈ s'.history) :
    OidcEvent.issued e ∈ s.history ∨
      ∃ tokens, signedBy cfg s a = some tokens ∧ e.response.accessToken = tokens.accessToken := by
  cases h with
  | storeCode =>
      rcases List.mem_cons.mp he with hnew | hold
      · simp at hnew
      · exact .inl hold
  | deleteCode =>
      rcases List.mem_cons.mp he with hnew | hold
      · simp at hnew
      · exact .inl hold
  | issueClient hcall =>
      rcases List.mem_cons.mp he with hnew | hold
      · obtain rfl := OidcEvent.issued.inj hnew
        exact .inr ⟨_, signedTokens_eq_some hcall _, rfl⟩
      · exact .inl hold
  | issue hcall =>
      rcases List.mem_cons.mp he with hnew | hold
      · obtain rfl := OidcEvent.issued.inj hnew
        exact .inr ⟨_, signedTokens_eq_some hcall _, rfl⟩
      · exact .inl hold
  | _ => exact .inl he

end Steps

variable {cfg : OidcConfig} {jwt : Jwt} {s s' : TokenState}

/-- **The step lemma.** -/
theorem tokenInv_step {a : TokenAction} (h : TokenInv s) (hstep : tokenStep cfg s a = some s') :
    TokenInv s' := by
  cases a with
  | provider a =>
      obtain ⟨provider, hprovider, rfl⟩ := Option.map_eq_some_iff.mp hstep
      refine ⟨fun c hc => ?_, fun e he => ?_⟩
      · rcases List.mem_append.mp hc with hnew | hold
        · obtain ⟨tokens, htokens, rfl⟩ := List.mem_map.mp hnew
          exact (scope_of_signedBy (Option.mem_toList.mp htokens)).2
        · exact h.idTokens c hold
      · rcases (oidcStep_cases hprovider).issued_cases he with hold | ⟨tokens, htokens, heq⟩
        · obtain ⟨hmem, hscope⟩ := h.history e hold
          exact ⟨List.mem_append_right _ hmem, hscope⟩
        · rw [heq]
          refine ⟨List.mem_append_left _ ?_, (scope_of_signedBy htokens).1⟩
          exact List.mem_map_of_mem (Option.mem_toList.mpr htokens)
  | halfSigned id roles =>
      obtain ⟨tokens, -, rfl⟩ := Option.map_eq_some_iff.mp hstep
      refine ⟨h.idTokens, fun e he => ?_⟩
      obtain ⟨hmem, hscope⟩ := h.history e he
      exact ⟨List.mem_cons_of_mem _ hmem, hscope⟩

/-- Before any call nothing is signed. -/
theorem tokenInv_start (now : Int) (clients : List OidcClient) :
    TokenInv (TokenState.start now clients) where
  idTokens := by simp [TokenState.start]
  history := by simp [TokenState.start, OidcState.start]

/-! ### What is accepted -/

/-- The verifier accepts the unexpired tokens that were signed. -/
theorem parseAccessToken_eq_ok_iff (hjwt : jwt.Verifies s.provider.now s.signed) {raw : String}
    {c : Claims} :
    parseAccessToken jwt s.provider.now raw = .ok c ↔
      c ∈ s.signed ∧ raw = jwt.sign c ∧ s.provider.now < c.exp := by
  have hparse : parseAccessToken jwt s.provider.now raw = .ok c ↔
      jwt.parse s.provider.now raw = some c := by
    rw [parseAccessToken.eq_def]
    cases jwt.parse s.provider.now raw with
    | none => simp
    | some claims => simp
  rw [hparse]
  constructor
  · exact hjwt.only raw c
  · rintro ⟨hmem, rfl, hfresh⟩
    exact hjwt.accepts c hmem hfresh

/-- `handleUserinfo` answers a bearer token that the verifier accepts, when its subject is a
user. -/
theorem handleUserinfo_eq_ok_iff {now : Int} {fails : StoreOp → Bool} {users : List UserRow}
    {raw : String} :
    (∃ info, handleUserinfo jwt now fails users ("Bearer " ++ raw) = .ok info) ↔
      ∃ c user, parseAccessToken jwt now raw = .ok c ∧ usersGet fails users c.sub = some user := by
  rw [handleUserinfo, hasPrefix_iff.mpr ⟨raw, rfl⟩, trimPrefix_append]
  cases parseAccessToken jwt now raw with
  | error e => simp [newError]
  | ok c => cases huser : usersGet fails users c.sub <;> simp [newError, huser]

/-- An accepted token is the access token of a response, or a stray one. -/
theorem issued_or_stray (hjwt : jwt.Verifies s.provider.now s.signed) {raw : String} {c : Claims}
    (h : parseAccessToken jwt s.provider.now raw = .ok c) :
    IssuedAccessToken jwt s raw ∨ StrayToken jwt s raw c := by
  obtain ⟨hmem, hraw, hfresh⟩ := (parseAccessToken_eq_ok_iff hjwt).mp h
  by_cases hissued : ∃ e, OidcEvent.issued e ∈ s.provider.history ∧ e.response.accessToken = c
  · obtain ⟨e, he, rfl⟩ := hissued
    exact .inl ⟨e, he, hraw, hfresh⟩
  · push Not at hissued
    rcases List.mem_append.mp hmem with haccess | hid
    · exact .inr ⟨hraw, hfresh, .inr ⟨haccess, hissued⟩⟩
    · exact .inr ⟨hraw, hfresh, .inl hid⟩

/-- A stray token is accepted, and it is nobody's access token. -/
theorem StrayToken.accepted (hinv : TokenInv s) (hjwt : jwt.Verifies s.provider.now s.signed)
    {raw : String} {c : Claims} (h : StrayToken jwt s raw c) :
    parseAccessToken jwt s.provider.now raw = .ok c ∧ ¬ IssuedAccessToken jwt s raw := by
  obtain ⟨hraw, hfresh, hstray⟩ := h
  have hmem : c ∈ s.signed :=
    List.mem_append.mpr (hstray.symm.imp_left And.left)
  have haccepted := (parseAccessToken_eq_ok_iff hjwt).mpr ⟨hmem, hraw, hfresh⟩
  refine ⟨haccepted, ?_⟩
  rintro ⟨e, he, hrawe, hfreshe⟩
  obtain ⟨haccess, hscope⟩ := hinv.history e he
  have hparse := (parseAccessToken_eq_ok_iff hjwt).mpr
    ⟨List.mem_append_left _ haccess, hrawe, hfreshe⟩
  obtain rfl : c = e.response.accessToken := Except.ok.inj (haccepted.symm.trans hparse)
  rcases hstray with hid | ⟨-, hnone⟩
  · exact hscope (hinv.idTokens _ hid)
  · exact hnone e he rfl

/-- **Only access tokens act as access tokens, stray tokens apart.** In every run, the
verifier accepts a raw token only as the unexpired access token of a response exactly when
the raw token is not stray; and `handleUserinfo` does exactly when there is no user for it if
it is. -/
theorem access_token_only_iff (cfg : OidcConfig) (jwt : Jwt) (now : Int)
    (clients : List OidcClient) (as : List TokenAction) (s : TokenState)
    (hrun : run (tokenStep cfg) (TokenState.start now clients) as = some s)
    (hjwt : jwt.Verifies s.provider.now s.signed) (raw : String) :
    ((∀ c, parseAccessToken jwt s.provider.now raw = .ok c → IssuedAccessToken jwt s raw) ↔
        ∀ c, ¬ StrayToken jwt s raw c) ∧
      ∀ (fails : StoreOp → Bool) (users : List UserRow),
        (∀ info, handleUserinfo jwt s.provider.now fails users ("Bearer " ++ raw) = .ok info →
            IssuedAccessToken jwt s raw) ↔
          ∀ c, StrayToken jwt s raw c → usersGet fails users c.sub = none := by
  have hinv : TokenInv s :=
    run_invariant (fun _ _ _ h hs => tokenInv_step h hs) (tokenInv_start now clients) hrun
  refine ⟨⟨fun h c hstray => ?_, fun h c hok => ?_⟩, fun fails users =>
    ⟨fun h c hstray => ?_, fun h info hok => ?_⟩⟩
  · obtain ⟨haccepted, hnot⟩ := hstray.accepted hinv hjwt
    exact hnot (h c haccepted)
  · exact (issued_or_stray hjwt hok).resolve_right (h c)
  · obtain ⟨haccepted, hnot⟩ := hstray.accepted hinv hjwt
    by_contra hsome
    obtain ⟨user, huser⟩ := Option.ne_none_iff_exists'.mp hsome
    obtain ⟨info, hinfo⟩ := handleUserinfo_eq_ok_iff.mpr ⟨c, user, haccepted, huser⟩
    exact hnot (h info hinfo)
  · obtain ⟨c, user, haccepted, huser⟩ := handleUserinfo_eq_ok_iff.mp ⟨info, hok⟩
    refine (issued_or_stray hjwt haccepted).resolve_right fun hstray => ?_
    rw [h c hstray] at huser
    simp at huser

/-! ### The tokens of the example -/

/-- A stand-in for the encoding: the claims that tell the tokens of the example apart. -/
def exampleSign (c : Claims) : String :=
  c.sub ++ "." ++ c.scope.getD "" ++ "." ++ toString c.iat

/-- The exchange of the example. -/
def exampleTokenActions : List TokenAction := (exampleActions.take 7).map .provider

/-- The access token of the example. -/
def exampleAccessToken : Claims :=
  (issueTokens exampleConfig 60 "app" "u" "openid" [] "t1").accessToken

/-- The ID token of the example. -/
def exampleIDToken : Claims := (issueTokens exampleConfig 60 "app" "u" "openid" [] "t1").idToken

/-- The library once the tokens of the example are signed. -/
def exampleJwt : Jwt where
  sign := exampleSign
  parse := fun now raw =>
    [exampleAccessToken, exampleIDToken].find? fun c => exampleSign c = raw ∧ now < c.exp

/-- The state after the exchange of the example. -/
theorem exampleTokenActions_state :
    ∃ s, run (tokenStep exampleConfig) (TokenState.start 0 [exampleClient]) exampleTokenActions =
        some s ∧ s.provider.now = 60 ∧ s.accessTokens = [exampleAccessToken] ∧
          s.idTokens = [exampleIDToken] := by
  have h : (run (tokenStep exampleConfig) (TokenState.start 0 [exampleClient])
      exampleTokenActions).map (fun s => (s.provider.now, s.accessTokens, s.idTokens)) =
        some (60, [exampleAccessToken], [exampleIDToken]) := by
    decide +kernel
  obtain ⟨s, hrun, hs⟩ := Option.map_eq_some_iff.mp h
  obtain ⟨hnow, hs⟩ := Prod.mk.inj hs
  obtain ⟨haccess, hid⟩ := Prod.mk.inj hs
  exact ⟨s, hrun, hnow, haccess, hid⟩

/-- The library of the example behaves as assumed. -/
theorem exampleJwt_verifies : exampleJwt.Verifies 60 [exampleAccessToken, exampleIDToken] where
  accepts := by decide +kernel
  only := fun raw c h => by
    have hfind : [exampleAccessToken, exampleIDToken].find?
        (fun c => exampleSign c = raw ∧ (60 : Int) < c.exp) = some c := h
    have hmatch : exampleSign c = raw ∧ 60 < c.exp := by simpa using List.find?_some hfind
    exact ⟨List.mem_of_find?_eq_some hfind, hmatch.1.symm, hmatch.2⟩

/-- The user of the example. -/
def exampleTokenUser : UserRow where
  id := "u"
  username := "bob"
  email := "bob@example"
  employeeID := none
  passwordHash := none
  status := statusActive
  mfaSecret := none
  mfaEnabled := false
  forcePasswordChange := false
  passwordChangedAt := 0

/-- **An ID token acts as an access token.** `handleUserinfo` answers to the ID token of the
example with the data of its user. -/
theorem id_token_accepted :
    ¬ ∀ (cfg : OidcConfig) (jwt : Jwt) (now : Int) (clients : List OidcClient)
      (as : List TokenAction) (s : TokenState),
        run (tokenStep cfg) (TokenState.start now clients) as = some s →
          jwt.Verifies s.provider.now s.signed →
            ∀ (raw : String) (fails : StoreOp → Bool) (users : List UserRow) (info : Userinfo),
              handleUserinfo jwt s.provider.now fails users ("Bearer " ++ raw) = .ok info →
                IssuedAccessToken jwt s raw := by
  intro h
  obtain ⟨s, hrun, hnow, haccess, hid⟩ := exampleTokenActions_state
  have hinv : TokenInv s :=
    run_invariant (fun _ _ _ h hs => tokenInv_step h hs) (tokenInv_start _ _) hrun
  have hjwt : exampleJwt.Verifies s.provider.now s.signed := by
    rw [TokenState.signed, hnow, haccess, hid]
    exact exampleJwt_verifies
  have hstray : StrayToken exampleJwt s (exampleSign exampleIDToken) exampleIDToken := by
    rw [StrayToken, hnow, hid]
    exact ⟨rfl, by decide, .inl List.mem_cons_self⟩
  obtain ⟨haccepted, hnot⟩ := hstray.accepted hinv hjwt
  have hinfo : handleUserinfo exampleJwt s.provider.now (fun _ => false) [exampleTokenUser]
      ("Bearer " ++ exampleSign exampleIDToken) = .ok ⟨"u", "bob@example", "bob", none⟩ := by
    rw [hnow]
    decide +kernel
  exact hnot (h _ _ _ _ _ s hrun hjwt _ _ _ _ hinfo)

/-- The verifier meets the rule on the access token of the example. -/
theorem access_token_only_iff_example :
    ∃ s, run (tokenStep exampleConfig) (TokenState.start 0 [exampleClient]) exampleTokenActions =
        some s ∧
      ((∀ c, parseAccessToken exampleJwt s.provider.now (exampleSign exampleAccessToken) = .ok c →
          IssuedAccessToken exampleJwt s (exampleSign exampleAccessToken)) ↔
        ∀ c, ¬ StrayToken exampleJwt s (exampleSign exampleAccessToken) c) := by
  obtain ⟨s, hrun, hnow, haccess, hid⟩ := exampleTokenActions_state
  have hjwt : exampleJwt.Verifies s.provider.now s.signed := by
    rw [TokenState.signed, hnow, haccess, hid]
    exact exampleJwt_verifies
  exact ⟨s, hrun, (access_token_only_iff _ _ _ _ _ s hrun hjwt _).1⟩

end IdpForge
