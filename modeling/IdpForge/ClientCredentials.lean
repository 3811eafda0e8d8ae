import IdpForge.OidcCalls

/-!
# Tokens for a Client Itself

`ClientCredentials` issues tokens to a client on its own behalf, "machine-to-machine auth, no user
or browser involved". What it asks of the caller is `authenticateClient`, the check it shares with
the code and refresh grants. That check lets a client without a secret hash through: "an SPA
relying on PKCE alone", which needs none. In this grant there is no PKCE and no code, so nothing
is left that the caller would have to know beyond the client's id.

## Main results

* `client_credentials_proven_iff`: every token of a client is issued for its secret exactly when
  the client is registered with a secret hash.
* `public_client_gets_tokens`: tokens for a client id alone.
* `issued_to_proven`: over runs of the provider, as long as only clients with a secret hash make
  such calls.
-/

open PartialMap TransitionSystem

namespace IdpForge

/-- The client has a secret hash, and it is the digest of the presented secret. -/
def OidcClient.Proven (cfg : OidcConfig) (client : OidcClient) (clientSecret : String) : Prop :=
  client.secretHash ≠ "" ∧ hashClientSecret cfg clientSecret = client.secretHash

section Calls

variable {cfg : OidcConfig} {unmarshal : String → Option OidcClient} {client : OidcClient}
  {clientID clientSecret : String}

/-- A fitting secret proves a client with a secret hash. -/
theorem OidcClient.SecretFits.proven (hfits : client.SecretFits cfg clientSecret)
    (hconfidential : client.secretHash ≠ "") : client.Proven cfg clientSecret :=
  ⟨hconfidential, hfits.resolve_left hconfidential⟩

/-- `ClientCredentials` returns tokens for a client that its first query finds and whose secret
fits, when the second query finds one as well and both tokens are signed. -/
theorem clientCredentials_eq_ok_iff {answer reread : ClientQuery} {io : IssueContext}
    {refreshes : Expiring String RefreshRecord} :
    (∃ resp, (clientCredentials cfg unmarshal answer reread io refreshes clientID
        clientSecret).1 = .ok resp) ↔
      (∃ client, clientStoreQuery unmarshal answer clientID = .ok client ∧
          client.SecretFits cfg clientSecret) ∧
        (∃ client, clientStoreQuery unmarshal reread clientID = .ok client) ∧ io.Signs := by
  simp only [← authenticateQueried_eq_ok_iff]
  rw [clientCredentials]
  cases authenticateQueried cfg unmarshal answer clientID clientSecret with
  | error e => simp
  | ok client =>
      cases clientStoreQuery unmarshal reread clientID with
      | error e => simp
      | ok client => simp [issueTokensCall_false_eq_ok_iff]

/-- **`client_credentials` requires a secret** exactly of the clients registered with a secret
hash: whatever the query of the authentication answers, each call that returns tokens proves the
registered client, whichever secret it presents and whatever it meets later, if and only if the
registered client has a secret hash. -/
theorem client_credentials_proven_iff (cfg : OidcConfig) (unmarshal : String → Option OidcClient)
    (answer : ClientQuery) (clientID : String) :
    (∀ (clientSecret : String) (reread : ClientQuery) (io : IssueContext)
        (refreshes : Expiring String RefreshRecord) (resp : TokenResponse),
        (clientCredentials cfg unmarshal answer reread io refreshes clientID clientSecret).1 =
          .ok resp →
        ∃ client, clientStoreQuery unmarshal answer clientID = .ok client ∧
          client.Proven cfg clientSecret) ↔
      ∀ client, clientStoreQuery unmarshal answer clientID = .ok client →
        client.secretHash ≠ "" := by
  constructor
  · intro hproven client hget hpublic
    -- any secret will do for a client without a hash
    have htokens : ∃ resp, (clientCredentials cfg unmarshal answer answer
        ⟨0, [], .ok (), .ok (), "", .done, ""⟩ (fun _ => none) clientID "").1 = .ok resp :=
      clientCredentials_eq_ok_iff.mpr ⟨⟨client, hget, Or.inl hpublic⟩, ⟨client, hget⟩, rfl, rfl⟩
    obtain ⟨resp, hresp⟩ := htokens
    obtain ⟨client', hget', hhash, -⟩ := hproven _ _ _ _ resp hresp
    rw [hget] at hget'
    obtain rfl := Except.ok.inj hget'
    exact hhash hpublic
  · intro hconfidential clientSecret reread io refreshes resp hresp
    obtain ⟨⟨client, hget, hfits⟩, -⟩ := clientCredentials_eq_ok_iff.mp ⟨resp, hresp⟩
    exact ⟨client, hget, hfits.proven (hconfidential client hget)⟩

end Calls

/-! ### A public client -/

/-- The configuration of an application that relies on PKCE alone. -/
def spaConfig : String :=
  "\x7b\"client_id\":\"spa\",\"client_secret_hash\":\"\",\"redirect_uris\":" ++
    "[\"https://spa.example/callback\"],\"allowed_scopes\":[\"reports:read\"]\x7d"

/-- The client in it. -/
def spaClient : OidcClient where
  id := "spa"
  secretHash := ""
  redirectURIs := ["https://spa.example/callback"]
  allowedScopes := ["reports:read"]

/-- Reads that configuration. -/
def spaUnmarshal (raw : String) : Option OidcClient :=
  if raw = spaConfig then some spaClient else none

/-- **Tokens for a client id alone.** The empty secret is presented for a client that has none, and
an access token with the client's scopes is issued; it was asked for no proof of anything. -/
theorem public_client_gets_tokens :
    let rows : ClientQuery := .ok [⟨"oidc", spaConfig, true⟩]
    (clientCredentials exampleConfig spaUnmarshal rows rows
        ⟨0, [], .ok (), .ok (), "t1", .done, ""⟩ (fun _ => none) "spa" "").1 =
      .ok (issueTokens exampleConfig 0 "spa" "spa" "reports:read" [] "") ∧
      ¬ ∃ client, clientStoreQuery spaUnmarshal rows "spa" = .ok client ∧
        client.Proven exampleConfig "" := by
  intro rows
  have hclients : registeredClients spaUnmarshal [⟨"oidc", spaConfig, true⟩] = [spaClient] := by
    simp [registeredClients, spaUnmarshal]
  have hget : clientStoreQuery spaUnmarshal rows "spa" = .ok spaClient :=
    clientStoreQuery_eq_ok_iff.mpr ⟨_, rfl, by rw [hclients]; rfl⟩
  constructor
  · have hauth : authenticateQueried exampleConfig spaUnmarshal rows "spa" "" = .ok spaClient :=
      authenticateQueried_eq_ok_iff.mpr ⟨hget, Or.inl rfl⟩
    simp only [clientCredentials, hauth, hget]
    rfl
  · rintro ⟨client, hfound, hhash, -⟩
    rw [hget] at hfound
    obtain rfl := Except.ok.inj hfound
    exact hhash rfl

/-! ### Over runs -/

/-- A call on a client's own behalf is made for a client with a secret hash. -/
def ConfidentialCall (s : OidcState) : OidcAction → Prop
  | .clientCredentials _ clientID _ =>
      ∀ client, clientStoreGet s.clients clientID = some client → client.secretHash ≠ ""
  | _ => True

/-- The secret presented for the grant proves the client. -/
def Grant.Proves (cfg : OidcConfig) (client : OidcClient) : Grant → Prop
  | .clientCredentials _ clientSecret => client.Proven cfg clientSecret
  | _ => True

/-- A call that is issuing has proved its client. -/
def Stage.Proves (cfg : OidcConfig) : Stage → Prop
  | .issuing client grant _ _ => grant.Proves cfg client
  | _ => True

/-- The invariant: clients that tokens are issued to have been proved. -/
structure ProvenInv (cfg : OidcConfig) (s : OidcState) : Prop where
  calls : ∀ id stage, s.calls id = some stage → stage.Proves cfg
  history : ∀ e, OidcEvent.issued e ∈ s.history → e.grant.Proves cfg e.client

section Runs

variable {cfg : OidcConfig} {s s' : OidcState}

/-- A call goes on. -/
theorem ProvenInv.goOn (h : ProvenInv cfg s) (id : Nat) {stage : Stage}
    (hstage : stage.Proves cfg) : ProvenInv cfg (s.goOn id stage) where
  calls := forall_update hstage h.calls
  history := h.history

/-- A call returns. -/
theorem ProvenInv.leave (h : ProvenInv cfg s) (id : Nat) : ProvenInv cfg (s.leave id) where
  calls := forall_update_none h.calls
  history := h.history

/-- An event is recorded; tokens in it must be for a client that has been proved. -/
theorem ProvenInv.record (h : ProvenInv cfg s) {e : OidcEvent}
    (he : ∀ i, e = .issued i → i.grant.Proves cfg i.client) : ProvenInv cfg (s.record e) where
  calls := h.calls
  history := forall_issued_record he h.history

/-- The rest of the state does not matter. -/
theorem ProvenInv.of_same {t : OidcState} (h : ProvenInv cfg s) (hcalls : t.calls = s.calls)
    (hhistory : t.history = s.history) : ProvenInv cfg t where
  calls := by
    rw [hcalls]
    exact h.calls
  history := by
    rw [hhistory]
    exact h.history

/-- **The step lemma.** -/
theorem provenInv_step {a : OidcAction} (h : ProvenInv cfg s) (hconfidential : ConfidentialCall s a)
    (hstep : oidcStep cfg s a = some s') : ProvenInv cfg s' := by
  have hsame : ∀ {t : OidcState}, t.calls = s.calls → t.history = s.history → ProvenInv cfg t :=
    h.of_same
  cases oidcStep_cases hstep with
  | refused => exact h
  | leave => exact h.leave _
  | @authorize id req code =>
      have hdrawn : ProvenInv cfg { s with drawn := code :: s.drawn } := hsame rfl rfl
      exact hdrawn.goOn id trivial
  | @storeCode id client req code =>
      have hrecord := (h.leave id).record (e := .authorized ⟨s.now, client, req, code⟩)
        fun i hi => by simp at hi
      exact hrecord.of_same rfl rfl
  | exchange => exact h.goOn _ trivial
  | getCode => exact h.goOn _ trivial
  | @rejectCode id ok client req =>
      have hdropped : ProvenInv cfg (s.dropCode req.code ok) := hsame rfl rfl
      exact hdropped.leave id
  | @deleteCode id ok client req record =>
      have hdropped : ProvenInv cfg (s.dropCode req.code ok) := hsame rfl rfl
      have hstage : (Stage.issuing client (.exchange req) record.userID record.scope).Proves cfg :=
        trivial
      exact (hdropped.goOn id hstage).record fun i hi => by simp at hi
  | refresh => exact h.goOn _ trivial
  | getRefresh => exact h.goOn _ trivial
  | @deleteRefresh id ok client req =>
      have hdropped : ProvenInv cfg (s.dropRefresh (hashToken cfg req.refreshToken) ok) :=
        hsame rfl rfl
      exact hdropped.goOn id trivial
  | @clientCredentials id clientID clientSecret client _ hauth =>
      obtain ⟨hget, hfits⟩ := authenticateClient_eq_ok_iff.mp hauth
      exact h.goOn id (hfits.proven (hconfidential client hget))
  | issueClient hcall =>
      refine (h.leave _).record fun i hi => ?_
      obtain rfl := OidcEvent.issued.inj hi
      exact h.calls _ _ hcall
  | @drawRefresh id roles refreshToken =>
      have hdigest : ProvenInv cfg
          { s with digests := hashToken cfg refreshToken :: s.digests } := hsame rfl rfl
      exact hdigest.leave id
  | @issue id roles refreshToken client grant userID scope hcall =>
      have hrecord := (h.leave id).record
        (e := .issued ⟨s.now, client, grant,
          issueTokens cfg s.now grant.clientID userID scope roles refreshToken⟩)
        fun i hi => by
          obtain rfl := OidcEvent.issued.inj hi
          exact h.calls id _ hcall
      exact hrecord.of_same rfl rfl
  | tick => exact hsame rfl rfl
  | setClients => exact hsame rfl rfl

/-- Before any call no client has got tokens. -/
theorem provenInv_start (now : Int) (clients : List OidcClient) :
    ProvenInv cfg (OidcState.start now clients) where
  calls := by simp [OidcState.start]
  history := by simp [OidcState.start]

/-- **Tokens of a client are issued for its secret**, in a run whose calls on a client's own behalf
are all made for clients with a secret hash. -/
theorem issued_to_proven {now : Int} {clients : List OidcClient} {as : List OidcAction}
    (hconfidential : Guarded (oidcStep cfg) ConfidentialCall (OidcState.start now clients) as)
    (hrun : run (oidcStep cfg) (OidcState.start now clients) as = some s) {e : Issued}
    (he : OidcEvent.issued e ∈ s.history) : e.grant.Proves cfg e.client :=
  (guarded_run_invariant (fun _ _ _ h hg hs => provenInv_step h hg hs)
    (provenInv_start now clients) hconfidential hrun).history e he

end Runs

end IdpForge
