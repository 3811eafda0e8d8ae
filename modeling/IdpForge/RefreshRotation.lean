import IdpForge.OidcCalls

/-!
# Rotating a Refresh Token

`RefreshTokens` deletes the record of the presented token ("rotate on use") and then has
`issueTokens` sign two tokens and store the record of a new one. Each of these steps can fail, and
then the call returns an error. The old record is gone by that time, and no new token is handed
out.

## Main results

* `refresh_failure_harmless_iff`: a failed call leaves the presented token as redeemable as it was
  exactly when nothing fails after a deletion that took effect.
* `failed_refresh_burns_token`: a token that is lost because the new one could not be stored.
-/

open PartialMap

namespace IdpForge

section Rotation

variable (cfg : OidcConfig) (unmarshal : String → Option OidcClient) (io : RefreshContext)
  (refreshes : Expiring String RefreshRecord) (req : RefreshRequest)

/-- The cache has a record for the refresh token at the time. -/
def Redeemable (t : Int) (refreshToken : String) : Prop :=
  ∃ record, get refreshes t (hashToken cfg refreshToken) = some record

/-- The call gets as far as the deletion: the client is known and its secret fits, and the record
of the token is read and is the client's. -/
def RefreshContext.Accepts : Prop :=
  (∃ client, clientStoreQuery unmarshal io.clients req.clientID = .ok client ∧
      client.SecretFits cfg req.clientSecret) ∧
    io.read = .ok () ∧
      ∃ record, get refreshes io.readAt (hashToken cfg req.refreshToken) = some record ∧
        record.clientID = req.clientID

/-- The cached refresh tokens after the deletion. -/
def RefreshContext.afterDelete : Expiring String RefreshRecord :=
  if io.deletion.executes then delete refreshes (hashToken cfg req.refreshToken) else refreshes

variable {cfg unmarshal io refreshes req}

/-- Whether a token is redeemable depends on its own record. -/
theorem redeemable_congr {refreshes' : Expiring String RefreshRecord} {token : String}
    (hsame : refreshes' (hashToken cfg token) = refreshes (hashToken cfg token)) (t : Int) :
    Redeemable cfg refreshes' t token ↔ Redeemable cfg refreshes t token := by
  simp only [Redeemable, PartialMap.get, hsame]

/-- A call that is refused leaves the cache alone. -/
theorem refreshTokens_of_not_accepts (hrefused : ¬ io.Accepts cfg unmarshal refreshes req) :
    ∃ e, refreshTokens cfg unmarshal io refreshes req = (.error e, refreshes) := by
  rw [refreshTokens]
  cases hauth : authenticateQueried cfg unmarshal io.clients req.clientID req.clientSecret with
  | error e => exact ⟨e, rfl⟩
  | ok client =>
      cases hread : io.read with
      | error e => exact ⟨e, rfl⟩
      | ok =>
          dsimp only
          cases hget : get refreshes io.readAt (hashToken cfg req.refreshToken) with
          | none => exact ⟨_, rfl⟩
          | some record =>
              dsimp only
              cases hcheck : refreshCheck req record with
              | error e => exact ⟨e, rfl⟩
              | ok =>
                  have hclient := authenticateQueried_eq_ok_iff.mp hauth
                  exact absurd ⟨⟨client, hclient⟩, hread, record, hget,
                    refreshCheck_eq_ok_iff.mp hcheck⟩ hrefused

/-- A call that is not goes on to issue tokens. -/
theorem refreshTokens_of_accepts (haccepts : io.Accepts cfg unmarshal refreshes req) :
    ∃ userID scope, refreshTokens cfg unmarshal io refreshes req =
      issueTokensCall cfg io.issue (io.afterDelete cfg refreshes req) req.clientID userID scope
        true := by
  obtain ⟨⟨client, hclient⟩, hread, record, hget, hsame⟩ := haccepts
  have hauth := authenticateQueried_eq_ok_iff.mpr hclient
  have hcheck := refreshCheck_eq_ok_iff.mpr hsame
  refine ⟨record.userID, record.scope, ?_⟩
  simp only [refreshTokens, hauth, hread, hget, hcheck]
  rfl

/-- What a call that is not refused leaves of the presented token: nothing when the deletion took
effect, else what there was. -/
theorem refreshTokens_presented (haccepts : io.Accepts cfg unmarshal refreshes req)
    (hfresh : hashToken cfg io.issue.refreshToken ≠ hashToken cfg req.refreshToken) (t : Int) :
    Redeemable cfg (refreshTokens cfg unmarshal io refreshes req).2 t req.refreshToken ↔
      io.deletion.executes = false ∧ Redeemable cfg refreshes t req.refreshToken := by
  obtain ⟨userID, scope, hcall⟩ := refreshTokens_of_accepts haccepts
  rw [hcall, redeemable_congr (issueTokensCall_other hfresh.symm) t,
    RefreshContext.afterDelete]
  cases io.deletion.executes with
  | false => simp
  | true =>
      have hgone : ¬ Redeemable cfg (delete refreshes (hashToken cfg req.refreshToken)) t
          req.refreshToken := by
        rintro ⟨record, hget⟩
        exact (get_delete_iff.mp hget).1 rfl
      simpa using hgone

/-- It returns an error when signing or storing fails. -/
theorem refreshTokens_error_iff (haccepts : io.Accepts cfg unmarshal refreshes req) :
    (∃ e, (refreshTokens cfg unmarshal io refreshes req).1 = .error e) ↔
      ¬ (io.issue.Signs ∧ io.issue.storing = .done) := by
  obtain ⟨userID, scope, hcall⟩ := refreshTokens_of_accepts haccepts
  rw [hcall]
  exact issueTokensCall_true_error_iff

/-- **A failed refresh does not burn the token** exactly when, once the token's record has been
deleted, both tokens are signed and the record of the new one is stored. -/
theorem refresh_failure_harmless_iff (cfg : OidcConfig) (unmarshal : String → Option OidcClient)
    (io : RefreshContext) (refreshes : Expiring String RefreshRecord) (req : RefreshRequest)
    (hfresh : hashToken cfg io.issue.refreshToken ≠ hashToken cfg req.refreshToken) :
    let call := refreshTokens cfg unmarshal io refreshes req
    (∀ e, call.1 = .error e → ∀ t,
        Redeemable cfg call.2 t req.refreshToken ↔ Redeemable cfg refreshes t req.refreshToken) ↔
      (io.Accepts cfg unmarshal refreshes req → io.deletion.executes = true →
        io.issue.Signs ∧ io.issue.storing = .done) := by
  intro call
  by_cases haccepts : io.Accepts cfg unmarshal refreshes req
  · have hpresented := refreshTokens_presented haccepts hfresh
    constructor
    · intro hharmless _ hdeleted
      by_contra hfails
      obtain ⟨e, he⟩ := (refreshTokens_error_iff haccepts).mpr hfails
      obtain ⟨-, -, record, hget, -⟩ := haccepts
      -- the record that the call read is gone after it
      have hkept := (hharmless e he io.readAt).mpr ⟨record, hget⟩
      have hdeletion := ((hpresented io.readAt).mp hkept).1
      rw [hdeleted] at hdeletion
      exact absurd hdeletion (by simp)
    · intro hcondition e he t
      rw [hpresented t]
      have hfails := (refreshTokens_error_iff haccepts).mp ⟨e, he⟩
      have hdeletion : io.deletion.executes = false := by
        cases hexecutes : io.deletion.executes with
        | false => rfl
        | true => exact absurd (hcondition haccepts hexecutes) hfails
      simp [hdeletion]
  · obtain ⟨e, hrefused⟩ := refreshTokens_of_not_accepts haccepts
    have hsame : call.2 = refreshes := congrArg Prod.snd hrefused
    refine ⟨fun _ h => absurd h haccepts, fun _ _ _ t => ?_⟩
    rw [hsame]

end Rotation

/-! ### A token that is lost -/

/-- The configuration of the example client. -/
def appConfig : String :=
  "\x7b\"client_id\":\"app\",\"client_secret_hash\":\"" ++ exampleClient.secretHash ++
    "\",\"redirect_uris\":[\"https://app.example/callback\"],\"allowed_scopes\":" ++
    "[\"openid\"]\x7d"

/-- Reads that configuration. -/
def appUnmarshal (raw : String) : Option OidcClient :=
  if raw = appConfig then some exampleClient else none

/-- The record of the refresh token `t1`. -/
def exampleRefreshes : Expiring String RefreshRecord :=
  set (fun _ => none) 60 (exampleDigest "t1") ⟨"app", "u", "openid"⟩ 2592000

/-- A call in which nothing fails but, perhaps, the storing of the new token. -/
def exampleRotation (storing : StatementEnd) : RefreshContext where
  clients := .ok [⟨"oidc", appConfig, true⟩]
  readAt := 660
  read := .ok ()
  deletion := .done
  issue := ⟨660, [], .ok (), .ok (), "t2", storing, "connection refused"⟩

/-- The example client is accepted with the token `t1`. -/
theorem exampleRotation_accepts (storing : StatementEnd) :
    (exampleRotation storing).Accepts exampleConfig appUnmarshal exampleRefreshes
      (exampleRefresh "t1") := by
  have hclients : registeredClients appUnmarshal [⟨"oidc", appConfig, true⟩] = [exampleClient] := by
    simp [registeredClients, appUnmarshal]
  refine ⟨⟨exampleClient, clientStoreQuery_eq_ok_iff.mpr ⟨_, rfl, ?_⟩, Or.inr rfl⟩, rfl,
    ⟨"app", "u", "openid"⟩, ?_, rfl⟩
  · rw [hclients]
    rfl
  · have htime : (660 : Int) ≤ 60 + 2592000 := by omega
    exact (get_set_iff (by decide)).mpr (Or.inl ⟨rfl, rfl, htime⟩)

/-- When the new token is stored, there is no error and nothing to lose. -/
theorem refresh_failure_harmless_iff_example :
    let call := refreshTokens exampleConfig appUnmarshal (exampleRotation .done) exampleRefreshes
      (exampleRefresh "t1")
    ∀ e, call.1 = .error e → ∀ t,
      Redeemable exampleConfig call.2 t "t1" ↔ Redeemable exampleConfig exampleRefreshes t "t1" :=
  (refresh_failure_harmless_iff exampleConfig appUnmarshal (exampleRotation .done) exampleRefreshes
    (exampleRefresh "t1") (by decide)).mpr fun _ _ => ⟨⟨rfl, rfl⟩, rfl⟩

/-- **A burnt token.** The cache refuses the record of the new token: the call returns the error,
and the token it was given, redeemable before, is not any more. -/
theorem failed_refresh_burns_token :
    let call := refreshTokens exampleConfig appUnmarshal (exampleRotation .failed)
      exampleRefreshes (exampleRefresh "t1")
    call.1 = .error "connection refused" ∧ Redeemable exampleConfig exampleRefreshes 660 "t1" ∧
      ¬ Redeemable exampleConfig call.2 660 "t1" := by
  intro call
  have haccepts := exampleRotation_accepts .failed
  have hpresented := refreshTokens_presented haccepts (by decide) 660
  obtain ⟨userID, scope, hcall⟩ := refreshTokens_of_accepts haccepts
  obtain ⟨-, -, record, hget, -⟩ := haccepts
  refine ⟨?_, ⟨record, hget⟩, fun hredeemable => ?_⟩
  · change (refreshTokens _ _ _ _ _).1 = _
    rw [hcall]
    rfl
  · have hdeletion := (hpresented.mp hredeemable).1
    exact absurd hdeletion (by decide)

end IdpForge
