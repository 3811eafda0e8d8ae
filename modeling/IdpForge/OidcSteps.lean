import IdpForge.OidcProvider

/-!
# What a Step of the Provider Can Do

The step function of the provider, read back as a relation with one constructor for each
thing a step does, and the conditions under which it does it. The invariants of the provider
are proved by cases on this relation.

## Main results

* `OidcStep`, `oidcStep_cases`: the inversion of `oidcStep`.
* `OidcStep.now_le`, `OidcStep.calls_of_ne`: time does not run backwards, and a step leaves
  the calls it does not belong to where they are.
-/

open PartialMap

namespace IdpForge

/-- The call an action belongs to. -/
def OidcAction.call : OidcAction → Option Nat
  | .authorize id _ _ => some id
  | .storeCode id _ => some id
  | .exchange id _ => some id
  | .getCode id _ => some id
  | .deleteCode id _ => some id
  | .refresh id _ => some id
  | .getRefresh id _ => some id
  | .deleteRefresh id _ => some id
  | .clientCredentials id _ _ => some id
  | .issue id _ _ _ _ => some id
  | .tick _ => none
  | .setClients _ => none

/-- The call has read a code or refresh token that it has not deleted yet. -/
def Stage.afterGet : Stage → Bool
  | .gotCode _ _ _ _ => true
  | .gotRefresh _ _ _ => true
  | _ => false

/-- The codes after a deletion, which may fail. -/
def OidcState.dropCode (s : OidcState) (code : String) (ok : Bool) : OidcState :=
  { s with codes := if ok then delete s.codes code else s.codes }

/-- The refresh tokens after a deletion, which may fail. -/
def OidcState.dropRefresh (s : OidcState) (key : String) (ok : Bool) : OidcState :=
  { s with refreshes := if ok then delete s.refreshes key else s.refreshes }

section Entries

variable {s : OidcState}

/-- What holds of the codes holds of those that a deletion leaves, whether it fails or not. -/
theorem forall_dropCode {P : String → Entry AuthCode → Prop} {code : String} {ok : Bool}
    (h : ∀ code' e, s.codes code' = some e → P code' e) :
    ∀ code' e, (s.dropCode code ok).codes code' = some e → P code' e := by
  cases ok with
  | true => exact forall_update_none h
  | false => exact h

/-- What holds of the refresh tokens holds of those that a deletion leaves, whether it fails or
not. -/
theorem forall_dropRefresh {P : String → Entry RefreshRecord → Prop} {key : String} {ok : Bool}
    (h : ∀ key' e, s.refreshes key' = some e → P key' e) :
    ∀ key' e, (s.dropRefresh key ok).refreshes key' = some e → P key' e := by
  cases ok with
  | true => exact forall_update_none h
  | false => exact h

/-- What holds of all issued tokens holds after another event, if it holds of the tokens in it. -/
theorem forall_issued_record {P : Issued → Prop} {e : OidcEvent}
    (hnew : ∀ i, e = .issued i → P i) (hold : ∀ i, OidcEvent.issued i ∈ s.history → P i) :
    ∀ i, OidcEvent.issued i ∈ (s.record e).history → P i := by
  intro i hi
  rcases List.mem_cons.mp hi with hlast | hbefore
  · exact hnew i hlast.symm
  · exact hold i hbefore

end Entries

/-- What a step of the provider can do. -/
inductive OidcStep (cfg : OidcConfig) (s : OidcState) : OidcAction → OidcState → Prop
  /-- A call is refused before it begins. -/
  | refused (a : OidcAction) : OidcStep cfg s a s
  /-- A call returns without a result. -/
  | leave {a : OidcAction} {id : Nat} {stage : Stage} (ha : a.call = some id)
      (hcall : s.calls id = some stage) (hstage : stage.afterGet = false) :
      OidcStep cfg s a (s.leave id)
  | authorize {id : Nat} {req : AuthorizeRequest} {code : String} {client : OidcClient}
      (hidle : s.calls id = none) (hcheck : authorizeCheck s.clients req = .ok client)
      (hnew : code ∉ s.drawn) :
      OidcStep cfg s (.authorize id req code)
        ({ s with drawn := code :: s.drawn }.goOn id (.storingCode client req code))
  | storeCode {id : Nat} {client : OidcClient} {req : AuthorizeRequest} {code : String}
      (hcall : s.calls id = some (.storingCode client req code)) :
      OidcStep cfg s (.storeCode id true)
        { (s.leave id).record (.authorized ⟨s.now, client, req, code⟩) with
          codes := set s.codes s.now code req.record 120 }
  | exchange {id : Nat} {req : ExchangeRequest} {client : OidcClient} (hidle : s.calls id = none)
      (hauth : authenticateClient cfg s.clients req.clientID req.clientSecret = .ok client) :
      OidcStep cfg s (.exchange id req) (s.goOn id (.exchanging client req))
  | getCode {id : Nat} {client : OidcClient} {req : ExchangeRequest} {record : AuthCode}
      (hcall : s.calls id = some (.exchanging client req))
      (hget : get s.codes s.now req.code = some record) :
      OidcStep cfg s (.getCode id true) (s.goOn id (.gotCode client req record s.now))
  /-- The code does not match the request; it is deleted all the same. -/
  | rejectCode {id : Nat} {ok : Bool} {client : OidcClient} {req : ExchangeRequest}
      {record : AuthCode} {gotAt : Int} {e : String}
      (hcall : s.calls id = some (.gotCode client req record gotAt))
      (hcheck : exchangeCheck cfg req record = .error e) :
      OidcStep cfg s (.deleteCode id ok) ((s.dropCode req.code ok).leave id)
  | deleteCode {id : Nat} {ok : Bool} {client : OidcClient} {req : ExchangeRequest}
      {record : AuthCode} {gotAt : Int}
      (hcall : s.calls id = some (.gotCode client req record gotAt))
      (hcheck : exchangeCheck cfg req record = .ok ()) :
      OidcStep cfg s (.deleteCode id ok)
        (((s.dropCode req.code ok).goOn id
          (.issuing client (.exchange req) record.userID record.scope)).record
            (.exchanged ⟨gotAt, client, req⟩))
  | refresh {id : Nat} {req : RefreshRequest} {client : OidcClient} (hidle : s.calls id = none)
      (hauth : authenticateClient cfg s.clients req.clientID req.clientSecret = .ok client) :
      OidcStep cfg s (.refresh id req) (s.goOn id (.refreshing client req))
  | getRefresh {id : Nat} {client : OidcClient} {req : RefreshRequest} {record : RefreshRecord}
      (hcall : s.calls id = some (.refreshing client req))
      (hget : get s.refreshes s.now (hashToken cfg req.refreshToken) = some record)
      (hcheck : refreshCheck req record = .ok ()) :
      OidcStep cfg s (.getRefresh id true) (s.goOn id (.gotRefresh client req record))
  | deleteRefresh {id : Nat} {ok : Bool} {client : OidcClient} {req : RefreshRequest}
      {record : RefreshRecord} (hcall : s.calls id = some (.gotRefresh client req record)) :
      OidcStep cfg s (.deleteRefresh id ok)
        ((s.dropRefresh (hashToken cfg req.refreshToken) ok).goOn id
          (.issuing client (.refresh req) record.userID record.scope))
  | clientCredentials {id : Nat} {clientID clientSecret : String} {client : OidcClient}
      (hidle : s.calls id = none)
      (hauth : authenticateClient cfg s.clients clientID clientSecret = .ok client) :
      OidcStep cfg s (.clientCredentials id clientID clientSecret)
        (s.goOn id (.issuing client (.clientCredentials clientID clientSecret) clientID
          (" ".intercalate client.allowedScopes)))
  /-- Tokens of a client for itself. -/
  | issueClient {id : Nat} {roles : List String} {refreshToken : String} {stored : Bool}
      {client : OidcClient} {grant : Grant} {userID scope : String}
      (hcall : s.calls id = some (.issuing client grant userID scope))
      (hgrant : grant.withRefresh = false) :
      OidcStep cfg s (.issue id roles refreshToken true stored)
        ((s.leave id).record (.issued ⟨s.now, client, grant,
          issueTokens cfg s.now grant.clientID userID scope roles ""⟩))
  /-- The new refresh token is drawn but cannot be stored. -/
  | drawRefresh {id : Nat} {roles : List String} {refreshToken : String}
      {client : OidcClient} {grant : Grant} {userID scope : String}
      (hcall : s.calls id = some (.issuing client grant userID scope)) :
      OidcStep cfg s (.issue id roles refreshToken true false)
        ({ s with digests := hashToken cfg refreshToken :: s.digests }.leave id)
  | issue {id : Nat} {roles : List String} {refreshToken : String} {client : OidcClient}
      {grant : Grant} {userID scope : String}
      (hcall : s.calls id = some (.issuing client grant userID scope))
      (hgrant : grant.withRefresh = true) (hnew : hashToken cfg refreshToken ∉ s.digests) :
      OidcStep cfg s (.issue id roles refreshToken true true)
        { ({ s with digests := hashToken cfg refreshToken :: s.digests }.leave id).record
            (.issued ⟨s.now, client, grant,
              issueTokens cfg s.now grant.clientID userID scope roles refreshToken⟩) with
          refreshes := set s.refreshes s.now (hashToken cfg refreshToken)
            ⟨grant.clientID, userID, scope⟩ cfg.refreshTokenTTL }
  | tick (d : Nat) : OidcStep cfg s (.tick d) { s with now := s.now + d }
  | setClients (clients : List OidcClient) :
      OidcStep cfg s (.setClients clients) { s with clients := clients }

section Cases

variable {cfg : OidcConfig} {s s' : OidcState} {id : Nat}

/-- The beginning of a call is refused, or the client is authenticated. -/
theorem beginStep_cases {check : Except String OidcClient} {stage : OidcClient → Stage}
    (h : beginStep s id check stage = some s') :
    s' = s ∨ ∃ client, s.calls id = none ∧ check = .ok client ∧ s' = s.goOn id (stage client) := by
  rw [beginStep.eq_def] at h
  split at h
  · simp at h
  · exact Or.inl (Option.some.inj h).symm
  · next client hidle => exact Or.inr ⟨client, hidle, rfl, (Option.some.inj h).symm⟩

/-- The beginning of `Authorize`. -/
theorem authorizeStep_cases {req : AuthorizeRequest} {code : String}
    (h : authorizeStep s id req code = some s') : OidcStep cfg s (.authorize id req code) s' := by
  rw [authorizeStep.eq_def] at h
  split at h
  · simp at h
  · exact Option.some.inj h ▸ .refused _
  · next client hidle hcheck =>
      split at h
      · simp at h
      · next hnew => exact Option.some.inj h ▸ .authorize hidle hcheck hnew

/-- The `Set` of `Authorize`. -/
theorem storeCodeStep_cases {ok : Bool} (h : storeCodeStep s id ok = some s') :
    OidcStep cfg s (.storeCode id ok) s' := by
  rw [storeCodeStep.eq_def] at h
  split at h
  · next client req code hcall =>
      obtain rfl := Option.some.inj h
      cases ok with
      | true => exact .storeCode hcall
      | false => exact .leave rfl hcall rfl
  · simp at h

/-- The `Get` of `ExchangeCode`. -/
theorem getCodeStep_cases {ok : Bool} (h : getCodeStep s id ok = some s') :
    OidcStep cfg s (.getCode id ok) s' := by
  rw [getCodeStep.eq_def] at h
  split at h
  · next client req hcall =>
      obtain rfl := Option.some.inj h
      split
      · next record hget => exact .getCode hcall hget
      · exact .leave rfl hcall rfl
  · simp at h

/-- The `Delete` of `ExchangeCode`. -/
theorem deleteCodeStep_cases {ok : Bool} (h : deleteCodeStep cfg s id ok = some s') :
    OidcStep cfg s (.deleteCode id ok) s' := by
  rw [deleteCodeStep.eq_def] at h
  split at h
  · next client req record gotAt hcall =>
      obtain rfl := Option.some.inj h
      split
      · next e hcheck => exact .rejectCode hcall hcheck
      · next u hcheck => exact .deleteCode hcall hcheck
  · simp at h

/-- The `Get` of `RefreshTokens`. -/
theorem getRefreshStep_cases {ok : Bool} (h : getRefreshStep cfg s id ok = some s') :
    OidcStep cfg s (.getRefresh id ok) s' := by
  rw [getRefreshStep.eq_def] at h
  split at h
  · next client req hcall =>
      obtain rfl := Option.some.inj h
      split
      · next record hget =>
          split
          · exact .leave rfl hcall rfl
          · next u hcheck => exact .getRefresh hcall hget hcheck
      · exact .leave rfl hcall rfl
  · simp at h

/-- The `Delete` of `RefreshTokens`. -/
theorem deleteRefreshStep_cases {ok : Bool} (h : deleteRefreshStep cfg s id ok = some s') :
    OidcStep cfg s (.deleteRefresh id ok) s' := by
  rw [deleteRefreshStep.eq_def] at h
  split at h
  · next client req record hcall => exact Option.some.inj h ▸ .deleteRefresh hcall
  · simp at h

/-- `issueTokens`. -/
theorem issueStep_cases {roles : List String} {refreshToken : String} {signed stored : Bool}
    (h : issueStep cfg s id roles refreshToken signed stored = some s') :
    OidcStep cfg s (.issue id roles refreshToken signed stored) s' := by
  rw [issueStep.eq_def] at h
  split at h
  · next client grant userID scope hcall =>
      dsimp only at h
      cases signed with
      | false => exact Option.some.inj h ▸ .leave rfl hcall rfl
      | true =>
          rw [if_neg (by simp)] at h
          split at h
          · next hgrant => exact Option.some.inj h ▸ .issueClient hcall (by simpa using hgrant)
          · next hgrant =>
              split at h
              · simp at h
              · next hnew =>
                  obtain rfl := Option.some.inj h
                  cases stored with
                  | false => exact .drawRefresh hcall
                  | true => exact .issue hcall (by simpa using hgrant) hnew
  · simp at h

/-- **The inversion of the step function.** -/
theorem oidcStep_cases {a : OidcAction} (h : oidcStep cfg s a = some s') :
    OidcStep cfg s a s' := by
  cases a with
  | authorize id req code => exact authorizeStep_cases h
  | storeCode id ok => exact storeCodeStep_cases h
  | exchange id req =>
      rcases beginStep_cases h with rfl | ⟨client, hidle, hauth, rfl⟩
      · exact .refused _
      · exact .exchange hidle hauth
  | getCode id ok => exact getCodeStep_cases h
  | deleteCode id ok => exact deleteCodeStep_cases h
  | refresh id req =>
      rcases beginStep_cases h with rfl | ⟨client, hidle, hauth, rfl⟩
      · exact .refused _
      · exact .refresh hidle hauth
  | getRefresh id ok => exact getRefreshStep_cases h
  | deleteRefresh id ok => exact deleteRefreshStep_cases h
  | clientCredentials id clientID clientSecret =>
      rcases beginStep_cases h with rfl | ⟨client, hidle, hauth, rfl⟩
      · exact .refused _
      · exact .clientCredentials hidle hauth
  | issue id roles refreshToken signed stored => exact issueStep_cases h
  | tick d => exact Option.some.inj h ▸ .tick d
  | setClients clients => exact Option.some.inj h ▸ .setClients clients

end Cases

namespace OidcStep

variable {cfg : OidcConfig} {s s' : OidcState} {a : OidcAction}

/-- Time does not run backwards. -/
theorem now_le (h : OidcStep cfg s a s') : s.now ≤ s'.now := by
  cases h with
  | tick d =>
      dsimp only
      omega
  | _ => exact Int.le_refl _

/-- A step leaves the calls it does not belong to where they are. -/
theorem calls_of_ne (h : OidcStep cfg s a s') {id : Nat} (hne : a.call ≠ some id) :
    s'.calls id = s.calls id := by
  have hupdate : ∀ {id' : Nat} {call? : Option Stage}, a.call = some id' →
      Function.update s.calls id' call? id = s.calls id := by
    intro id' call? ha
    refine Function.update_of_ne ?_ ..
    rintro rfl
    exact hne ha
  cases h with
  | refused => rfl
  | leave ha => exact hupdate ha
  | tick => rfl
  | setClients => rfl
  | _ => exact hupdate rfl

end OidcStep

end IdpForge
