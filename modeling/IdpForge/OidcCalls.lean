import IdpForge.LeaderLease
import IdpForge.OidcSteps

/-!
# Whole Calls of the Token Endpoint

`ClientCredentials` and `RefreshTokens` from beginning to end, with all that can fail on the way:
the queries of `ClientStore.Get`, the cache operations and the two signings of `issueTokens`. A
context says how each of them ends. The applications are rows whose configuration is text; what
`json.Unmarshal` makes of it is a parameter.

The step function of the provider has the same calls one operation at a time and takes the
registered clients as they are. A whole call is a run of its steps.

## Main results

* `authenticateQueried_eq_ok_iff`: whom the authentication lets through.
* `clientCredentials_carriedOut`, `refreshTokens_carriedOut`: the calls as runs of the step
  function, with the same answer and the same refresh tokens at the end.
-/

open PartialMap TransitionSystem

namespace IdpForge

/-- A row of `applications`, the columns `ClientStore.Get` reads. -/
structure Application where
  protocol : String
  config : String
  enabled : Bool
  deriving DecidableEq, Repr

/-- What the query of `ClientStore.Get` goes through, or its error. -/
abbrev ClientQuery := Except String (List Application)

/-- The clients among the rows. A configuration that cannot be read is skipped. -/
def registeredClients (unmarshal : String → Option OidcClient) (rows : List Application) :
    List OidcClient :=
  (rows.filter fun row => row.protocol = "oidc" && row.enabled).filterMap fun row =>
    unmarshal row.config

/-- `ClientStore.Get` with its query. -/
def clientStoreQuery (unmarshal : String → Option OidcClient) (answer : ClientQuery)
    (clientID : String) : Except String OidcClient :=
  match answer with
  | .error e => .error e
  | .ok rows =>
      match clientStoreGet (registeredClients unmarshal rows) clientID with
      | none => .error "sql: no rows in result set"
      | some client => .ok client

/-- What `issueTokens` meets: the clock, the roles of the user, the endings of the two signings
and of the `Set`, and the refresh token it draws. -/
structure IssueContext where
  now : Int
  roles : List String
  signAccess : Except String Unit
  signID : Except String Unit
  refreshToken : String
  storing : StatementEnd
  /-- The error of a `Set` that does not return well. -/
  storeError : String

/-- Both tokens are signed. -/
def IssueContext.Signs (io : IssueContext) : Prop :=
  io.signAccess = .ok () ∧ io.signID = .ok ()

/-- What `RefreshTokens` meets: the answer to the client's query, the time and the error of its
`Get`, the ending of its `Delete`, and what issuing meets. -/
structure RefreshContext where
  clients : ClientQuery
  readAt : Int
  read : Except String Unit
  deletion : StatementEnd
  issue : IssueContext

section Calls

variable (cfg : OidcConfig) (unmarshal : String → Option OidcClient)

/-- `authenticateClient` with its query. -/
def authenticateQueried (answer : ClientQuery) (clientID clientSecret : String) :
    Except String OidcClient :=
  match answer with
  | .error _ => .error "unknown client"
  | .ok rows => authenticateClient cfg (registeredClients unmarshal rows) clientID clientSecret

/-- `issueTokens` on the cached refresh tokens. -/
def issueTokensCall (io : IssueContext) (refreshes : Expiring String RefreshRecord)
    (clientID userID scope : String) (withRefresh : Bool) :
    Except String TokenResponse × Expiring String RefreshRecord :=
  match io.signAccess with
  | .error e => (.error e, refreshes)
  | .ok () =>
      match io.signID with
      | .error e => (.error e, refreshes)
      | .ok () =>
          if withRefresh then
            let stored := set refreshes io.now (hashToken cfg io.refreshToken)
              ⟨clientID, userID, scope⟩ cfg.refreshTokenTTL
            match io.storing with
            | .failed => (.error io.storeError, refreshes)
            | .lost => (.error io.storeError, stored)
            | .done =>
                (.ok (issueTokens cfg io.now clientID userID scope io.roles io.refreshToken),
                  stored)
          else (.ok (issueTokens cfg io.now clientID userID scope io.roles ""), refreshes)

/-- `ClientCredentials`. The store is queried twice. -/
def clientCredentials (answer reread : ClientQuery) (io : IssueContext)
    (refreshes : Expiring String RefreshRecord) (clientID clientSecret : String) :
    Except String TokenResponse × Expiring String RefreshRecord :=
  match authenticateQueried cfg unmarshal answer clientID clientSecret with
  | .error e => (.error e, refreshes)
  | .ok _ =>
      match clientStoreQuery unmarshal reread clientID with
      | .error _ => (.error "unknown client", refreshes)
      | .ok client =>
          issueTokensCall cfg io refreshes clientID clientID (" ".intercalate client.allowedScopes)
            false

/-- `RefreshTokens`. The error of the `Delete` is dropped. -/
def refreshTokens (io : RefreshContext) (refreshes : Expiring String RefreshRecord)
    (req : RefreshRequest) : Except String TokenResponse × Expiring String RefreshRecord :=
  match authenticateQueried cfg unmarshal io.clients req.clientID req.clientSecret with
  | .error e => (.error e, refreshes)
  | .ok _ =>
      match io.read with
      | .error e => (.error e, refreshes)
      | .ok () =>
          let key := hashToken cfg req.refreshToken
          match get refreshes io.readAt key with
          | none => (.error "invalid or expired refresh token", refreshes)
          | some record =>
              match refreshCheck req record with
              | .error e => (.error e, refreshes)
              | .ok () =>
                  let refreshes' := if io.deletion.executes then delete refreshes key else refreshes
                  issueTokensCall cfg io.issue refreshes' req.clientID record.userID record.scope
                    true

end Calls

section Specs

variable {cfg : OidcConfig} {unmarshal : String → Option OidcClient}
  {refreshes : Expiring String RefreshRecord} {clientID userID scope : String}

/-- The query finds a client among the rows it goes through. -/
theorem clientStoreQuery_eq_ok_iff {answer : ClientQuery} {client : OidcClient} :
    clientStoreQuery unmarshal answer clientID = .ok client ↔
      ∃ rows, answer = .ok rows ∧
        clientStoreGet (registeredClients unmarshal rows) clientID = some client := by
  cases answer with
  | error e => simp [clientStoreQuery]
  | ok rows =>
      rw [clientStoreQuery]
      cases hget : clientStoreGet (registeredClients unmarshal rows) clientID <;> simp [hget]

/-- **The authentication** lets through who presents a fitting secret for the client that the query
finds. -/
theorem authenticateQueried_eq_ok_iff {answer : ClientQuery} {clientSecret : String}
    {client : OidcClient} :
    authenticateQueried cfg unmarshal answer clientID clientSecret = .ok client ↔
      clientStoreQuery unmarshal answer clientID = .ok client ∧
        client.SecretFits cfg clientSecret := by
  rw [clientStoreQuery_eq_ok_iff]
  cases answer with
  | error e => simp [authenticateQueried]
  | ok rows => simp [authenticateQueried, authenticateClient_eq_ok_iff]

/-- Without a refresh token, tokens are issued when both are signed. -/
theorem issueTokensCall_false_eq_ok_iff {io : IssueContext} {resp : TokenResponse} :
    (issueTokensCall cfg io refreshes clientID userID scope false).1 = .ok resp ↔
      io.Signs ∧ resp = issueTokens cfg io.now clientID userID scope io.roles "" := by
  rw [issueTokensCall, IssueContext.Signs]
  cases io.signAccess <;> cases io.signID <;> simp [eq_comm]

/-- With one, there is an error unless it is stored as well. -/
theorem issueTokensCall_true_error_iff {io : IssueContext} :
    (∃ e, (issueTokensCall cfg io refreshes clientID userID scope true).1 = .error e) ↔
      ¬ (io.Signs ∧ io.storing = .done) := by
  rw [issueTokensCall, IssueContext.Signs]
  cases io.signAccess <;> cases io.signID <;> cases io.storing <;> simp

/-- Issuing touches no refresh token but the one it draws. -/
theorem issueTokensCall_other {io : IssueContext} {withRefresh : Bool} {key : String}
    (hkey : key ≠ hashToken cfg io.refreshToken) :
    (issueTokensCall cfg io refreshes clientID userID scope withRefresh).2 key =
      refreshes key := by
  have hset : ∀ {v : RefreshRecord} {ttl : Int},
      set refreshes io.now (hashToken cfg io.refreshToken) v ttl key = refreshes key :=
    Function.update_of_ne hkey _ _
  rw [issueTokensCall]
  cases io.signAccess with
  | error e => rfl
  | ok =>
      cases io.signID with
      | error e => rfl
      | ok =>
          cases withRefresh with
          | false => rfl
          | true =>
              cases io.storing with
              | failed => rfl
              | lost => exact hset
              | done => exact hset

end Specs

/-! ### The calls as runs -/

/-- What a call that has come to its end leaves in the history. -/
def Returned (grant : Grant) (s s' : OidcState) : Except String TokenResponse → Prop
  | .ok resp => ∃ client, s'.history = .issued ⟨s.now, client, grant, resp⟩ :: s.history
  | .error _ => s'.history = s.history

/-- Steps of the call itself lead to its end, with the answer and the refresh tokens of `call`. -/
def CarriedOut (cfg : OidcConfig) (id : Nat) (grant : Grant) (s : OidcState)
    (call : Except String TokenResponse × Expiring String RefreshRecord) : Prop :=
  ∃ as s', run (oidcStep cfg) s as = some s' ∧ (∀ a ∈ as, a.call = some id) ∧
    s'.calls id = none ∧ s'.refreshes = call.2 ∧ Returned grant s s' call.1

section Runs

variable {cfg : OidcConfig} {unmarshal : String → Option OidcClient} {s t : OidcState} {id : Nat}
  {rows : List Application} {grant : Grant}
  {call : Except String TokenResponse × Expiring String RefreshRecord}

/-- One more step at the beginning, which records nothing. -/
theorem CarriedOut.cons {a : OidcAction} (hrest : CarriedOut cfg id grant t call)
    (hstep : oidcStep cfg s a = some t) (ha : a.call = some id)
    (hsame : t.now = s.now ∧ t.history = s.history) : CarriedOut cfg id grant s call := by
  obtain ⟨as, s', hrun, hown, hidle, hrefreshes, hreturned⟩ := hrest
  refine ⟨a :: as, s', (run_cons_eq_some _).mpr ⟨t, hstep, hrun⟩,
    List.forall_mem_cons.mpr ⟨ha, hown⟩, hidle, hrefreshes, ?_⟩
  cases hcall : call.1 with
  | error e =>
      rw [hcall] at hreturned
      exact hreturned.trans hsame.2
  | ok resp =>
      rw [hcall] at hreturned
      obtain ⟨client, hhistory⟩ := hreturned
      rw [hsame.1, hsame.2] at hhistory
      exact ⟨client, hhistory⟩

/-- A call that is over with an error. -/
theorem carriedOut_error (hidle : s.calls id = none) (e : String) :
    CarriedOut cfg id grant s (.error e, s.refreshes) :=
  ⟨[], s, rfl, by simp, hidle, rfl, rfl⟩

/-- `issueTokens` is the last step of a call. -/
theorem carriedOut_issueTokensCall {io : IssueContext} {client : OidcClient}
    {userID scope : String} (hcall : s.calls id = some (.issuing client grant userID scope))
    (hnow : io.now = s.now) (hstoring : io.storing ≠ .lost)
    (hnew : hashToken cfg io.refreshToken ∉ s.digests) :
    CarriedOut cfg id grant s
      (issueTokensCall cfg io s.refreshes grant.clientID userID scope grant.withRefresh) := by
  have hissue : ∀ signed stored, oidcStep cfg s (.issue id io.roles io.refreshToken signed stored) =
      issueStep cfg s id io.roles io.refreshToken signed stored := fun _ _ => rfl
  have hlast {signed stored : Bool} {s' : OidcState} :
      oidcStep cfg s (.issue id io.roles io.refreshToken signed stored) = some s' →
        run (oidcStep cfg) s [.issue id io.roles io.refreshToken signed stored] = some s' :=
    fun hstep => (run_cons_eq_some _).mpr ⟨s', hstep, rfl⟩
  have hover : (s.leave id).calls id = none := Function.update_self ..
  have hunsigned : oidcStep cfg s (.issue id io.roles io.refreshToken false false) =
      some (s.leave id) := by
    simp [hissue, issueStep, hcall]
  rw [issueTokensCall]
  cases io.signAccess with
  | error e => exact ⟨_, _, hlast hunsigned, by simp [OidcAction.call], hover, rfl, rfl⟩
  | ok =>
      cases io.signID with
      | error e => exact ⟨_, _, hlast hunsigned, by simp [OidcAction.call], hover, rfl, rfl⟩
      | ok =>
          cases hrefresh : grant.withRefresh with
          | false =>
              have hstep : oidcStep cfg s (.issue id io.roles io.refreshToken true false) =
                  some ((s.leave id).record (.issued ⟨s.now, client, grant,
                    issueTokens cfg s.now grant.clientID userID scope io.roles ""⟩)) := by
                simp [hissue, issueStep, hcall, hrefresh]
              refine ⟨_, _, hlast hstep, by simp [OidcAction.call], hover, rfl, client, ?_⟩
              rw [hnow]
              rfl
          | true =>
              let drawn := { s with digests := hashToken cfg io.refreshToken :: s.digests }.leave id
              cases hend : io.storing with
              | lost => exact absurd hend hstoring
              | failed =>
                  have hstep : oidcStep cfg s (.issue id io.roles io.refreshToken true false) =
                      some drawn := by
                    simp [hissue, issueStep, hcall, hrefresh, hnew, drawn]
                  exact ⟨_, _, hlast hstep, by simp [OidcAction.call], hover, rfl, rfl⟩
              | done =>
                  have hstep : oidcStep cfg s (.issue id io.roles io.refreshToken true true) =
                      some { drawn.record (.issued ⟨s.now, client, grant,
                          issueTokens cfg s.now grant.clientID userID scope io.roles
                            io.refreshToken⟩) with
                        refreshes := set s.refreshes s.now (hashToken cfg io.refreshToken)
                          ⟨grant.clientID, userID, scope⟩ cfg.refreshTokenTTL } := by
                    simp [hissue, issueStep, hcall, hrefresh, hnew, drawn]
                  rw [hnow]
                  exact ⟨_, _, hlast hstep, by simp [OidcAction.call], hover, rfl, client, rfl⟩

/-- **`ClientCredentials` is a run** of the step function, when both queries find the clients of
the state. -/
theorem clientCredentials_carriedOut {io : IssueContext} (clientID clientSecret : String)
    (hidle : s.calls id = none) (hclients : registeredClients unmarshal rows = s.clients)
    (hnow : io.now = s.now) (hstoring : io.storing ≠ .lost)
    (hnew : hashToken cfg io.refreshToken ∉ s.digests) :
    CarriedOut cfg id (.clientCredentials clientID clientSecret) s
      (clientCredentials cfg unmarshal (.ok rows) (.ok rows) io s.refreshes clientID
        clientSecret) := by
  rw [clientCredentials, authenticateQueried, hclients]
  cases hauth : authenticateClient cfg s.clients clientID clientSecret with
  | error e =>
      refine (carriedOut_error hidle e).cons (a := .clientCredentials id clientID clientSecret) ?_
        rfl ⟨rfl, rfl⟩
      simp [oidcStep, beginStep, hidle, hauth]
  | ok client =>
      have hget : clientStoreQuery unmarshal (.ok rows) clientID = .ok client := by
        refine clientStoreQuery_eq_ok_iff.mpr ⟨rows, rfl, ?_⟩
        rw [hclients]
        exact (authenticateClient_eq_ok_iff.mp hauth).1
      simp only [hget]
      refine CarriedOut.cons (a := .clientCredentials id clientID clientSecret)
        (t := s.goOn id (.issuing client (.clientCredentials clientID clientSecret) clientID
          (" ".intercalate client.allowedScopes))) ?_ ?_ rfl ⟨rfl, rfl⟩
      · exact carriedOut_issueTokensCall (Function.update_self ..) hnow hstoring hnew
      · simp [oidcStep, beginStep, hidle, hauth]

/-- The `Get` of a refreshing call. -/
theorem getRefreshStep_of_call {client : OidcClient} {req : RefreshRequest} {ok : Bool}
    (hcall : s.calls id = some (.refreshing client req)) :
    getRefreshStep cfg s id ok =
      some (match ok, get s.refreshes s.now (hashToken cfg req.refreshToken) with
        | true, some record =>
            match refreshCheck req record with
            | .error _ => s.leave id
            | .ok () => s.goOn id (.gotRefresh client req record)
        | _, _ => s.leave id) := by
  have hstep := getRefreshStep.eq_def cfg s id ok
  rw [hcall] at hstep
  exact hstep

/-- `RefreshTokens` after its `Get`. -/
theorem carriedOut_gotRefresh {io : IssueContext} {client : OidcClient} {req : RefreshRequest}
    {record : RefreshRecord} (hcall : s.calls id = some (.gotRefresh client req record))
    (deleted : Bool) (hnow : io.now = s.now) (hstoring : io.storing ≠ .lost)
    (hnew : hashToken cfg io.refreshToken ∉ s.digests) :
    CarriedOut cfg id (.refresh req) s
      (issueTokensCall cfg io
        (if deleted then delete s.refreshes (hashToken cfg req.refreshToken) else s.refreshes)
        req.clientID record.userID record.scope true) := by
  let dropped := (s.dropRefresh (hashToken cfg req.refreshToken) deleted).goOn id
    (.issuing client (.refresh req) record.userID record.scope)
  have hdelete : oidcStep cfg s (.deleteRefresh id deleted) = some dropped := by
    simp [oidcStep, deleteRefreshStep, hcall, dropped, OidcState.dropRefresh]
  have hissuing : dropped.calls id = some (.issuing client (.refresh req) record.userID
      record.scope) := Function.update_self ..
  exact (carriedOut_issueTokensCall hissuing hnow hstoring hnew).cons hdelete rfl ⟨rfl, rfl⟩

/-- **`RefreshTokens` is a run** of the step function, when its query finds the clients of the
state. -/
theorem refreshTokens_carriedOut {io : RefreshContext} (req : RefreshRequest)
    (hidle : s.calls id = none) (hrows : io.clients = .ok rows)
    (hclients : registeredClients unmarshal rows = s.clients) (hread : io.readAt = s.now)
    (hnow : io.issue.now = s.now) (hstoring : io.issue.storing ≠ .lost)
    (hnew : hashToken cfg io.issue.refreshToken ∉ s.digests) :
    CarriedOut cfg id (.refresh req) s (refreshTokens cfg unmarshal io s.refreshes req) := by
  rw [refreshTokens, hrows, authenticateQueried, hclients, hread]
  cases hauth : authenticateClient cfg s.clients req.clientID req.clientSecret with
  | error e =>
      refine (carriedOut_error hidle e).cons (a := .refresh id req) ?_ rfl ⟨rfl, rfl⟩
      simp [oidcStep, beginStep, hidle, hauth]
  | ok client =>
      have hbegin :
          oidcStep cfg s (.refresh id req) = some (s.goOn id (.refreshing client req)) := by
        simp [oidcStep, beginStep, hidle, hauth]
      refine CarriedOut.cons ?_ hbegin rfl ⟨rfl, rfl⟩
      have hbegun : (s.goOn id (.refreshing client req)).calls id = some (.refreshing client req) :=
        Function.update_self ..
      have hleft : ((s.goOn id (.refreshing client req)).leave id).calls id = none :=
        Function.update_self ..
      cases io.read with
      | error e =>
          refine (carriedOut_error hleft e).cons (a := .getRefresh id false) ?_ rfl ⟨rfl, rfl⟩
          simp [oidcStep, getRefreshStep_of_call hbegun]
      | ok =>
          have hsame : (s.goOn id (.refreshing client req)).refreshes = s.refreshes := rfl
          have hthen : (s.goOn id (.refreshing client req)).now = s.now := rfl
          dsimp only
          cases hget : get s.refreshes s.now (hashToken cfg req.refreshToken) with
          | none =>
              refine (carriedOut_error hleft _).cons (a := .getRefresh id true) ?_ rfl ⟨rfl, rfl⟩
              simp [oidcStep, getRefreshStep_of_call hbegun, hsame, hthen, hget]
          | some record =>
              dsimp only
              cases hcheck : refreshCheck req record with
              | error e =>
                  refine (carriedOut_error hleft e).cons (a := .getRefresh id true) ?_ rfl
                    ⟨rfl, rfl⟩
                  simp [oidcStep, getRefreshStep_of_call hbegun, hsame, hthen, hget, hcheck]
              | ok =>
                  have hread' : oidcStep cfg (s.goOn id (.refreshing client req))
                      (.getRefresh id true) = some ((s.goOn id (.refreshing client req)).goOn id
                        (.gotRefresh client req record)) := by
                    simp [oidcStep, getRefreshStep_of_call hbegun, hsame, hthen, hget, hcheck]
                  refine CarriedOut.cons ?_ hread' rfl ⟨rfl, rfl⟩
                  exact carriedOut_gotRefresh (Function.update_self ..) _ hnow hstoring hnew

end Runs

end IdpForge
