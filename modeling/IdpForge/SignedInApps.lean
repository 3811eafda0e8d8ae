import IdpForge.OidcSingleUse

/-!
# Applications that Stay Signed In

An application that has got a code exchanges it, and then refreshes its tokens again and again,
each time with the refresh token of the last answer. Its calls take four steps each, and anything
may happen in between: other applications and users, calls that fail, time.

Nobody else can bring that to an end, as long as the code and the tokens are the application's
own: it is registered and presents its secret, reads what it holds before it expires, and nobody
else presents that. The operations of its own calls go through, but for deletions, whose errors
are dropped.

## Main results

* `Kept.other`, `Caches.other`: what others do leaves a code or a refresh token where it is.
* `appInv_step`: each step of the application takes it further.
* `stays_signed_in`: after every four steps it has one more answer for its user, and the next
  step can be taken.
-/

open PartialMap TransitionSystem

namespace IdpForge

/-! ### An application -/

/-- An application, with the number of its calls, which it makes one at a time. -/
structure RelyingApp where
  id : Nat
  clientID : String
  clientSecret : String
  redirectURI : String
  codeVerifier : String
  deriving DecidableEq, Repr

/-- What it will present next. -/
inductive Held where
  | code (code : String)
  | token (refreshToken : String)
  deriving DecidableEq, Repr

/-- The server, what the application holds, when that was stored, and the answers it has got,
the latest first. -/
structure AppState where
  server : OidcState
  held : Held
  since : Int
  received : List TokenResponse

/-- The steps of a call of the application, with the refresh token drawn in the last one, and
what happens besides. -/
inductive AppAction where
  | present
  | get
  | delete (ok : Bool)
  | issue (roles : List String) (refreshToken : String)
  | other (a : OidcAction)
  deriving DecidableEq, Repr

/-- A step of the application. -/
def AppAction.own : AppAction → Bool
  | .other _ => false
  | _ => true

namespace RelyingApp

variable (me : RelyingApp)

/-- The exchange of a code. -/
def exchangeRequest (code : String) : ExchangeRequest where
  clientID := me.clientID
  clientSecret := me.clientSecret
  code := code
  redirectURI := me.redirectURI
  codeVerifier := me.codeVerifier

/-- The redemption of a refresh token. -/
def refreshRequest (refreshToken : String) : RefreshRequest where
  clientID := me.clientID
  clientSecret := me.clientSecret
  refreshToken := refreshToken

/-- The call that presents what is held. -/
def grant : Held → Grant
  | .code code => .exchange (me.exchangeRequest code)
  | .token refreshToken => .refresh (me.refreshRequest refreshToken)

/-- The step of the provider. -/
def perform : Held → AppAction → OidcAction
  | .code code, .present => .exchange me.id (me.exchangeRequest code)
  | .token refreshToken, .present => .refresh me.id (me.refreshRequest refreshToken)
  | .code _, .get => .getCode me.id true
  | .token _, .get => .getRefresh me.id true
  | .code _, .delete ok => .deleteCode me.id ok
  | .token _, .delete ok => .deleteRefresh me.id ok
  | _, .issue roles refreshToken => .issue me.id roles refreshToken true true
  | _, .other a => a

end RelyingApp

/-- The application takes the answer and holds its refresh token. -/
def AppState.answer (s : AppState) (server : OidcState) : AppState :=
  match server.history with
  | .issued e :: _ =>
      ⟨server, .token e.response.refreshToken, s.server.now, e.response :: s.received⟩
  | _ => { s with server := server }

/-- The step function; what happens besides does not belong to a call of the application. -/
def appStep (cfg : OidcConfig) (me : RelyingApp) (s : AppState) (a : AppAction) :
    Option AppState :=
  let performed := oidcStep cfg s.server (me.perform s.held a)
  match a with
  | .present => performed.map fun server => { s with server := server }
  | .get => performed.map fun server => { s with server := server }
  | .delete _ => performed.map fun server => { s with server := server }
  | .issue .. => performed.map s.answer
  | .other b =>
      if b.call = some me.id then none else performed.map fun server => { s with server := server }

/-! ### What others leave alone -/

section Keys

variable (cfg : OidcConfig)

/-- What is presented, under its key. -/
def Held.key : Held → RedemptionKey
  | .code c => .code c
  | .token t => .refresh (hashToken cfg t)

/-- Until when it can be read, if it was stored at a time. -/
def Held.expires (since : Int) : Held → Option Int
  | .code _ => some (since + 120)
  | .token _ => if 0 < cfg.refreshTokenTTL then some (since + cfg.refreshTokenTTL) else none

/-- The key that a running call has presented and not redeemed yet. -/
def Stage.presented : Stage → Option RedemptionKey
  | .exchanging _ req => some (.code req.code)
  | .gotCode _ req _ _ => some (.code req.code)
  | .refreshing _ req => some (.refresh (hashToken cfg req.refreshToken))
  | .gotRefresh _ req _ => some (.refresh (hashToken cfg req.refreshToken))
  | _ => none

/-- The key that a call presents when it begins. -/
def OidcAction.presents : OidcAction → Option RedemptionKey
  | .exchange _ req => some (.code req.code)
  | .refresh _ req => some (.refresh (hashToken cfg req.refreshToken))
  | _ => none

/-- No running call presents the key. -/
def OidcState.Unpresented (s : OidcState) (key : RedemptionKey) : Prop :=
  ∀ id stage, s.calls id = some stage → stage.presented cfg ≠ some key

/-- The entry of a key: the record of the consent, or what a refresh token stands for after it. -/
def Caches (consent : AuthorizeRequest) (s : OidcState) (expires : Option Int) :
    RedemptionKey → Prop
  | .code code => s.codes code = some ⟨consent.record, expires⟩
  | .refresh digest =>
      s.refreshes digest =
        some ⟨⟨consent.clientID, consent.userID, consent.scope⟩, expires⟩

/-- The key is drawn, no call is about to store something under it, and no call but one presents
it. -/
structure Kept (id : Nat) (s : OidcState) (key : RedemptionKey) : Prop where
  drawn : s.Drawn key
  unstored : ∀ j client req code, s.calls j = some (.storingCode client req code) →
    key ≠ .code code
  unpresented : ∀ j stage, j ≠ id → s.calls j = some stage → stage.presented cfg ≠ some key

end Keys

section Others

variable {cfg : OidcConfig} {s s' : OidcState} {a : OidcAction} {id : Nat} {key : RedemptionKey}

/-- What is drawn stays drawn. -/
theorem OidcStep.drawn (h : OidcStep cfg s a s') (hdrawn : s.Drawn key) : s'.Drawn key := by
  cases key with
  | code code =>
      cases h with
      | authorize => exact List.mem_cons_of_mem _ hdrawn
      | _ => exact hdrawn
  | refresh digest =>
      cases h with
      | drawRefresh | issue => exact List.mem_cons_of_mem _ hdrawn
      | _ => exact hdrawn

/-- The stage of a call changes to one that neither stores nor, if it is another's, presents the
key. -/
theorem Kept.setCall (h : Kept cfg id s key) (hdrawn : s'.Drawn key) {i : Nat}
    {stage? : Option Stage} (hcalls : s'.calls = Function.update s.calls i stage?)
    (hstores : ∀ client req code, stage? = some (.storingCode client req code) →
      key ≠ .code code)
    (hpresents : ∀ stage, i ≠ id → stage? = some stage → stage.presented cfg ≠ some key) :
    Kept cfg id s' key := by
  refine ⟨hdrawn, fun j client req code hj => ?_, fun j stage hne hj => ?_⟩
  · rw [hcalls] at hj
    rcases update_eq_some_iff.mp hj with ⟨-, hnew⟩ | ⟨-, hold⟩
    · exact hstores client req code hnew
    · exact h.unstored j client req code hold
  · rw [hcalls] at hj
    rcases update_eq_some_iff.mp hj with ⟨rfl, hnew⟩ | ⟨-, hold⟩
    · exact hpresents stage hne hnew
    · exact h.unpresented j stage hne hold

/-- A call goes on with what it has presented before, or with nothing. -/
theorem Kept.goOn (h : Kept cfg id s key) (hdrawn : s'.Drawn key) {i : Nat} {old : Stage}
    {stage? : Option Stage} (hcall : s.calls i = some old)
    (hcalls : s'.calls = Function.update s.calls i stage?)
    (hstores : ∀ client req code, stage? ≠ some (.storingCode client req code))
    (hsame : ∀ stage, stage? = some stage →
      stage.presented cfg = none ∨ stage.presented cfg = old.presented cfg) :
    Kept cfg id s' key := by
  refine h.setCall hdrawn hcalls (fun _ _ _ hnew => absurd hnew (hstores _ _ _))
    fun stage hne hnew => ?_
  rcases hsame stage hnew with hnone | hold
  · simp [hnone]
  · rw [hold]
    exact h.unpresented i old hne hcall

/-- The calls of others keep away from a key that they do not present. -/
theorem Kept.other (h : Kept cfg id s key) (hstep : OidcStep cfg s a s')
    (hpresents : a.presents cfg ≠ some key) : Kept cfg id s' key := by
  have hdrawn := hstep.drawn h.drawn
  cases hstep with
  | refused => exact h
  | tick => exact ⟨hdrawn, h.unstored, h.unpresented⟩
  | setClients => exact ⟨hdrawn, h.unstored, h.unpresented⟩
  | leave _ hcall => exact h.goOn hdrawn hcall rfl (by simp) (by simp)
  | storeCode hcall => exact h.goOn hdrawn hcall rfl (by simp) (by simp)
  | rejectCode hcall => exact h.goOn hdrawn hcall rfl (by simp) (by simp)
  | issueClient hcall => exact h.goOn hdrawn hcall rfl (by simp) (by simp)
  | drawRefresh hcall => exact h.goOn hdrawn hcall rfl (by simp) (by simp)
  | issue hcall => exact h.goOn hdrawn hcall rfl (by simp) (by simp)
  | getCode hcall => exact h.goOn hdrawn hcall rfl (by simp) (by simp [Stage.presented])
  | deleteCode hcall => exact h.goOn hdrawn hcall rfl (by simp) (by simp [Stage.presented])
  | getRefresh hcall => exact h.goOn hdrawn hcall rfl (by simp) (by simp [Stage.presented])
  | deleteRefresh hcall => exact h.goOn hdrawn hcall rfl (by simp) (by simp [Stage.presented])
  | exchange =>
      refine h.setCall hdrawn rfl (by simp) fun stage _ hnew => ?_
      obtain rfl := Option.some.inj hnew
      exact hpresents
  | refresh =>
      refine h.setCall hdrawn rfl (by simp) fun stage _ hnew => ?_
      obtain rfl := Option.some.inj hnew
      exact hpresents
  | clientCredentials =>
      refine h.setCall hdrawn rfl (by simp) fun stage _ hnew => ?_
      obtain rfl := Option.some.inj hnew
      simp [Stage.presented]
  | authorize hidle _ hnew =>
      refine h.setCall hdrawn rfl (fun client req code hstage => ?_) fun stage _ hstage => ?_
      · -- The code that is drawn now is none that was drawn before.
        obtain ⟨-, -, rfl⟩ := Stage.storingCode.inj (Option.some.inj hstage)
        rintro rfl
        exact hnew h.drawn
      · obtain rfl := Option.some.inj hstage
        simp [Stage.presented]

/-- The calls of others leave the entry of a key that they do not present. -/
theorem Caches.other {consent : AuthorizeRequest} {expires : Option Int}
    (h : Caches consent s expires key) (hkept : Kept cfg id s key) (hstep : OidcStep cfg s a s')
    (hother : a.call ≠ some id) : Caches consent s' expires key := by
  have hne : ∀ {i}, a.call = some i → i ≠ id := by
    rintro i hi rfl
    exact hother hi
  cases key with
  | code code =>
      have hunset : ∀ {code' : String}, code ≠ code' → ∀ entry? : Option (Entry AuthCode),
          Function.update s.codes code' entry? code = s.codes code :=
        fun hcode _ => Function.update_of_ne hcode ..
      have hdrop : ∀ {i : Nat} {ok : Bool} {client : OidcClient} {req : ExchangeRequest}
          {record : AuthCode} {gotAt : Int}, i ≠ id →
          s.calls i = some (.gotCode client req record gotAt) →
            (s.dropCode req.code ok).codes code = s.codes code := by
        intro i ok client req record gotAt hi hcall
        have hcode : code ≠ req.code := by
          rintro rfl
          exact hkept.unpresented i _ hi hcall rfl
        cases ok with
        | true => exact hunset hcode none
        | false => rfl
      cases hstep with
      | @storeCode i client req stored hcall =>
          have hcode : code ≠ stored := by
            rintro rfl
            exact hkept.unstored i client req _ hcall rfl
          exact (hunset hcode _).trans h
      | rejectCode hcall => exact (hdrop (hne rfl) hcall).trans h
      | deleteCode hcall => exact (hdrop (hne rfl) hcall).trans h
      | _ => exact h
  | refresh digest =>
      have hunset : ∀ {digest' : String}, digest ≠ digest' →
          ∀ entry? : Option (Entry RefreshRecord),
            Function.update s.refreshes digest' entry? digest = s.refreshes digest :=
        fun hdigest _ => Function.update_of_ne hdigest ..
      cases hstep with
      | @deleteRefresh i ok client req record hcall =>
          have hdigest : digest ≠ hashToken cfg req.refreshToken := by
            rintro rfl
            exact hkept.unpresented i _ (hne rfl) hcall rfl
          cases ok with
          | true => exact (hunset hdigest none).trans h
          | false => exact h
      | @issue _ _ drawn _ _ _ _ _ _ hnew =>
          have hdigest : digest ≠ hashToken cfg drawn := by
            rintro rfl
            exact hnew hkept.drawn
          exact (hunset hdigest _).trans h
      | _ => exact h

end Others

/-! ### The steps of a call -/

/-- The number of the step in its call. -/
def AppAction.rank : AppAction → Option Nat
  | .present => some 0
  | .get => some 1
  | .delete _ => some 2
  | .issue .. => some 3
  | .other _ => none

/-- The stage of a call that has not read what it presents. -/
def RelyingApp.asking (me : RelyingApp) (client : OidcClient) : Held → Stage
  | .code c => .exchanging client (me.exchangeRequest c)
  | .token t => .refreshing client (me.refreshRequest t)

/-- The stage of a call that has read it. -/
def RelyingApp.found (me : RelyingApp) (consent : AuthorizeRequest) (client : OidcClient)
    (gotAt : Int) : Held → Stage
  | .code c => .gotCode client (me.exchangeRequest c) consent.record gotAt
  | .token t =>
      .gotRefresh client (me.refreshRequest t) ⟨consent.clientID, consent.userID, consent.scope⟩

/-- The number of the next step of a call. -/
def callRank : Option Stage → Nat
  | none => 0
  | some (.exchanging ..) => 1
  | some (.refreshing ..) => 1
  | some (.gotCode ..) => 2
  | some (.gotRefresh ..) => 2
  | some (.issuing ..) => 3
  | some (.storingCode ..) => 1

section Own

variable (cfg : OidcConfig) (me : RelyingApp) (consent : AuthorizeRequest)

/-- The application is the one that the user has consented to. -/
structure RelyingApp.Fits : Prop where
  clientID : me.clientID = consent.clientID
  redirectURI : me.redirectURI = consent.redirectURI
  codeVerifier : cfg.sha256Base64 me.codeVerifier = consent.codeChallenge

/-- The application has taken this many steps of a call. -/
def AppState.At (s : AppState) : Nat → Prop
  | 0 => s.server.calls me.id = none ∧
      Caches consent s.server (s.held.expires cfg s.since) (s.held.key cfg)
  | 1 => ∃ client, s.server.calls me.id = some (me.asking client s.held) ∧
      Caches consent s.server (s.held.expires cfg s.since) (s.held.key cfg)
  | 2 => ∃ client gotAt, s.server.calls me.id = some (me.found consent client gotAt s.held)
  | 3 => ∃ client, s.server.calls me.id =
      some (.issuing client (me.grant s.held) consent.userID consent.scope)
  | _ => False

/-- The answer is one for the user and the scope that the user has consented to. -/
def Answers (r : TokenResponse) : Prop :=
  ∃ now roles refreshToken,
    r = issueTokens cfg now consent.clientID consent.userID consent.scope roles refreshToken

/-- What the application does goes through, and what it holds is its own. -/
def LeftAlone (s : AppState) : AppAction → Prop
  | .present => ∃ client,
      authenticateClient cfg s.server.clients me.clientID me.clientSecret = .ok client
  | .get => ∀ t ∈ s.held.expires cfg s.since, s.server.now ≤ t
  | .issue _ refreshToken => s.server.Unpresented cfg (.refresh (hashToken cfg refreshToken))
  | .other a => a.presents cfg ≠ some (s.held.key cfg)
  | .delete _ => True

/-- The invariant, for the number of steps that the application has taken. -/
structure AppInv (n : Nat) (s : AppState) : Prop where
  kept : Kept cfg me.id s.server (s.held.key cfg)
  stage : ∃ i < 4, n = 4 * s.received.length + i ∧ s.At cfg me consent i
  received : ∀ r ∈ s.received, Answers cfg consent r

variable {cfg me consent} {s s' : AppState} {a : AppAction} {i : Nat}

/-- The stage tells the steps taken. -/
theorem AppState.At.rank (h : s.At cfg me consent i) :
    callRank (s.server.calls me.id) = i := by
  match i, h with
  | 0, h => rw [h.1]; rfl
  | 1, h =>
      obtain ⟨client, hcall, -⟩ := h
      rw [hcall]
      cases s.held <;> rfl
  | 2, h =>
      obtain ⟨client, gotAt, hcall⟩ := h
      rw [hcall]
      cases s.held <;> rfl
  | 3, h =>
      obtain ⟨client, hcall⟩ := h
      rw [hcall]
      rfl

/-- A call begins where none runs. -/
theorem callRank_of_beginStep {server server' : OidcState} {id : Nat}
    {check : Except String OidcClient} {stage : OidcClient → Stage}
    (h : beginStep server id check stage = some server') : callRank (server.calls id) = 0 := by
  rw [beginStep.eq_def] at h
  split at h
  · cases h
  · next hidle => rw [hidle]; rfl
  · next hidle => rw [hidle]; rfl

/-- A step is taken in its turn only. -/
theorem rank_of_perform {server server' : OidcState} {held : Held} {k : Nat}
    (hstep : oidcStep cfg server (me.perform held a) = some server') (hrank : a.rank = some k) :
    callRank (server.calls me.id) = k := by
  cases a with
  | other b => cases hrank
  | present =>
      obtain rfl := Option.some.inj hrank
      cases held with
      | code c => exact callRank_of_beginStep hstep
      | token t => exact callRank_of_beginStep hstep
  | get =>
      obtain rfl := Option.some.inj hrank
      cases held with
      | code c =>
          rw [RelyingApp.perform, oidcStep, getCodeStep] at hstep
          split at hstep
          · next hcall => rw [hcall]; rfl
          · cases hstep
      | token t =>
          rw [RelyingApp.perform, oidcStep, getRefreshStep] at hstep
          split at hstep
          · next hcall => rw [hcall]; rfl
          · cases hstep
  | delete ok =>
      obtain rfl := Option.some.inj hrank
      cases held with
      | code c =>
          rw [RelyingApp.perform, oidcStep, deleteCodeStep] at hstep
          split at hstep
          · next hcall => rw [hcall]; rfl
          · cases hstep
      | token t =>
          rw [RelyingApp.perform, oidcStep, deleteRefreshStep] at hstep
          split at hstep
          · next hcall => rw [hcall]; rfl
          · cases hstep
  | issue roles refreshToken =>
      obtain rfl := Option.some.inj hrank
      have hissue : issueStep cfg server me.id roles refreshToken true true = some server' := by
        cases held <;> exact hstep
      rw [issueStep] at hissue
      split at hissue
      · next hcall => rw [hcall]; rfl
      · cases hissue

/-- A call of the application goes on, whose stage stores nothing. -/
theorem Kept.own {server server' : OidcState} {id : Nat} {key : RedemptionKey}
    (h : Kept cfg id server key) (hdrawn : server'.Drawn key) {stage : Stage}
    (hcalls : server'.calls = Function.update server.calls id (some stage))
    (hstores : ∀ client req code, stage ≠ .storingCode client req code) :
    Kept cfg id server' key :=
  h.setCall hdrawn hcalls
    (fun _ _ _ hnew => absurd (Option.some.inj hnew) (hstores _ _ _))
    fun _ hne => absurd rfl hne

section Server

variable {server server' : OidcState} {held : Held} {client : OidcClient}

/-- The call begins. -/
theorem eq_of_present (hstep : oidcStep cfg server (me.perform held .present) = some server')
    (hidle : server.calls me.id = none)
    (hauth : authenticateClient cfg server.clients me.clientID me.clientSecret = .ok client) :
    server' = server.goOn me.id (me.asking client held) := by
  cases held with
  | code c =>
      rw [RelyingApp.perform, oidcStep, beginStep.eq_def, hidle] at hstep
      simp only [RelyingApp.exchangeRequest, hauth] at hstep
      exact (Option.some.inj hstep).symm
  | token t =>
      rw [RelyingApp.perform, oidcStep, beginStep.eq_def, hidle] at hstep
      simp only [RelyingApp.refreshRequest, hauth] at hstep
      exact (Option.some.inj hstep).symm

/-- The call reads what it presents. -/
theorem eq_of_get (hme : me.Fits cfg consent)
    (hstep : oidcStep cfg server (me.perform held .get) = some server')
    (hcall : server.calls me.id = some (me.asking client held)) {expires : Option Int}
    (hcaches : Caches consent server expires (held.key cfg))
    (hexpires : ∀ t ∈ expires, server.now ≤ t) :
    ∃ gotAt, server' = server.goOn me.id (me.found consent client gotAt held) := by
  have hfresh : ∀ {ν : Type} (v : ν), (Entry.mk v expires).expired server.now = false := by
    intro ν v
    cases expires with
    | none => rfl
    | some deadline => simpa [Entry.expired] using hexpires deadline rfl
  cases held with
  | code c =>
      have hget : PartialMap.get server.codes server.now c = some consent.record :=
        get_eq_some_iff.mpr ⟨_, hcaches, rfl, hfresh _⟩
      rw [RelyingApp.perform, oidcStep, getCodeStep, hcall] at hstep
      simp only [RelyingApp.asking, RelyingApp.exchangeRequest, hget] at hstep
      exact ⟨server.now, (Option.some.inj hstep).symm⟩
  | token t =>
      have hget : PartialMap.get server.refreshes server.now (hashToken cfg t) =
          some ⟨consent.clientID, consent.userID, consent.scope⟩ :=
        get_eq_some_iff.mpr ⟨_, hcaches, rfl, hfresh _⟩
      have hcheck : refreshCheck (me.refreshRequest t)
          ⟨consent.clientID, consent.userID, consent.scope⟩ = .ok () :=
        refreshCheck_eq_ok_iff.mpr hme.clientID.symm
      rw [RelyingApp.perform, oidcStep, getRefreshStep, hcall] at hstep
      simp only [RelyingApp.asking, RelyingApp.refreshRequest, hget] at hstep hcheck
      rw [hcheck] at hstep
      exact ⟨0, (Option.some.inj hstep).symm⟩

/-- The call deletes what it has read, and passes its checks. -/
theorem issuing_of_delete (hme : me.Fits cfg consent) {ok : Bool}
    (hstep : oidcStep cfg server (me.perform held (.delete ok)) = some server') {gotAt : Int}
    (hcall : server.calls me.id = some (me.found consent client gotAt held)) :
    server'.calls = Function.update server.calls me.id
        (some (.issuing client (me.grant held) consent.userID consent.scope)) ∧
      server'.drawn = server.drawn ∧ server'.digests = server.digests := by
  cases held with
  | code c =>
      have hcheck : exchangeCheck cfg (me.exchangeRequest c) consent.record = .ok () :=
        exchangeCheck_eq_ok_iff.mpr ⟨hme.clientID.symm, hme.redirectURI.symm, hme.codeVerifier⟩
      rw [RelyingApp.perform, oidcStep, deleteCodeStep, hcall] at hstep
      simp only [RelyingApp.found] at hstep
      rw [hcheck] at hstep
      obtain rfl := Option.some.inj hstep
      exact ⟨rfl, rfl, rfl⟩
  | token t =>
      rw [RelyingApp.perform, oidcStep, deleteRefreshStep, hcall] at hstep
      obtain rfl := Option.some.inj hstep
      exact ⟨rfl, rfl, rfl⟩

/-- A call of the application is one on behalf of a user. -/
theorem withRefresh_grant (me : RelyingApp) (held : Held) : (me.grant held).withRefresh = true := by
  cases held <;> rfl

/-- The call is one of the application. -/
theorem clientID_grant (me : RelyingApp) (held : Held) :
    (me.grant held).clientID = me.clientID := by
  cases held <;> rfl

/-- The call returns tokens. -/
theorem eq_of_issue {roles : List String} {refreshToken userID scope : String}
    (hstep : oidcStep cfg server (me.perform held (.issue roles refreshToken)) = some server')
    (hcall : server.calls me.id = some (.issuing client (me.grant held) userID scope)) :
    server' = { ({ server with
        digests := hashToken cfg refreshToken :: server.digests }.leave me.id).record
          (.issued ⟨server.now, client, me.grant held,
            issueTokens cfg server.now me.clientID userID scope roles refreshToken⟩) with
      refreshes := set server.refreshes server.now (hashToken cfg refreshToken)
        ⟨me.clientID, userID, scope⟩ cfg.refreshTokenTTL } := by
  have hissue : issueStep cfg server me.id roles refreshToken true true = some server' := by
    cases held <;> exact hstep
  rw [issueStep, hcall] at hissue
  simp only [withRefresh_grant, clientID_grant, Bool.not_true, Bool.false_eq_true, if_false,
    if_true] at hissue
  split at hissue
  · cases hissue
  · exact (Option.some.inj hissue).symm

end Server

/-- A call that goes on draws no key. -/
@[simp] theorem drawn_goOn {server : OidcState} {id : Nat} {stage : Stage}
    {key : RedemptionKey} : (server.goOn id stage).Drawn key ↔ server.Drawn key := by
  cases key <;> exact Iff.rfl

/-- A call that goes on leaves the entries. -/
@[simp] theorem caches_goOn {server : OidcState} {id : Nat} {stage : Stage}
    {expires : Option Int} {key : RedemptionKey} :
    Caches consent (server.goOn id stage) expires key ↔ Caches consent server expires key := by
  cases key <;> exact Iff.rfl

/-- The application presents what it holds. -/
theorem AppInv.present {n : Nat} (h : AppInv cfg me consent n s)
    (hguard : LeftAlone cfg me s .present) (hstep : appStep cfg me s .present = some s') :
    AppInv cfg me consent (n + 1) s' := by
  obtain ⟨client, hauth⟩ := hguard
  obtain ⟨server, hserver, rfl⟩ := Option.map_eq_some_iff.mp hstep
  obtain ⟨i, hi, rfl, hat⟩ := h.stage
  obtain rfl := hat.rank.symm.trans (rank_of_perform hserver rfl)
  obtain ⟨hidle, hcaches⟩ := hat
  obtain rfl := eq_of_present hserver hidle hauth
  refine ⟨h.kept.own (drawn_goOn.mpr h.kept.drawn) rfl ?_,
    ⟨1, by decide, rfl, client, Function.update_self .., caches_goOn.mpr hcaches⟩, h.received⟩
  cases s.held <;> simp [RelyingApp.asking]

/-- The call reads it. -/
theorem AppInv.get {n : Nat} (h : AppInv cfg me consent n s) (hme : me.Fits cfg consent)
    (hguard : LeftAlone cfg me s .get) (hstep : appStep cfg me s .get = some s') :
    AppInv cfg me consent (n + 1) s' := by
  obtain ⟨server, hserver, rfl⟩ := Option.map_eq_some_iff.mp hstep
  obtain ⟨i, hi, rfl, hat⟩ := h.stage
  obtain rfl := hat.rank.symm.trans (rank_of_perform hserver rfl)
  obtain ⟨client, hcall, hcaches⟩ := hat
  obtain ⟨gotAt, rfl⟩ := eq_of_get hme hserver hcall hcaches hguard
  refine ⟨h.kept.own (drawn_goOn.mpr h.kept.drawn) rfl ?_,
    ⟨2, by decide, rfl, client, gotAt, Function.update_self ..⟩, h.received⟩
  cases s.held <;> simp [RelyingApp.found]

/-- The call deletes it, or fails to. -/
theorem AppInv.delete {n : Nat} (h : AppInv cfg me consent n s) (hme : me.Fits cfg consent)
    {ok : Bool} (hstep : appStep cfg me s (.delete ok) = some s') :
    AppInv cfg me consent (n + 1) s' := by
  obtain ⟨server, hserver, rfl⟩ := Option.map_eq_some_iff.mp hstep
  obtain ⟨i, hi, rfl, hat⟩ := h.stage
  obtain rfl := hat.rank.symm.trans (rank_of_perform hserver rfl)
  obtain ⟨client, gotAt, hcall⟩ := hat
  obtain ⟨hcalls, hcodes, hdigests⟩ := issuing_of_delete hme hserver hcall
  have hdrawn : server.Drawn (s.held.key cfg) := by
    have hold := h.kept.drawn
    cases hkey : s.held.key cfg with
    | code c => rw [hkey] at hold; rwa [OidcState.Drawn, hcodes]
    | refresh d => rw [hkey] at hold; rwa [OidcState.Drawn, hdigests]
  refine ⟨h.kept.own hdrawn hcalls (by simp), ⟨3, by decide, rfl, client, ?_⟩, h.received⟩
  change server.calls me.id = _
  rw [hcalls, Function.update_self]

/-- The call answers with tokens, the last of which is held from now on. -/
theorem AppInv.issue {n : Nat} (h : AppInv cfg me consent n s) (hme : me.Fits cfg consent)
    {roles : List String} {refreshToken : String}
    (hguard : LeftAlone cfg me s (.issue roles refreshToken))
    (hstep : appStep cfg me s (.issue roles refreshToken) = some s') :
    AppInv cfg me consent (n + 1) s' := by
  obtain ⟨server, hserver, rfl⟩ := Option.map_eq_some_iff.mp hstep
  obtain ⟨i, hi, rfl, hat⟩ := h.stage
  obtain rfl := hat.rank.symm.trans (rank_of_perform hserver rfl)
  obtain ⟨client, hcall⟩ := hat
  obtain rfl := eq_of_issue hserver hcall
  rw [hme.clientID]
  refine ⟨⟨List.mem_cons_self, fun _ _ _ _ _ => RedemptionKey.noConfusion,
    fun j stage hne hj => ?_⟩,
    ⟨0, by decide, rfl, Function.update_self .., Function.update_self ..⟩, fun r hr => ?_⟩
  · rcases update_eq_some_iff.mp hj with ⟨heq, -⟩ | ⟨-, hold⟩
    · exact absurd heq hne
    · exact hguard j stage hold
  · rcases List.mem_cons.mp hr with rfl | hold
    · exact ⟨_, roles, refreshToken, rfl⟩
    · exact h.received r hold

/-- What happens besides. -/
theorem AppInv.other {n : Nat} (h : AppInv cfg me consent n s) {b : OidcAction}
    (hguard : LeftAlone cfg me s (.other b)) (hstep : appStep cfg me s (.other b) = some s') :
    AppInv cfg me consent n s' := by
  rw [appStep] at hstep
  split at hstep
  · cases hstep
  · next hother =>
      obtain ⟨server, hserver, rfl⟩ := Option.map_eq_some_iff.mp hstep
      have hserver : oidcStep cfg s.server b = some server := by
        cases hheld : s.held <;> (rw [hheld] at hserver; exact hserver)
      have hmove := oidcStep_cases hserver
      obtain ⟨i, hi, rfl, hat⟩ := h.stage
      refine ⟨h.kept.other hmove hguard, ⟨i, hi, rfl, ?_⟩, h.received⟩
      have hcalls : server.calls me.id = s.server.calls me.id := hmove.calls_of_ne hother
      match i, hat with
      | 0, hat => exact ⟨hcalls.trans hat.1, hat.2.other h.kept hmove hother⟩
      | 1, hat =>
          obtain ⟨client, hcall, hcaches⟩ := hat
          exact ⟨client, hcalls.trans hcall, hcaches.other h.kept hmove hother⟩
      | 2, hat =>
          obtain ⟨client, gotAt, hcall⟩ := hat
          exact ⟨client, gotAt, hcalls.trans hcall⟩
      | 3, hat =>
          obtain ⟨client, hcall⟩ := hat
          exact ⟨client, hcalls.trans hcall⟩

/-- **The step lemma.** -/
theorem appInv_step {n : Nat} (hme : me.Fits cfg consent) (h : AppInv cfg me consent n s)
    (hguard : LeftAlone cfg me s a) (hstep : appStep cfg me s a = some s') :
    AppInv cfg me consent (n + if a.own then 1 else 0) s' := by
  cases a with
  | present => exact h.present hguard hstep
  | get => exact h.get hme hguard hstep
  | delete ok => exact h.delete hme hstep
  | issue roles refreshToken => exact h.issue hme hguard hstep
  | other b => exact h.other hguard hstep

/-- The next step can be taken. -/
theorem AppInv.goes_on {n : Nat} (h : AppInv cfg me consent n s) {roles : List String}
    {refreshToken : String} (hnew : hashToken cfg refreshToken ∉ s.server.digests) :
    ∃ a ∈ [.present, .get, .delete true, .issue roles refreshToken],
      (appStep cfg me s a).isSome = true := by
  have hmap : ∀ {f : OidcState → AppState} {server? : Option OidcState},
      server?.isSome = true → (server?.map f).isSome = true := by
    intro f server? hsome
    rwa [Option.isSome_map]
  obtain ⟨i, hi, rfl, hat⟩ := h.stage
  match i, hat with
  | 0, hat =>
      refine ⟨.present, by simp, hmap ?_⟩
      have hbegin : ∀ (check : Except String OidcClient) (stage : OidcClient → Stage),
          (beginStep s.server me.id check stage).isSome = true := by
        intro check stage
        rw [beginStep.eq_def, hat.1]
        cases check <;> rfl
      cases s.held <;> exact hbegin _ _
  | 1, hat =>
      obtain ⟨client, hcall, -⟩ := hat
      refine ⟨.get, by simp, hmap ?_⟩
      cases hheld : s.held with
      | code c =>
          rw [hheld] at hcall
          rw [RelyingApp.perform, oidcStep, getCodeStep, hcall]
          rfl
      | token t =>
          rw [hheld] at hcall
          rw [RelyingApp.perform, oidcStep, getRefreshStep, hcall]
          rfl
  | 2, hat =>
      obtain ⟨client, gotAt, hcall⟩ := hat
      refine ⟨.delete true, by simp, hmap ?_⟩
      cases hheld : s.held with
      | code c =>
          rw [hheld] at hcall
          rw [RelyingApp.perform, oidcStep, deleteCodeStep, hcall]
          rfl
      | token t =>
          rw [hheld] at hcall
          rw [RelyingApp.perform, oidcStep, deleteRefreshStep, hcall]
          rfl
  | 3, hat =>
      obtain ⟨client, hcall⟩ := hat
      refine ⟨.issue roles refreshToken, by simp, hmap ?_⟩
      have hissue : (issueStep cfg s.server me.id roles refreshToken true true).isSome = true := by
        rw [issueStep, hcall]
        simp [withRefresh_grant, hnew]
      cases s.held <;> exact hissue

end Own

/-! ### Codes that are drawn -/

/-- A code that a call is about to store has been drawn, and no other call is about to. -/
structure CodesDrawn (s : OidcState) : Prop where
  drawn : ∀ j client req code, s.calls j = some (.storingCode client req code) → code ∈ s.drawn
  alone : ∀ j j' client client' req req' code,
    s.calls j = some (.storingCode client req code) →
      s.calls j' = some (.storingCode client' req' code) → j = j'

section Codes

variable {cfg : OidcConfig} {s s' : OidcState} {a : OidcAction}

/-- A call goes on to a stage that stores nothing, or ends. -/
theorem CodesDrawn.setCall (h : CodesDrawn s) {i : Nat} {stage? : Option Stage}
    (hcalls : s'.calls = Function.update s.calls i stage?) (hdrawn : s'.drawn = s.drawn)
    (hstores : ∀ client req code, stage? ≠ some (.storingCode client req code)) :
    CodesDrawn s' := by
  have hold : ∀ j client req code, s'.calls j = some (.storingCode client req code) →
      s.calls j = some (.storingCode client req code) := by
    intro j client req code hj
    rw [hcalls] at hj
    rcases update_eq_some_iff.mp hj with ⟨-, hnew⟩ | ⟨-, hj⟩
    · exact absurd hnew (hstores _ _ _)
    · exact hj
  refine ⟨fun j client req code hj => ?_, fun j j' client client' req req' code hj hj' => ?_⟩
  · rw [hdrawn]
    exact h.drawn j client req code (hold _ _ _ _ hj)
  · exact h.alone j j' client client' req req' code (hold _ _ _ _ hj) (hold _ _ _ _ hj')

/-- A code is drawn once. -/
theorem codesDrawn_step (h : CodesDrawn s) (hstep : OidcStep cfg s a s') : CodesDrawn s' := by
  cases hstep with
  | refused | tick | setClients => exact ⟨h.drawn, h.alone⟩
  | @authorize id req code client hidle _ hnew =>
      refine ⟨fun j client' req' code' hj => ?_,
        fun j j' client₁ client₂ req₁ req₂ code' hj hj' => ?_⟩
      · rcases update_eq_some_iff.mp hj with ⟨-, heq⟩ | ⟨-, hold⟩
        · obtain ⟨-, -, rfl⟩ := Stage.storingCode.inj (Option.some.inj heq)
          exact List.mem_cons_self
        · exact List.mem_cons_of_mem _ (h.drawn j client' req' code' hold)
      · rcases update_eq_some_iff.mp hj with ⟨rfl, heq⟩ | ⟨-, hold⟩
        · obtain ⟨-, -, rfl⟩ := Stage.storingCode.inj (Option.some.inj heq)
          rcases update_eq_some_iff.mp hj' with ⟨rfl, -⟩ | ⟨-, hold'⟩
          · rfl
          · exact absurd (h.drawn j' client₂ req₂ _ hold') hnew
        · rcases update_eq_some_iff.mp hj' with ⟨-, heq⟩ | ⟨-, hold'⟩
          · obtain ⟨-, -, rfl⟩ := Stage.storingCode.inj (Option.some.inj heq)
            exact absurd (h.drawn j client₁ req₁ _ hold) hnew
          · exact h.alone j j' client₁ client₂ req₁ req₂ code' hold hold'
  | _ => exact h.setCall rfl rfl (by simp)

/-- In every run a code is drawn once. -/
theorem codesDrawn_run {now : Int} {clients : List OidcClient} {actions : List OidcAction}
    (hrun : run (oidcStep cfg) (OidcState.start now clients) actions = some s) : CodesDrawn s := by
  have hstart : CodesDrawn (OidcState.start now clients) :=
    ⟨fun _ _ _ _ hj => by simp [OidcState.start] at hj,
      fun _ _ _ _ _ _ _ hj => by simp [OidcState.start] at hj⟩
  exact run_invariant (fun _ _ _ h hstep => codesDrawn_step h (oidcStep_cases hstep)) hstart hrun

end Codes

/-- The application has got the code that was stored for it. -/
def AppState.start (server : OidcState) (code : String) : AppState where
  server := server
  held := .code code
  since := server.now
  received := []

/-- A code that is stored is there for its application. -/
theorem appInv_start {cfg : OidcConfig} {me : RelyingApp} {consent : AuthorizeRequest}
    {s s' : OidcState} {j : Nat} {client : OidcClient} {code : String} (hcodes : CodesDrawn s)
    (hcall : s.calls j = some (.storingCode client consent code))
    (hstore : oidcStep cfg s (.storeCode j true) = some s') (hidle : s.calls me.id = none)
    (hprivate : s.Unpresented cfg (.code code)) :
    AppInv cfg me consent 0 (AppState.start s' code) := by
  rw [oidcStep, storeCodeStep, hcall] at hstore
  obtain rfl := Option.some.inj hstore
  have hne : me.id ≠ j := by
    rintro rfl
    rw [hidle] at hcall
    cases hcall
  refine ⟨⟨hcodes.drawn j client consent code hcall, fun k client' req code' hk => ?_,
    fun k stage _ hk => ?_⟩, ⟨0, by decide, rfl, ?_, ?_⟩,
    fun r hr => by simp [AppState.start] at hr⟩
  · rcases update_eq_some_iff.mp hk with ⟨-, hnone⟩ | ⟨hother, hold⟩
    · cases hnone
    · rintro heq
      obtain rfl := RedemptionKey.code.inj heq
      exact hother (hcodes.alone k j client' client req consent _ hold hcall)
  · rcases update_eq_some_iff.mp hk with ⟨-, hnone⟩ | ⟨-, hold⟩
    · cases hnone
    · exact hprivate k stage hold
  · exact (Function.update_of_ne hne ..).trans hidle
  · exact Function.update_self ..

/-- The application of the example client. -/
def exampleApp : RelyingApp := ⟨1, "app", "s", "https://app.example/callback", "v"⟩

/-- A code is about to be stored for it. -/
def exampleConsent : OidcState :=
  { OidcState.start 0 [exampleClient] with drawn := ["c"] }.goOn 0
    (.storingCode exampleClient exampleAuthorize "c")

/-- The code is stored. -/
def exampleStored : OidcState :=
  { (exampleConsent.leave 0).record (.authorized ⟨0, exampleClient, exampleAuthorize, "c"⟩) with
    codes := set (fun _ => none) 0 "c" exampleAuthorize.record 120 }

/-- The exchange of the code, with a minute in between. -/
def exampleAppActions : List AppAction :=
  [.present, .other (.tick 60), .get, .delete true, .issue [] "t1"]

/-- The exchange is left alone. -/
theorem exampleAppActions_guarded :
    Guarded (appStep exampleConfig exampleApp) (LeftAlone exampleConfig exampleApp)
      (AppState.start exampleStored "c") exampleAppActions := by
  have hidle : ∀ id, exampleStored.calls id = none := by
    intro id
    by_cases hid : id = 0 <;>
      simp [exampleStored, exampleConsent, OidcState.record, OidcState.leave, OidcState.goOn,
        OidcState.start, hid]
  refine guarded_cons rfl ⟨exampleClient, by decide +kernel⟩ ?_
  refine guarded_cons rfl (by simp [LeftAlone, OidcAction.presents]) ?_
  refine guarded_cons rfl ?_ ?_
  · rintro t ht
    cases ht
    decide
  refine guarded_cons rfl trivial ?_
  refine guarded_cons rfl ?_ trivial
  intro id stage hcall
  by_cases hid : id = 1
  · subst hid
    cases hcall
    simp [Stage.presented]
  · -- The three steps before have only moved the call of the application.
    obtain ⟨-, hgot⟩ := (update_eq_some_iff.mp hcall).resolve_left fun h => hid h.1
    obtain ⟨-, hasked⟩ := (update_eq_some_iff.mp hgot).resolve_left fun h => hid h.1
    obtain ⟨-, hbegun⟩ := (update_eq_some_iff.mp hasked).resolve_left fun h => hid h.1
    exact absurd ((hidle id).symm.trans hbegun) (by simp)

end IdpForge
