import IdpForge.GoStrings
import IdpForge.OidcSteps

/-!
# Registered Scopes and the Scopes of Tokens

A client is registered with a list of allowed scopes. `ClientCredentials` issues tokens for
that list; `Authorize` stores the scope of the request in the code without looking at the
list, and from there it travels through the code, the token and any number of refresh
records. A token therefore stays within the registration when `Authorize` was only asked for
registered scopes.

## Main results

* `scopeInv_step`: codes, refresh records, running calls and issued tokens all stay within
  the registrations, step by step.
* `token_scopes_registered`: in a run whose requests stay within the registrations, every
  scope value of every token was registered for the client.
* `unregistered_scope_issued`: a token with a scope its client was never registered with.
-/

open GoStrings PartialMap TransitionSystem

namespace IdpForge

variable {cfg : OidcConfig}

/-! ### Registrations -/

/-- The space-separated values of a scope. -/
def scopeValues (scope : String) : List String := fields scope ' '

/-- The client is registered with every value of the scope. -/
def OidcClient.Allows (client : OidcClient) (scope : String) : Prop :=
  ∀ v ∈ scopeValues scope, v ∈ client.allowedScopes

instance (client : OidcClient) (scope : String) : Decidable (client.Allows scope) :=
  inferInstanceAs (Decidable (∀ v ∈ scopeValues scope, v ∈ client.allowedScopes))

/-- The list of clients an action puts in place. -/
def OidcAction.registers : OidcAction → Option (List OidcClient)
  | .setClients clients => some clients
  | _ => none

/-- The lists of registered clients a run has seen: the one at its beginning, and each one
put in place since. -/
def registrations (clients : List OidcClient) (as : List OidcAction) : List (List OidcClient) :=
  clients :: as.filterMap OidcAction.registers

/-- `v` is one of the scopes the client of the id was registered with. -/
def RegisteredScope (regs : List (List OidcClient)) (clientID v : String) : Prop :=
  ∃ clients ∈ regs, ∃ client, clientStoreGet clients clientID = some client ∧
    v ∈ client.allowedScopes

/-- `Authorize` is asked for registered scopes only, and the registered scopes of a client
that asks for tokens of its own are single values. -/
def AsksRegistered (s : OidcState) : OidcAction → Prop
  | .authorize _ req _ =>
      ∀ client, authorizeCheck s.clients req = .ok client → client.Allows req.scope
  | .clientCredentials _ clientID _ =>
      ∀ client, clientStoreGet s.clients clientID = some client →
        ∀ scope ∈ client.allowedScopes, client.Allows scope
  | _ => True

/-! ### The invariant -/

/-- Every value of the scope is one of the values `R` grants to the client. -/
def ScopeWithin (R : String → String → Prop) (clientID scope : String) : Prop :=
  ∀ v ∈ scopeValues scope, R clientID v

/-- The scope a running call carries is within `R`. -/
def Stage.Within (R : String → String → Prop) : Stage → Prop
  | .storingCode _ req _ => ScopeWithin R req.clientID req.scope
  | .gotCode _ _ record _ => ScopeWithin R record.clientID record.scope
  | .gotRefresh _ req record =>
      record.clientID = req.clientID ∧ ScopeWithin R record.clientID record.scope
  | .issuing _ grant _ scope => ScopeWithin R grant.clientID scope
  | _ => True

/-- The scope of an issued token is within `R`. -/
def Issued.Within (R : String → String → Prop) (e : Issued) : Prop :=
  ∀ scope, e.response.accessToken.scope = some scope → ScopeWithin R e.grant.clientID scope

/-- The invariant: what is registered now, and every scope on its way to a token or in one,
is within `R`. -/
structure ScopeInv (R : String → String → Prop) (s : OidcState) : Prop where
  registered : ∀ clientID client, clientStoreGet s.clients clientID = some client →
    ∀ v ∈ client.allowedScopes, R clientID v
  codes : ∀ code e, s.codes code = some e → ScopeWithin R e.value.clientID e.value.scope
  refreshes : ∀ key e, s.refreshes key = some e → ScopeWithin R e.value.clientID e.value.scope
  calls : ∀ id stage, s.calls id = some stage → stage.Within R
  history : ∀ e, OidcEvent.issued e ∈ s.history → e.Within R

section Steps

variable {R : String → String → Prop} {s s' : OidcState} {id : Nat}

/-- A scope the client is registered with is within `R`. -/
theorem ScopeInv.allows (h : ScopeInv R s) {clientID scope : String} {client : OidcClient}
    (hget : clientStoreGet s.clients clientID = some client) (hallows : client.Allows scope) :
    ScopeWithin R clientID scope :=
  fun v hv => h.registered clientID client hget v (hallows v hv)

/-- The joined scopes of a client have the values of its scopes. -/
theorem allows_intercalate {client : OidcClient}
    (h : ∀ scope ∈ client.allowedScopes, client.Allows scope) :
    client.Allows (" ".intercalate client.allowedScopes) := by
  intro v hv
  have hjoined : v ∈ fields ((String.singleton ' ').intercalate client.allowedScopes) ' ' := hv
  obtain ⟨scope, hscope, hvalue⟩ := (mem_fields_intercalate _).mp hjoined
  exact h scope hscope v hvalue

/-- A call goes on with a scope within `R`. -/
theorem ScopeInv.goOn (h : ScopeInv R s) (id : Nat) {stage : Stage} (hstage : stage.Within R) :
    ScopeInv R (s.goOn id stage) where
  registered := h.registered
  codes := h.codes
  refreshes := h.refreshes
  calls := forall_update hstage h.calls
  history := h.history

/-- A call returns. -/
theorem ScopeInv.leave (h : ScopeInv R s) (id : Nat) : ScopeInv R (s.leave id) where
  registered := h.registered
  codes := h.codes
  refreshes := h.refreshes
  calls := forall_update_none h.calls
  history := h.history

/-- An event is recorded; tokens in it must be within `R`. -/
theorem ScopeInv.record (h : ScopeInv R s) {e : OidcEvent}
    (he : ∀ i, e = .issued i → i.Within R) : ScopeInv R (s.record e) where
  registered := h.registered
  codes := h.codes
  refreshes := h.refreshes
  calls := h.calls
  history := forall_issued_record he h.history

/-- A code or a refresh token is deleted. -/
theorem ScopeInv.drop (h : ScopeInv R s) (code key : String) (ok ok' : Bool) :
    ScopeInv R ((s.dropCode code ok).dropRefresh key ok') where
  registered := h.registered
  codes := forall_dropCode h.codes
  refreshes := forall_dropRefresh h.refreshes
  calls := h.calls
  history := h.history

/-- Tokens issued for a scope within `R` are within `R`. -/
theorem issueTokens_within {now time : Int} {grant : Grant} {userID scope refreshToken : String}
    {roles : List String} {client : OidcClient} (h : ScopeWithin R grant.clientID scope) :
    (⟨time, client, grant,
      issueTokens cfg now grant.clientID userID scope roles refreshToken⟩ : Issued).Within R := by
  intro scope' hscope'
  obtain rfl := Option.some.inj hscope'
  exact h

/-- **The step lemma.** -/
theorem scopeInv_step {a : OidcAction} (h : ScopeInv R s) (hasks : AsksRegistered s a)
    (hregs : ∀ clients, a.registers = some clients → ∀ clientID client,
      clientStoreGet clients clientID = some client → ∀ v ∈ client.allowedScopes, R clientID v)
    (hstep : oidcStep cfg s a = some s') : ScopeInv R s' := by
  cases oidcStep_cases hstep with
  | refused => exact h
  | leave => exact h.leave _
  | @authorize id req code client _ hcheck =>
      have hget := (authorizeCheck_eq_ok_iff.mp hcheck).1
      have hdrawn : ScopeInv R { s with drawn := code :: s.drawn } := { h with }
      exact hdrawn.goOn id (h.allows hget (hasks client hcheck))
  | @storeCode id client req code hcall =>
      have hscope : ScopeWithin R req.clientID req.scope := h.calls id _ hcall
      have hrec := (h.leave id).record (e := .authorized ⟨s.now, client, req, code⟩)
        (fun i hi => by simp at hi)
      exact { hrec with codes := forall_update hscope h.codes }
  | exchange => exact h.goOn _ trivial
  | @getCode id client req record hcall hget =>
      obtain ⟨e, he, rfl, -⟩ := get_eq_some_iff.mp hget
      exact h.goOn id (h.codes _ e he)
  | @rejectCode id ok client req => exact (h.drop req.code "" ok false).leave id
  | @deleteCode id ok client req record gotAt hcall hcheck =>
      have hscope : ScopeWithin R record.clientID record.scope := h.calls id _ hcall
      rw [(exchangeCheck_eq_ok_iff.mp hcheck).1] at hscope
      have hstage : (Stage.issuing client (.exchange req) record.userID record.scope).Within R :=
        hscope
      exact ((h.drop req.code "" ok false).goOn id hstage).record (fun i hi => by simp at hi)
  | refresh => exact h.goOn _ trivial
  | @getRefresh id client req record hcall hget hcheck =>
      obtain ⟨e, he, rfl, -⟩ := get_eq_some_iff.mp hget
      exact h.goOn id ⟨refreshCheck_eq_ok_iff.mp hcheck, h.refreshes _ e he⟩
  | @deleteRefresh id ok client req record hcall =>
      obtain ⟨hclient, hscope⟩ := h.calls id _ hcall
      rw [hclient] at hscope
      have hstage : (Stage.issuing client (.refresh req) record.userID record.scope).Within R :=
        hscope
      exact (h.drop "" (hashToken cfg req.refreshToken) false ok).goOn id hstage
  | @clientCredentials id clientID clientSecret client _ hauth =>
      have hget := (authenticateClient_eq_ok_iff.mp hauth).1
      exact h.goOn id (h.allows hget (allows_intercalate (hasks client hget)))
  | @issueClient id roles refreshToken stored client grant userID scope hcall =>
      have hscope : ScopeWithin R grant.clientID scope := h.calls id _ hcall
      refine (h.leave id).record fun i hi => ?_
      obtain rfl := OidcEvent.issued.inj hi
      exact issueTokens_within hscope
  | @drawRefresh id roles refreshToken =>
      have hdigest : ScopeInv R
          { s with digests := hashToken cfg refreshToken :: s.digests } := { h with }
      exact hdigest.leave id
  | @issue id roles refreshToken client grant userID scope hcall =>
      have hscope : ScopeWithin R grant.clientID scope := h.calls id _ hcall
      have hdigest : ScopeInv R
          { s with digests := hashToken cfg refreshToken :: s.digests } := { h with }
      have hrec := (hdigest.leave id).record
        (e := .issued ⟨s.now, client, grant,
          issueTokens cfg s.now grant.clientID userID scope roles refreshToken⟩)
        fun i hi => by
          obtain rfl := OidcEvent.issued.inj hi
          exact issueTokens_within hscope
      exact { hrec with refreshes := forall_update hscope h.refreshes }
  | tick => exact { h with }
  | setClients clients => exact { h with registered := hregs clients rfl }

end Steps

/-- Before any call there is nothing but the registrations. -/
theorem scopeInv_start {R : String → String → Prop} (now : Int) {clients : List OidcClient}
    (h : ∀ clientID client, clientStoreGet clients clientID = some client →
      ∀ v ∈ client.allowedScopes, R clientID v) : ScopeInv R (OidcState.start now clients) where
  registered := h
  codes := by simp [OidcState.start]
  refreshes := by simp [OidcState.start]
  calls := by simp [OidcState.start]
  history := by simp [OidcState.start]

/-! ### Runs -/

/-- The values the clients of a list are registered with. -/
theorem registeredScope_of_mem {regs : List (List OidcClient)} {clients : List OidcClient}
    (hmem : clients ∈ regs) (clientID : String) (client : OidcClient)
    (hget : clientStoreGet clients clientID = some client) (v : String)
    (hv : v ∈ client.allowedScopes) : RegisteredScope regs clientID v :=
  ⟨clients, hmem, client, hget, hv⟩

/-- **Tokens stay within the registration when only registered scopes are asked for.** In a
run whose calls of `Authorize` ask for registered scopes only, and whose registered scopes
are single values where `ClientCredentials` uses them, every space-separated value in the
scope of an issued token is one of the scopes its client was registered with. -/
theorem token_scopes_registered (cfg : OidcConfig) (now : Int) (clients : List OidcClient)
    (as : List OidcAction) (s : OidcState)
    (hasks : Guarded (oidcStep cfg) AsksRegistered (OidcState.start now clients) as)
    (hrun : run (oidcStep cfg) (OidcState.start now clients) as = some s) (e : Issued)
    (he : OidcEvent.issued e ∈ s.history) (scope : String)
    (hscope : e.response.accessToken.scope = some scope) (v : String)
    (hv : v ∈ scopeValues scope) :
    RegisteredScope (registrations clients as) e.grant.clientID v := by
  have hstart : ScopeInv (RegisteredScope (registrations clients as))
      (OidcState.start now clients) :=
    scopeInv_start now (registeredScope_of_mem List.mem_cons_self)
  have hregs : ∀ a ∈ as, ∀ regs, a.registers = some regs → regs ∈ registrations clients as :=
    fun a ha regs hregisters =>
      List.mem_cons_of_mem _ (List.mem_filterMap.mpr ⟨a, ha, hregisters⟩)
  have hinv : ScopeInv (RegisteredScope (registrations clients as)) s :=
    guarded_run_invariant (fun _ _ _ h hg hs => scopeInv_step h hg.1 (fun regs hregisters =>
      registeredScope_of_mem (hg.2 regs hregisters)) hs) hstart (hasks.and_forall_mem hregs) hrun
  exact hinv.history e he scope hscope v hv

/-- The client is asked for a scope it was never registered with. -/
def adminAuthorize : AuthorizeRequest := { exampleAuthorize with scope := "openid admin" }

/-- The consent to more than is registered, and the exchange of its code. -/
def adminActions : List OidcAction :=
  [.authorize 0 adminAuthorize "c", .storeCode 0 true, .exchange 0 (exampleExchange "c"),
    .getCode 0 true, .deleteCode 0 true, .issue 0 [] "t1" true true]

/-- **A token with an unregistered scope.** The client is registered for `openid` alone, and
the exchange of its code returns an access token for `admin` as well. -/
theorem unregistered_scope_issued :
    ¬ ∀ (cfg : OidcConfig) (now : Int) (clients : List OidcClient) (as : List OidcAction)
      (s : OidcState), run (oidcStep cfg) (OidcState.start now clients) as = some s →
        ∀ (e : Issued), OidcEvent.issued e ∈ s.history →
          ∀ scope, e.response.accessToken.scope = some scope → ∀ v ∈ scopeValues scope,
            RegisteredScope (registrations clients as) e.grant.clientID v := by
  intro h
  have hhistory : (run (oidcStep exampleConfig) (OidcState.start 0 [exampleClient])
      adminActions).map (·.history) = some
        [.issued ⟨0, exampleClient, .exchange (exampleExchange "c"),
            issueTokens exampleConfig 0 "app" "u" "openid admin" [] "t1"⟩,
          .exchanged ⟨0, exampleClient, exampleExchange "c"⟩,
          .authorized ⟨0, exampleClient, adminAuthorize, "c"⟩] := by
    decide +kernel
  obtain ⟨s, hrun, hissued⟩ := Option.map_eq_some_iff.mp hhistory
  obtain ⟨clients, hclients, client, hget, hmem⟩ := h _ _ _ _ s hrun _
    (hissued ▸ List.mem_cons_self) "openid admin" rfl "admin" (by decide +kernel)
  obtain rfl : clients = [exampleClient] := by simpa [registrations, adminActions,
    OidcAction.registers] using hclients
  obtain rfl : exampleClient = client := Option.some.inj hget
  exact absurd hmem (by decide)

/-- The example run asks for registered scopes only. -/
theorem token_scopes_registered_example :
    RegisteredScope (registrations [exampleClient] exampleActions) "app" "openid" := by
  obtain ⟨s, hrun, hhistory⟩ := Option.map_eq_some_iff.mp exampleActions_history
  have hasks : Guarded (oidcStep exampleConfig) AsksRegistered (OidcState.start 0 [exampleClient])
      exampleActions := by
    have hfirst : AsksRegistered (OidcState.start 0 [exampleClient])
        (.authorize 0 exampleAuthorize "c") := by
      intro client hcheck
      obtain rfl : exampleClient = client :=
        Option.some.inj (authorizeCheck_eq_ok_iff.mp hcheck).1
      decide +kernel
    simp only [exampleActions, Guarded]
    exact ⟨hfirst, by simp [AsksRegistered]⟩
  exact token_scopes_registered exampleConfig 0 [exampleClient] exampleActions s hasks hrun
    exampleRefreshed (hhistory ▸ List.mem_cons_self) "openid" rfl "openid" (by decide +kernel)

end IdpForge
