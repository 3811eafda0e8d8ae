import IdpForge.AccountSteps

/-!
# Offboarding and Deletion

Offboarding disables a user's row and deletion removes it, but neither touches the sessions,
the codes and the refresh tokens of the user, and nothing reads the status of a row. A
removed user is kept out for good only when nothing of theirs is left in the cache at the
removal, nobody comes up with their password, and their device credentials give access to
nothing.

## Main results

* `KeptOut`, `KeptOut.step`: the invariant of a removed user who is kept out.
* `removal_final_iff_staysOut`: in which continuations nothing happens on behalf of a removed
  user of whom nothing is left.
* `deletion_final_of_keptOut`: after a deletion the password is of no use.
* `removal_not_final`: a user who is offboarded or deleted and goes on as before.
-/

open RouteDispatch PartialMap TransitionSystem

namespace IdpForge

/-! ### Tokens -/

/-- The user a running call acts for. -/
def Stage.subject : Stage → Option String
  | .storingCode _ req _ => some req.userID
  | .gotCode _ _ record _ => some record.userID
  | .gotRefresh _ _ record => some record.userID
  | .issuing _ grant userID _ => if grant.withRefresh then some userID else none
  | .exchanging _ _ => none
  | .refreshing _ _ => none

/-- `ExchangeCode` or `RefreshTokens` returned tokens whose subject is the user. -/
def OidcEvent.TokensFor (u : String) : OidcEvent → Prop
  | .issued e => e.grant.withRefresh = true ∧ e.response.accessToken.sub = u
  | _ => False

/-- Nothing the provider holds can lead to tokens for the user. -/
structure NoTokensLeft (u : String) (s : OidcState) : Prop where
  codes : ∀ code record, get s.codes s.now code = some record → record.userID ≠ u
  refreshes : ∀ key record, get s.refreshes s.now key = some record → record.userID ≠ u
  calls : ∀ id stage, s.calls id = some stage → stage.subject ≠ some u

namespace NoTokensLeft

variable {cfg : OidcConfig} {u : String} {s s' : OidcState} {id : Nat}

/-- Something is recorded. -/
theorem record (h : NoTokensLeft u s) {e : OidcEvent} : NoTokensLeft u (s.record e) :=
  ⟨h.codes, h.refreshes, h.calls⟩

/-- Codes and refresh tokens are drawn. -/
theorem draw (h : NoTokensLeft u s) {drawn digests : List String} :
    NoTokensLeft u { s with drawn := drawn, digests := digests } :=
  ⟨h.codes, h.refreshes, h.calls⟩

/-- A call returns. -/
theorem leave (h : NoTokensLeft u s) : NoTokensLeft u (s.leave id) where
  codes := h.codes
  refreshes := h.refreshes
  calls := forall_update_none h.calls

/-- A call goes on for somebody else. -/
theorem goOn (h : NoTokensLeft u s) {stage : Stage} (hstage : stage.subject ≠ some u) :
    NoTokensLeft u (s.goOn id stage) where
  codes := h.codes
  refreshes := h.refreshes
  calls := forall_update hstage h.calls

/-- A code is deleted, or not. -/
theorem dropCode (h : NoTokensLeft u s) {code : String} {ok : Bool} :
    NoTokensLeft u (s.dropCode code ok) where
  codes := by
    cases ok with
    | true => exact forall_get_delete h.codes
    | false => exact h.codes
  refreshes := h.refreshes
  calls := h.calls

/-- A refresh token is deleted, or not. -/
theorem dropRefresh (h : NoTokensLeft u s) {key : String} {ok : Bool} :
    NoTokensLeft u (s.dropRefresh key ok) where
  codes := h.codes
  refreshes := by
    cases ok with
    | true => exact forall_get_delete h.refreshes
    | false => exact h.refreshes
  calls := h.calls

/-- A code for somebody else is stored. -/
theorem setCode (h : NoTokensLeft u s) {code : String} {record : AuthCode} {ttl : Int}
    (hrecord : record.userID ≠ u) :
    NoTokensLeft u { s with codes := set s.codes s.now code record ttl } where
  codes := forall_get_set hrecord h.codes
  refreshes := h.refreshes
  calls := h.calls

/-- A refresh token for somebody else is stored. -/
theorem setRefresh (h : NoTokensLeft u s) {key : String} {record : RefreshRecord} {ttl : Int}
    (hrecord : record.userID ≠ u) :
    NoTokensLeft u { s with refreshes := set s.refreshes s.now key record ttl } where
  codes := h.codes
  refreshes := forall_get_set hrecord h.refreshes
  calls := h.calls

/-- A call that issues user tokens does so for somebody else. -/
theorem subject_ne (h : NoTokensLeft u s) {client : OidcClient} {grant : Grant}
    {userID scope : String} (hcall : s.calls id = some (.issuing client grant userID scope))
    (hgrant : grant.withRefresh = true) : userID ≠ u := by
  have hsubject := h.calls id _ hcall
  simpa [Stage.subject, hgrant] using hsubject

/-- **One step of the provider** leaves nothing for the user, unless it begins a call of
`Authorize` on their behalf. -/
theorem step (h : NoTokensLeft u s) {a : OidcAction} (hstep : OidcStep cfg s a s')
    (hauthorize : ∀ id req code, a = .authorize id req code → req.userID ≠ u) :
    NoTokensLeft u s' ∧ GrewBy (fun e => ¬ e.TokensFor u) s.history s'.history := by
  have hsame := GrewBy.refl (p := fun e => ¬ OidcEvent.TokensFor u e) s.history
  cases hstep with
  | refused => exact ⟨h, hsame⟩
  | leave => exact ⟨h.leave, hsame⟩
  | authorize hidle hcheck hnew =>
      have hne := hauthorize _ _ _ rfl
      exact ⟨h.draw.goOn (by simpa [Stage.subject] using hne), hsame⟩
  | storeCode hcall =>
      have hne := h.calls _ _ hcall
      refine ⟨h.leave.record.setCode ?_, hsame.cons (by simp [OidcEvent.TokensFor])⟩
      simpa [Stage.subject, AuthorizeRequest.record] using hne
  | exchange => exact ⟨h.goOn (by simp [Stage.subject]), hsame⟩
  | getCode hcall hget =>
      have hne := h.codes _ _ hget
      exact ⟨h.goOn (by simpa [Stage.subject] using hne), hsame⟩
  | rejectCode hcall hcheck => exact ⟨h.dropCode.leave, hsame⟩
  | deleteCode hcall hcheck =>
      have hne := h.calls _ _ hcall
      refine ⟨(h.dropCode.goOn ?_).record, hsame.cons (by simp [OidcEvent.TokensFor])⟩
      simpa [Stage.subject, Grant.withRefresh] using hne
  | refresh => exact ⟨h.goOn (by simp [Stage.subject]), hsame⟩
  | getRefresh hcall hget hcheck =>
      have hne := h.refreshes _ _ hget
      exact ⟨h.goOn (by simpa [Stage.subject] using hne), hsame⟩
  | deleteRefresh hcall =>
      have hne := h.calls _ _ hcall
      exact ⟨h.dropRefresh.goOn (by simpa [Stage.subject, Grant.withRefresh] using hne), hsame⟩
  | clientCredentials => exact ⟨h.goOn (by simp [Stage.subject, Grant.withRefresh]), hsame⟩
  | issueClient hcall hgrant =>
      exact ⟨h.leave.record, hsame.cons (by simp [OidcEvent.TokensFor, hgrant])⟩
  | drawRefresh hcall => exact ⟨h.draw.leave, hsame⟩
  | issue hcall hgrant hnew =>
      have hne := h.subject_ne hcall hgrant
      refine ⟨h.draw.leave.record.setRefresh hne, hsame.cons ?_⟩
      simp [OidcEvent.TokensFor, issueTokens, hne]
  | tick d =>
      have hle : s.now ≤ s.now + d := by omega
      exact ⟨⟨fun code record hget => h.codes code record (get_of_le hle hget),
        fun key record hget => h.refreshes key record (get_of_le hle hget), h.calls⟩, hsame⟩
  | setClients => exact ⟨⟨h.codes, h.refreshes, h.calls⟩, hsame⟩

end NoTokensLeft

/-! ### The server -/

/-- The event lets the user in. -/
def ServerEvent.Admits (u : String) : ServerEvent → Prop
  | .loggedIn userID => userID = u
  | .externallyLoggedIn userID => userID = u
  | .checkedIn userID allowed => userID = u ∧ allowed = true
  | .offboarded _ => False
  | .deleted _ => False

/-- Nothing in the cache belongs to the user, nor does a running call of the provider. -/
structure NothingLeft (u : String) (s : ServerState) : Prop where
  sessions : ∀ id data, get s.sessions s.now id = some data → data.userID ≠ u
  tokens : NoTokensLeft u s.oidc

/-- The request does not come up with what lets a removed user in: the password, and the
second factor for a login, or a device credential for something the user has access to. -/
def StaysOut (cfg : AccountConfig) (u : String) (s : ServerState) : ServerAction → Prop
  | .login ctx (some req) _ => ∀ user, Admits cfg ctx s req user → user.id ≠ u
  | .externalLogin ctx (some req) => ∀ user, Presents cfg ctx s req user → user.id ≠ u
  | .checkin c => c.env.insertFails = false → ∀ e r, (s.checkin c).ResolvesTo u e r →
      r ≠ "" ∧ hasPermission c.env.resolve u r "access" ≠ some true
  | _ => True

/-- The user is kept out since the state `s₀`. -/
structure KeptOut (u : String) (s₀ s : ServerState) : Prop where
  left : NothingLeft u s
  history : GrewBy (fun e => ¬ ServerEvent.Admits u e) s₀.history s.history
  tokens : GrewBy (fun e => ¬ OidcEvent.TokensFor u e) s₀.oidc.history s.oidc.history

namespace KeptOut

variable {cfg : AccountConfig} {u : String} {s₀ s s' : ServerState}

/-- At the removal. -/
theorem start (h : NothingLeft u s) : KeptOut u s s := ⟨h, .refl _, .refl _⟩

/-- Most requests change nothing. -/
theorem untouched {new : List String} (h : KeptOut u s₀ s) (hsame : Untouched new s s') :
    KeptOut u s₀ s' where
  left := by
    refine ⟨?_, hsame.oidc ▸ h.left.tokens⟩
    rw [hsame.sessions, hsame.now]
    exact h.left.sessions
  history := hsame.history ▸ h.history
  tokens := hsame.oidc ▸ h.tokens

/-- An event that does not let the user in is recorded. -/
theorem record (h : KeptOut u s₀ s) {e : ServerEvent} (he : ¬ e.Admits u) :
    KeptOut u s₀ (s.record e) :=
  ⟨⟨h.left.sessions, h.left.tokens⟩, h.history.cons he, h.tokens⟩

/-- Somebody else gets a session. -/
theorem setSession (h : KeptOut u s₀ s) {id : String} {data : SessionData}
    (hdata : data.userID ≠ u) : KeptOut u s₀ (s.setSession id data) where
  left := ⟨forall_get_set hdata h.left.sessions, h.left.tokens⟩
  history := h.history
  tokens := h.tokens

/-- A user id is drawn. -/
theorem drawUserID (h : KeptOut u s₀ s) {id : String} (hdraw : s.drawUserID id = some s') :
    KeptOut u s₀ s' := by
  obtain ⟨-, -, rfl⟩ := drawUserID_eq_some hdraw
  exact ⟨⟨h.left.sessions, h.left.tokens⟩, h.history, h.tokens⟩

/-- The user of a session is somebody else. -/
theorem sessionUser_ne (h : KeptOut u s₀ s) {ctx : RequestContext} {cookie userID : String}
    (hsession : s.sessionUser ctx cookie = some userID) : userID ≠ u := by
  obtain ⟨-, -, data, hget, rfl⟩ := sessionUser_eq_some hsession
  exact h.left.sessions cookie data hget

/-- A request that stays out records nothing that lets the user in. -/
theorem not_admits {a : ServerAction} {e : ServerEvent} (hrecorded : Recorded cfg s a e)
    (hguard : StaysOut cfg u s a) : ¬ e.Admits u := by
  cases hrecorded with
  | login hadmits => exact hguard _ hadmits
  | externalLogin hpresents => exact hguard _ hpresents
  | @checkin c resp hanswer =>
      rintro ⟨rfl, hallowed⟩
      obtain ⟨hinsert, e, r, hresolves, hperm⟩ := handleDeviceCheckin_allowed hanswer hallowed
      obtain ⟨hresource, hdenied⟩ := hguard hinsert e r hresolves
      exact hdenied (hperm hresource)
  | offboardUser => simp [ServerEvent.Admits]
  | deleteUser => simp [ServerEvent.Admits]

/-- A request that does not stay out lets the user in. -/
theorem admits_of_not_staysOut {a : ServerAction} (hstep : serverStep cfg s a = some s')
    (hguard : ¬ StaysOut cfg u s a) : ∃ e, s'.history = e :: s.history ∧ e.Admits u := by
  cases a with
  | login ctx body sessionID =>
      cases body with
      | none => exact absurd trivial hguard
      | some req =>
          simp only [StaysOut, not_forall, not_not] at hguard
          obtain ⟨user, hadmits, rfl⟩ := hguard
          obtain ⟨resp, s'', hlogin, hid, hhistory⟩ := hadmits.handleLogin sessionID
          obtain rfl := Option.some.inj hstep
          rw [hlogin]
          exact ⟨_, congrArg _ hhistory, hid⟩
  | externalLogin ctx body =>
      cases body with
      | none => exact absurd trivial hguard
      | some req =>
          simp only [StaysOut, not_forall, not_not] at hguard
          obtain ⟨user, hpresents, rfl⟩ := hguard
          obtain rfl := Option.some.inj hstep
          rw [handleExternalLogin, hpresents.findByPassword]
          exact ⟨_, rfl, rfl⟩
  | checkin c =>
      simp only [StaysOut, not_forall, not_and, not_not] at hguard
      obtain ⟨hinsert, e, r, hresolves, hperm⟩ := hguard
      obtain ⟨resp, hanswer, huser, hallowed⟩ :=
        handleDeviceCheckin_allows cfg.driver s.deviceEvents hresolves hinsert hperm
      obtain rfl := Option.some.inj hstep
      rw [ServerState.handleCheckin, hanswer]
      exact ⟨_, rfl, huser, hallowed⟩
  | _ => exact absurd trivial hguard

/-- **One step** that stays out keeps the user out. -/
theorem step (h : KeptOut u s₀ s) {a : ServerAction} (hguard : StaysOut cfg u s a)
    (hstep : ServerStep cfg s a s') : KeptOut u s₀ s' := by
  cases hstep with
  | quiet hsame => exact h.untouched hsame
  | recorded hsame hrecorded => exact (h.untouched hsame).record (not_admits hrecorded hguard)
  | create hdraw hsame => exact (h.drawUserID hdraw).untouched hsame
  | login hadmits hsame =>
      have hne := hguard _ hadmits
      exact ((h.untouched hsame).setSession hne).record hne
  | logout =>
      exact ⟨⟨forall_get_delete h.left.sessions, h.left.tokens⟩, h.history, h.tokens⟩
  | changePassword hsession hsame =>
      exact (h.untouched hsame).setSession (h.sessionUser_ne hsession)
  | @provider _ a' _ hoidc hauthorize =>
      have hothers : ∀ id req code, a' = .authorize id req code → req.userID ≠ u := by
        intro id req code heq
        obtain ⟨ctx, cookie, hsession⟩ := hauthorize id req code heq
        exact h.sessionUser_ne hsession
      obtain ⟨hleft, hgrew⟩ := h.left.tokens.step hoidc hothers
      exact ⟨⟨fun id data hget => h.left.sessions id data (get_of_le hoidc.now_le hget),
        hleft⟩, h.history, h.tokens.trans hgrew⟩

end KeptOut

/-! ### What a removal is for -/

/-- The request offboards or deletes the user, successfully. -/
inductive Removes (cfg : AccountConfig) (s : ServerState) (u : String) : ServerAction → Prop
  | offboard {ctx : RequestContext} {user : UserRow}
      (h : (handleOffboardUser ctx s u).1 = .ok user) : Removes cfg s u (.offboardUser ctx u)
  | delete {ctx : RequestContext} (h : (handleDeleteUser cfg ctx s u).1 = .ok ()) :
      Removes cfg s u (.deleteUser ctx u)

/-- Since `s₀` nobody has been let in as the user, and no request is authenticated as the
user by a session. -/
structure Shut (u : String) (s₀ s : ServerState) : Prop where
  api : ∀ ctx env req locals,
    authenticateAny (s.environment ctx env) req {} = .next locals → locals.userID ≠ u
  authorize : ∀ ctx cookie q req, handleAuthorize ctx s cookie q = .code req → req.userID ≠ u
  forwardAuth : ∀ ctx cookie userID roles,
    handleForwardAuth ctx s cookie = .ok (userID, roles) → userID ≠ u
  history : GrewBy (fun e => ¬ ServerEvent.Admits u e) s₀.history s.history
  tokens : GrewBy (fun e => ¬ OidcEvent.TokensFor u e) s₀.oidc.history s.oidc.history

section Removal

variable {cfg : AccountConfig} {u : String} {s₀ s s' : ServerState} {a : ServerAction}

/-- A removal leaves the cache as it is. -/
theorem Removes.nothingLeft (h : Removes cfg s u a) (hstep : serverStep cfg s a = some s')
    (hleft : NothingLeft u s) : NothingLeft u s' := by
  have hsame : ∀ {α : Type} {reply : Reply α} {event : α → ServerEvent},
      Untouched [] s reply.2 → NothingLeft u (conclude reply event) := by
    intro α reply event hreply
    obtain ⟨answer, s''⟩ := reply
    have hkept := ((KeptOut.start hleft).untouched hreply).left
    cases answer with
    | error e => exact hkept
    | ok x => exact ⟨hkept.sessions, hkept.tokens⟩
  cases h with
  | offboard => exact Option.some.inj hstep ▸ hsame .updateAccount
  | delete => exact Option.some.inj hstep ▸ hsame .handleDeleteUser

/-- Only a user with a row is removed. -/
theorem Removes.mem_users (h : Removes cfg s u a) : u ∈ s.users.map (·.id) := by
  cases h with
  | @offboard ctx user h =>
      rw [handleOffboardUser, updateAccount] at h
      have hids : (usersUpdate ctx.fails s.users u { status := some statusDisabled }).2.map
          (·.id) = s.users.map (·.id) := usersUpdate_ids
      split at h
      · simp [newError] at h
      · next row rows hupdate =>
          obtain ⟨hmem, hid⟩ := usersUpdate_fst (congrArg Prod.fst hupdate)
          rw [← hids]
          exact List.mem_map.mpr ⟨row, hmem, hid⟩
  | delete h =>
      rw [handleDeleteUser] at h
      split at h
      · simp [newError] at h
      · simp [newError] at h
      · next rows hrows => exact (usersDelete_eq_rows hrows).1

/-- A request without a session is authenticated as no user. -/
theorem authenticateAny_userID {env : Environment} {req : Request} {locals : Locals}
    (h : authenticateAny env req {} = .next locals) (hne : locals.userID ≠ "") :
    sessionUser env req = some locals.userID := by
  rw [authenticateAny] at h
  split at h
  · next userID hsession => exact (Flow.next.inj h) ▸ hsession
  · obtain ⟨client, hnext⟩ | ⟨outcome, hdone, -⟩ :=
      admitAPIClient_cases env req "not authenticated" {}
    · rw [hnext] at h
      exact absurd (Flow.next.inj h ▸ rfl) hne
    · simp [hdone] at h

/-- A user who is kept out is shut out. -/
theorem KeptOut.shut (h : KeptOut u s₀ s) (hne : u ≠ "") : Shut u s₀ s where
  api := by
    rintro ctx env req locals hauth rfl
    exact h.sessionUser_ne (authenticateAny_userID hauth hne) rfl
  authorize := fun ctx cookie q req hcode => h.sessionUser_ne (handleAuthorize_eq_code hcode)
  forwardAuth := by
    intro ctx cookie userID roles hforward
    rw [handleForwardAuth.eq_def] at hforward
    split at hforward
    · simp [newError] at hforward
    · next hcookie =>
        split at hforward
        · simp [newError] at hforward
        · next user hsession =>
            split at hforward
            · simp [newError] at hforward
            · obtain ⟨rfl, -⟩ := Prod.mk.inj (Except.ok.inj hforward)
              have huser : s.sessionUser ctx cookie = some user := by
                rw [ServerState.sessionUser, if_neg hcookie]
                exact hsession
              exact h.sessionUser_ne huser
  history := h.history
  tokens := h.tokens

end Removal

/-- A removed user of whom nothing is left is shut out by requests that stay out, and only by
these. -/
theorem shut_iff_of_removes {cfg : AccountConfig} {u : String} {s₁ s₂ s₃ : ServerState}
    {a : ServerAction} (hinv : AccountInv s₁) (hremoves : Removes cfg s₁ u a)
    (hstep : serverStep cfg s₁ a = some s₂) (hleft : NothingLeft u s₁) {bs : List ServerAction}
    (hcontinue : run (serverStep cfg) s₂ bs = some s₃) :
    Shut u s₂ s₃ ↔ Guarded (serverStep cfg) (StaysOut cfg u) s₂ bs := by
  have hne : u ≠ "" := by
    rintro rfl
    exact hinv.nonempty (hinv.users hremoves.mem_users)
  constructor
  · intro hshut
    refine guarded_of_grewBy ServerState.history
      (fun s a s' hs => (serverStep_cases hs).history) (fun s a s' hs hg => ?_) (.refl _)
      hcontinue hshut.history
    obtain ⟨e, hhistory, hadmits⟩ := KeptOut.admits_of_not_staysOut hs hg
    exact ⟨e, hhistory, not_not.mpr hadmits⟩
  · intro hguard
    have hstart := KeptOut.start (hremoves.nothingLeft hstep hleft)
    have hkept : KeptOut u s₂ s₃ := guarded_run_invariant
      (fun s a s' h hg hs => KeptOut.step h hg (serverStep_cases hs)) hstart hguard hcontinue
    exact hkept.shut hne

/-- **When a removal is final.** A user of whom nothing is left in the cache when they are
offboarded or deleted is shut out by it in exactly the continuations whose requests all stay
out. -/
theorem removal_final_iff_staysOut (cfg : AccountConfig) (now : Int) (clients : List OidcClient)
    (users : List UserRow) (hids : ∀ user ∈ users, user.id ≠ "") (as : List ServerAction)
    (s₁ : ServerState)
    (hrun : run (serverStep cfg) (ServerState.start now clients users) as = some s₁)
    (u : String) (a : ServerAction) (hremoves : Removes cfg s₁ u a) (s₂ : ServerState)
    (hstep : serverStep cfg s₁ a = some s₂) (hleft : NothingLeft u s₁)
    (bs : List ServerAction) (s₃ : ServerState)
    (hcontinue : run (serverStep cfg) s₂ bs = some s₃) :
    Shut u s₂ s₃ ↔ Guarded (serverStep cfg) (StaysOut cfg u) s₂ bs :=
  shut_iff_of_removes (accountInv_run hids hrun) hremoves hstep hleft hcontinue

/-- The user of the example is offboarded. -/
def exampleOffboarded : ServerState :=
  conclude (handleOffboardUser {} exampleSession "u") fun user => .offboarded user.id

/-- The user of the example is deleted. -/
def exampleDeleted : ServerState :=
  conclude (handleDeleteUser exampleAccounts {} exampleSession "u") fun _ => .deleted "u"

/-- A user who is offboarded, or deleted, with a session keeps it and gets codes for it, and
an offboarded user logs in again. -/
theorem removal_not_final :
    run (serverStep exampleAccounts) exampleStart [exampleLogin "sid"] = some exampleSession ∧
    Removes exampleAccounts exampleSession "u" (.offboardUser {} "u") ∧
    serverStep exampleAccounts exampleSession (.offboardUser {} "u") = some exampleOffboarded ∧
    handleAuthorize {} exampleOffboarded "sid" exampleQuery = .code (exampleQuery.request "u") ∧
    (handleLogin exampleAccounts {} exampleOffboarded (some ⟨"alice", "p", ""⟩)
      "sid2").1.toOption = some ⟨"u", false, true⟩ ∧
    ¬ Shut "u" exampleOffboarded exampleOffboarded ∧
    Removes exampleAccounts exampleSession "u" (.deleteUser {} "u") ∧
    serverStep exampleAccounts exampleSession (.deleteUser {} "u") = some exampleDeleted ∧
    handleAuthorize {} exampleDeleted "sid" exampleQuery = .code (exampleQuery.request "u") ∧
    ¬ Shut "u" exampleDeleted exampleDeleted := by
  have hoffboarded : handleAuthorize {} exampleOffboarded "sid" exampleQuery =
      .code (exampleQuery.request "u") := by decide +kernel
  have hdeleted : handleAuthorize {} exampleDeleted "sid" exampleQuery =
      .code (exampleQuery.request "u") := by decide +kernel
  refine ⟨rfl, .offboard rfl, rfl, hoffboarded, by decide +kernel, ?_, .delete rfl, rfl,
    hdeleted, ?_⟩
  · intro hshut
    exact hshut.authorize {} "sid" exampleQuery _ hoffboarded rfl
  · intro hshut
    exact hshut.authorize {} "sid" exampleQuery _ hdeleted rfl

/-- A login with a wrong password. -/
def exampleWrongLogin : ServerAction := .login {} (some ⟨"alice", "q", ""⟩) "sid"

/-- The user of the example is offboarded before the first login, and somebody tries a wrong
password. -/
theorem removal_final_iff_staysOut_wrongLogin :
    ∃ s₂ s₃, serverStep exampleAccounts exampleStart (.offboardUser {} "u") = some s₂ ∧
      run (serverStep exampleAccounts) s₂ [exampleWrongLogin] = some s₃ ∧ Shut "u" s₂ s₃ := by
  refine ⟨_, _, rfl, rfl, (removal_final_iff_staysOut exampleAccounts 0 [exampleClient]
    [exampleUser] (by simp [exampleUser]) [] exampleStart rfl "u" (.offboardUser {} "u")
    (.offboard rfl) _ rfl ?_ [exampleWrongLogin] _ rfl).mpr ⟨?_, fun _ _ => trivial⟩⟩
  · exact ⟨by simp [exampleStart, ServerState.start, PartialMap.get],
      ⟨by simp [exampleStart, ServerState.start, OidcState.start, PartialMap.get],
        by simp [exampleStart, ServerState.start, OidcState.start, PartialMap.get],
        by simp [exampleStart, ServerState.start, OidcState.start]⟩⟩
  · intro user hadmits
    have hpassword := hadmits.presents.password
    simp [exampleAccounts] at hpassword

/-! ### Deletion -/

/-- The id was drawn for a user whose row is gone. -/
structure Gone (u : String) (s : ServerState) : Prop where
  drawn : u ∈ s.userIDs
  row : u ∉ s.users.map (·.id)

section Deletion

variable {cfg : AccountConfig} {u : String} {s s' : ServerState}

/-- A row that is gone does not come back without its id being drawn again. -/
theorem Gone.untouched {new : List String} (h : Gone u s) (hnew : u ∉ new)
    (hsame : Untouched new s s') : Gone u s' where
  drawn := hsame.userIDs ▸ h.drawn
  row := by
    intro hrow
    rcases List.mem_append.mp (hsame.users hrow) with hnewrow | hold
    · exact hnew hnewrow
    · exact h.row hold

/-- One step does not bring a row back. -/
theorem Gone.step (h : Gone u s) {a : ServerAction} (hstep : ServerStep cfg s a s') :
    Gone u s' := by
  have hnil := List.not_mem_nil (a := u)
  cases hstep with
  | quiet hsame => exact h.untouched hnil hsame
  | recorded hsame =>
      obtain ⟨hdrawn, hrow⟩ := h.untouched hnil hsame
      exact ⟨hdrawn, hrow⟩
  | @create _ id _ _ hdraw hsame =>
      obtain ⟨-, hfresh, rfl⟩ := drawUserID_eq_some hdraw
      have hne : u ∉ [id] := by
        rintro hmem
        exact hfresh (List.mem_singleton.mp hmem ▸ h.drawn)
      have hdrawn : Gone u { s with userIDs := id :: s.userIDs } :=
        ⟨List.mem_cons_of_mem _ h.drawn, h.row⟩
      exact hdrawn.untouched hne hsame
  | login hadmits hsame =>
      obtain ⟨hdrawn, hrow⟩ := h.untouched hnil hsame
      exact ⟨hdrawn, hrow⟩
  | logout => exact ⟨h.drawn, h.row⟩
  | changePassword hsession hsame =>
      obtain ⟨hdrawn, hrow⟩ := h.untouched hnil hsame
      exact ⟨hdrawn, hrow⟩
  | provider => exact ⟨h.drawn, h.row⟩

/-- Nobody has the password of a user who is gone. -/
theorem Gone.not_presents (h : Gone u s) {ctx : RequestContext} {req : LoginRequest}
    {user : UserRow} (hpresents : Presents cfg ctx s req user) : user.id ≠ u := by
  rintro rfl
  exact h.row (List.mem_map.mpr ⟨user, hpresents.mem, rfl⟩)

/-- A deletion removes the row for good. -/
theorem gone_of_deleteUser (hinv : AccountInv s) {ctx : RequestContext}
    (h : (handleDeleteUser cfg ctx s u).1 = .ok ())
    (hstep : serverStep cfg s (.deleteUser ctx u) = some s') : Gone u s' := by
  have hmem := hinv.users (Removes.mem_users (.delete h))
  obtain rfl := Option.some.inj hstep
  rw [handleDeleteUser] at h ⊢
  split at h
  · simp [newError] at h
  · simp [newError] at h
  · next rows hrows =>
      have hrow : u ∉ rows.map (·.id) := by
        rw [(usersDelete_eq_rows hrows).2]
        simp
      simp only [conclude, ServerState.record]
      split <;> exact ⟨hmem, hrow⟩

end Deletion

/-- **When a deletion is final.** After a deletion nobody logs in as the user any more, so it
is final as soon as nothing of the user is left in the cache, and no check-in comes up with
one of the user's device credentials for something the user has access to. -/
theorem deletion_final_of_keptOut {cfg : AccountConfig} {now : Int} {clients : List OidcClient}
    {users : List UserRow} (hids : ∀ user ∈ users, user.id ≠ "") {as : List ServerAction}
    {s₁ : ServerState}
    (hrun : run (serverStep cfg) (ServerState.start now clients users) as = some s₁)
    {u : String} {ctx : RequestContext} (hdeletes : (handleDeleteUser cfg ctx s₁ u).1 = .ok ())
    {s₂ : ServerState} (hstep : serverStep cfg s₁ (.deleteUser ctx u) = some s₂)
    (hleft : NothingLeft u s₁) {bs : List ServerAction}
    (hguard : Guarded (serverStep cfg)
      (fun s a => ∀ c, a = .checkin c → StaysOut cfg u s (.checkin c)) s₂ bs)
    {s₃ : ServerState} (hcontinue : run (serverStep cfg) s₂ bs = some s₃) : Shut u s₂ s₃ := by
  have hinv := accountInv_run hids hrun
  have hremoves : Removes cfg s₁ u (.deleteUser ctx u) := .delete hdeletes
  have hgone := gone_of_deleteUser hinv hdeletes hstep
  have hstays : Guarded (serverStep cfg) (StaysOut cfg u) s₂ bs := by
    refine hguard.strengthen (P := Gone u) (fun s a hg hcheckin => ?_)
      (fun s a s' hg hs => hg.step (serverStep_cases hs)) hgone
    cases a with
    | login ctx body sessionID =>
        cases body with
        | none => trivial
        | some req => exact fun user hadmits => hg.not_presents hadmits.presents
    | externalLogin ctx body =>
        cases body with
        | none => trivial
        | some req => exact fun user hpresents => hg.not_presents hpresents
    | checkin c => exact hcheckin c rfl
    | _ => trivial
  exact (shut_iff_of_removes hinv hremoves hstep hleft hcontinue).mpr hstays

end IdpForge
