import IdpForge.LeaderLease
import IdpForge.PartialMap
import IdpForge.SecondFactor

/-!
# WebAuthn Ceremonies

A ceremony begins with a challenge, which is kept for five minutes in the cache under a key of
the user and the kind of the ceremony, and finishes with the response of an authenticator, which
the WebAuthn library checks against the kept session. The finishing calls leave the session in
the cache, so nothing keeps the same response from being presented again.

The calls run one at a time, on any users and at any times. The library is a parameter: what it
makes of a response depends on the user, the session and the response alone. A challenge is
drawn at random and has not been drawn before.

## Main results

* `finishRegistration_eq_ok_iff`, `finishLogin_eq_ok_iff`: when a ceremony finishes.
* `CeremonyState.Sound.step`: which sessions have been redeemed.
* `challenges_redeemed_once_iff`: the runs along which no challenge is redeemed twice and no
  credential id is stored twice.
* `challenge_redeemed_twice`: a response that is sent twice.
-/

open PartialMap TransitionSystem

namespace IdpForge

/-! ### The library -/

/-- `webAuthnUser`. -/
structure WebAuthnUser where
  id : String
  username : String
  credentials : List WebAuthnCredential
  deriving DecidableEq, Repr

/-- `gowebauthn.SessionData`: the challenge and what else the library keeps. -/
structure WebAuthnSessionData (σ : Type) where
  challenge : String
  rest : σ
  deriving DecidableEq, Repr

/-- The library: what it keeps for a new challenge, how it reads a response, and what it makes
of one. -/
structure WebAuthnLibrary (σ π ρ : Type) where
  beginRegistration : WebAuthnUser → Except String σ
  parseCreation : List UInt8 → Except String π
  createCredential : WebAuthnUser → WebAuthnSessionData σ → π → Except String WebAuthnCredential
  beginLogin : WebAuthnUser → Except String σ
  parseAssertion : List UInt8 → Except String ρ
  validateLogin : WebAuthnUser → WebAuthnSessionData σ → ρ → Except String WebAuthnCredential

/-- The kinds of ceremonies. -/
inductive Ceremony where
  | registration | login
  deriving DecidableEq, Repr

/-- What a ceremony is pending under. -/
def Ceremony.pendingKey (userID : String) : Ceremony → String
  | .registration => "reg:" ++ userID
  | .login => "login:" ++ userID

/-- The cache key of a pending ceremony. -/
def Ceremony.cacheKey (userID : String) (ceremony : Ceremony) : String :=
  "webauthn:session:" ++ ceremony.pendingKey userID

/-- The `sessionTTL` of package `webauthn`, in seconds. -/
def webauthnSessionTTL : Int := 300

/-- The calls of the database and the cache. -/
inductive CeremonyOp where
  | load | storeSession | readSession | reload | save
  deriving DecidableEq, Repr

/-- How the calls of a request end, and the text of an error. -/
structure CeremonyContext where
  ending : CeremonyOp → StatementEnd
  errorText : String

/-- The clock, the tables and the pending ceremonies; the challenges that were issued, the
challenges of the calls that finished without an error, and the keys whose pending ceremony has
been finished so. -/
structure CeremonyState (σ : Type) where
  now : Int
  factors : FactorState
  sessions : Expiring String (WebAuthnSessionData σ)
  issued : List String
  redeemed : List String
  finished : String → Bool

/-- Users without credentials, and no ceremony. -/
def CeremonyState.start (σ : Type) (now : Int) (users : List UserRow) : CeremonyState σ :=
  ⟨now, ⟨users, fun _ => [], []⟩, fun _ => none, [], [], fun _ => false⟩

/-! ### The calls -/

/-- `fmt.Errorf` with the context in front. -/
def wrapError {α : Type} (context : String) (r : Except String α) : Except String α :=
  r.mapError (context ++ ·)

section Calls

variable {σ π ρ : Type} (lib : WebAuthnLibrary σ π ρ) (ctx : CeremonyContext)
  (s : CeremonyState σ) (userID : String)

/-- `Load`. -/
def loadUser (op : CeremonyOp) : Except String WebAuthnUser :=
  if ctx.ending op ≠ .done then .error ctx.errorText
  else
    match s.factors.users.find? fun row => row.id = userID with
    | none => .error "sql: no rows in result set"
    | some row => .ok ⟨userID, row.username, s.factors.credentials userID⟩

/-- `getSession`. -/
def getSession (ceremony : Ceremony) : Except String (WebAuthnSessionData σ) :=
  if ctx.ending .readSession ≠ .done then .error ctx.errorText
  else
    match get s.sessions s.now (ceremony.cacheKey userID) with
    | none => .error ("no pending webauthn ceremony for " ++ ceremony.pendingKey userID)
    | some data => .ok data

/-- The entry that `putSession` leaves. -/
def putSession (ceremony : Ceremony) (data : WebAuthnSessionData σ) : CeremonyState σ :=
  { s with
    sessions := set s.sessions s.now (ceremony.cacheKey userID) data webauthnSessionTTL
    issued := data.challenge :: s.issued
    finished := Function.update s.finished (ceremony.cacheKey userID) false }

/-- `BeginRegistration` and `BeginLogin`, which answer with the challenge. -/
def beginCeremony (ceremony : Ceremony) (options : WebAuthnUser → Except String σ)
    (challenge : String) : Except String String × CeremonyState σ :=
  match loadUser ctx s userID .load >>= options with
  | .error e => (.error e, s)
  | .ok rest =>
      match ctx.ending .storeSession with
      | .done => (.ok challenge, putSession s userID ceremony ⟨challenge, rest⟩)
      | .lost => (.error ctx.errorText, putSession s userID ceremony ⟨challenge, rest⟩)
      | .failed => (.error ctx.errorText, s)

/-- `BeginRegistration`. -/
def beginRegistration (challenge : String) : Except String String × CeremonyState σ :=
  beginCeremony ctx s userID .registration lib.beginRegistration challenge

/-- `BeginLogin`. -/
def beginLogin (challenge : String) : Except String String × CeremonyState σ :=
  beginCeremony ctx s userID .login lib.beginLogin challenge

/-- `FinishRegistration` up to the credential it stores. -/
def createdCredential (response : List UInt8) : Except String WebAuthnCredential := do
  let user ← loadUser ctx s userID .load
  let session ← getSession ctx s userID .registration
  let parsed ← wrapError "parse registration response: " (lib.parseCreation response)
  wrapError "finish registration: " (lib.createCredential user session parsed)

/-- The state after the statement of `save`. -/
def savedCredentials (creds : List WebAuthnCredential) : CeremonyState σ :=
  { s with factors := (saveCredentials (fun _ => false) s.factors userID creds).getD s.factors }

/-- `AddCredential`, when some of its statements fail. -/
def storeCredential (cred : WebAuthnCredential) : Except String Unit × CeremonyState σ :=
  match loadUser ctx s userID .reload with
  | .error e => (.error e, s)
  | .ok user =>
      match ctx.ending .save with
      | .done => (.ok (), savedCredentials s userID (user.credentials ++ [cred]))
      | .lost => (.error ctx.errorText, savedCredentials s userID (user.credentials ++ [cred]))
      | .failed => (.error ctx.errorText, s)

/-- `FinishRegistration`. -/
def finishRegistration (response : List UInt8) : Except String Unit × CeremonyState σ :=
  match createdCredential lib ctx s userID response with
  | .error e => (.error e, s)
  | .ok cred => storeCredential ctx s userID cred

/-- `FinishLogin`, which changes nothing. -/
def finishLogin (response : List UInt8) : Except String WebAuthnCredential := do
  let user ← loadUser ctx s userID .load
  let session ← getSession ctx s userID .login
  let parsed ← wrapError "parse login response: " (lib.parseAssertion response)
  wrapError "finish login: " (lib.validateLogin user session parsed)

/-- A call that has finished the pending ceremony without an error. -/
def CeremonyState.redeem (ceremony : Ceremony) : CeremonyState σ :=
  match get s.sessions s.now (ceremony.cacheKey userID) with
  | none => s
  | some session =>
      { s with
        redeemed := session.challenge :: s.redeemed
        finished := Function.update s.finished (ceremony.cacheKey userID) true }

end Calls

/-- A call, or the passing of time. -/
inductive CeremonyAction where
  | beginRegistration (ctx : CeremonyContext) (userID challenge : String)
  | finishRegistration (ctx : CeremonyContext) (userID : String) (response : List UInt8)
  | beginLogin (ctx : CeremonyContext) (userID challenge : String)
  | finishLogin (ctx : CeremonyContext) (userID : String) (response : List UInt8)
  | tick (d : Nat)

section Steps

variable {σ π ρ : Type} (lib : WebAuthnLibrary σ π ρ)

/-- One step. Challenges do not repeat. -/
def ceremonyStep (s : CeremonyState σ) : CeremonyAction → Option (CeremonyState σ)
  | .beginRegistration ctx userID challenge =>
      if challenge ∈ s.issued then none
      else some (beginRegistration lib ctx s userID challenge).2
  | .finishRegistration ctx userID response =>
      match finishRegistration lib ctx s userID response with
      | (.ok (), t) => some (t.redeem userID .registration)
      | (.error _, t) => some t
  | .beginLogin ctx userID challenge =>
      if challenge ∈ s.issued then none
      else some (beginLogin lib ctx s userID challenge).2
  | .finishLogin ctx userID response =>
      match finishLogin lib ctx s userID response with
      | .ok _ => some (s.redeem userID .login)
      | .error _ => some s
  | .tick d => some { s with now := s.now + d }

/-- No challenge has been redeemed twice, and no user has a credential id twice. -/
def RedeemedOnce (s : CeremonyState σ) : Prop :=
  s.redeemed.Nodup ∧ ∀ userID, ((s.factors.credentials userID).map (·.id)).Nodup

/-- A response that is accepted is the first one for its pending ceremony, and a credential that
gets stored does not have the id of one the user has already. -/
def FirstResponse (s : CeremonyState σ) : CeremonyAction → Prop
  | .finishRegistration ctx userID response =>
      ∀ cred, createdCredential lib ctx s userID response = .ok cred →
        ctx.ending .reload = .done →
        ((ctx.ending .save).executes = true →
          cred.id ∉ (s.factors.credentials userID).map (·.id)) ∧
        (ctx.ending .save = .done → s.finished (Ceremony.registration.cacheKey userID) = false)
  | .finishLogin ctx userID response =>
      (finishLogin lib ctx s userID response).isOk = true →
        s.finished (Ceremony.login.cacheKey userID) = false
  | _ => True

end Steps

/-! ### When a ceremony finishes -/

/-- A chain of fallible steps succeeds when each of them does. -/
theorem except_bind_eq_ok_iff {ε α β : Type} {x : Except ε α} {f : α → Except ε β} {b : β} :
    x >>= f = .ok b ↔ ∃ a, x = .ok a ∧ f a = .ok b := by
  cases x <;> simp [bind, Except.bind]

/-- The context of an error does not make one. -/
theorem wrapError_eq_ok_iff {α : Type} {context : String} {r : Except String α} {a : α} :
    wrapError context r = .ok a ↔ r = .ok a := by
  cases r <;> simp [wrapError, Except.mapError]

section Specs

variable {σ π ρ : Type} {lib : WebAuthnLibrary σ π ρ} {ctx : CeremonyContext}
  {s : CeremonyState σ} {userID : String} {response : List UInt8}

/-- `Load` finds a user that exists. -/
theorem loadUser_eq_ok_iff {op : CeremonyOp} {user : WebAuthnUser} :
    loadUser ctx s userID op = .ok user ↔ ctx.ending op = .done ∧
      ∃ row, s.factors.users.find? (fun row => row.id = userID) = some row ∧
        ⟨userID, row.username, s.factors.credentials userID⟩ = user := by
  rw [loadUser]
  cases s.factors.users.find? fun row => row.id = userID with
  | none => by_cases hdone : ctx.ending op = .done <;> simp [hdone]
  | some row => by_cases hdone : ctx.ending op = .done <;> simp [hdone]

/-- `getSession` finds the pending ceremony while it lives. -/
theorem getSession_eq_ok_iff {ceremony : Ceremony} {session : WebAuthnSessionData σ} :
    getSession ctx s userID ceremony = .ok session ↔ ctx.ending .readSession = .done ∧
      get s.sessions s.now (ceremony.cacheKey userID) = some session := by
  rw [getSession]
  cases get s.sessions s.now (ceremony.cacheKey userID) with
  | none => by_cases hdone : ctx.ending .readSession = .done <;> simp [hdone]
  | some data => by_cases hdone : ctx.ending .readSession = .done <;> simp [hdone]

/-- A credential is created for a response the library accepts in the pending ceremony. -/
theorem createdCredential_eq_ok_iff {cred : WebAuthnCredential} :
    createdCredential lib ctx s userID response = .ok cred ↔
      ∃ user session parsed, loadUser ctx s userID .load = .ok user ∧
        getSession ctx s userID .registration = .ok session ∧
        lib.parseCreation response = .ok parsed ∧
        lib.createCredential user session parsed = .ok cred := by
  simp only [createdCredential, except_bind_eq_ok_iff, wrapError_eq_ok_iff]
  grind

/-- A login finishes for a response the library accepts in the pending ceremony. -/
theorem finishLogin_eq_ok_iff {cred : WebAuthnCredential} :
    finishLogin lib ctx s userID response = .ok cred ↔
      ∃ user session parsed, loadUser ctx s userID .load = .ok user ∧
        getSession ctx s userID .login = .ok session ∧
        lib.parseAssertion response = .ok parsed ∧
        lib.validateLogin user session parsed = .ok cred := by
  simp only [finishLogin, except_bind_eq_ok_iff, wrapError_eq_ok_iff]
  grind

/-- A second load of the user finds what the first one found. -/
theorem loadUser_of_loadUser {op op' : CeremonyOp} {user : WebAuthnUser}
    (h : loadUser ctx s userID op = .ok user) (hdone : ctx.ending op' = .done) :
    loadUser ctx s userID op' = .ok user ∧ user.credentials = s.factors.credentials userID := by
  obtain ⟨-, row, hrow, rfl⟩ := loadUser_eq_ok_iff.mp h
  exact ⟨loadUser_eq_ok_iff.mpr ⟨hdone, row, hrow, rfl⟩, rfl⟩

/-- `AddCredential` after the first load. -/
theorem storeCredential_eq {user : WebAuthnUser} {cred : WebAuthnCredential}
    (hload : loadUser ctx s userID .load = .ok user) :
    storeCredential ctx s userID cred =
      if ctx.ending .reload ≠ .done ∨ ctx.ending .save = .failed then (.error ctx.errorText, s)
      else
        (if ctx.ending .save = .done then .ok () else .error ctx.errorText,
          savedCredentials s userID (s.factors.credentials userID ++ [cred])) := by
  by_cases hreload : ctx.ending .reload = .done
  · obtain ⟨hagain, hcreds⟩ := loadUser_of_loadUser hload hreload
    rw [storeCredential, hagain, ← hcreds]
    cases hsave : ctx.ending .save <;> simp [hreload]
  · have herror : loadUser ctx s userID .reload = .error ctx.errorText := by
      rw [loadUser, if_pos hreload]
    rw [storeCredential, herror, if_pos (Or.inl hreload)]

variable (lib ctx s userID response) in
/-- **Registration.** What it leaves. -/
theorem finishRegistration_cases :
    (∃ e, finishRegistration lib ctx s userID response = (.error e, s) ∧
      ∀ cred, createdCredential lib ctx s userID response = .ok cred →
        ctx.ending .reload = .done → ctx.ending .save = .failed) ∨
    ∃ cred, createdCredential lib ctx s userID response = .ok cred ∧
      ctx.ending .reload = .done ∧ (ctx.ending .save).executes = true ∧
      finishRegistration lib ctx s userID response =
        (if ctx.ending .save = .done then .ok () else .error ctx.errorText,
          savedCredentials s userID (s.factors.credentials userID ++ [cred])) := by
  cases hcreated : createdCredential lib ctx s userID response with
  | error e =>
      refine Or.inl ⟨e, ?_, by simp⟩
      rw [finishRegistration, hcreated]
  | ok cred =>
      obtain ⟨user, session, parsed, hload, -⟩ := createdCredential_eq_ok_iff.mp hcreated
      have hstore : finishRegistration lib ctx s userID response =
          storeCredential ctx s userID cred := by rw [finishRegistration, hcreated]
      rw [hstore, storeCredential_eq hload]
      by_cases hfails : ctx.ending .reload ≠ .done ∨ ctx.ending .save = .failed
      · rw [if_pos hfails]
        exact Or.inl ⟨_, rfl, fun _ _ hreload => hfails.resolve_left (not_not.mpr hreload)⟩
      · obtain ⟨hreload, hsave⟩ := not_or.mp hfails
        rw [if_neg hfails]
        refine Or.inr ⟨cred, rfl, not_not.mp hreload, ?_, rfl⟩
        cases hend : ctx.ending .save <;> simp_all [StatementEnd.executes]

/-- A registration finishes when a credential is created and then stored. -/
theorem finishRegistration_eq_ok_iff :
    (finishRegistration lib ctx s userID response).1 = .ok () ↔
      (∃ cred, createdCredential lib ctx s userID response = .ok cred) ∧
        ctx.ending .reload = .done ∧ ctx.ending .save = .done := by
  rcases finishRegistration_cases lib ctx s userID response with
    ⟨e, herror, hnot⟩ | ⟨cred, hcreated, hreload, -, hfinished⟩
  · rw [herror]
    simp only [reduceCtorEq, false_iff]
    rintro ⟨⟨cred, hcreated⟩, hreload, hsave⟩
    rw [hnot cred hcreated hreload] at hsave
    cases hsave
  · rw [hfinished]
    by_cases hsave : ctx.ending .save = .done <;> simp [hsave, hcreated, hreload]

end Specs

/-! ### Which ceremonies are pending -/

section Invariant

variable {σ π ρ : Type} {lib : WebAuthnLibrary σ π ρ} {ctx : CeremonyContext}
  {s s' : CeremonyState σ} {userID : String} {ceremony : Ceremony}

/-- Pending ceremonies have challenges of their own that were issued, and one has been finished
exactly when its challenge was redeemed. -/
structure CeremonyState.Sound (s : CeremonyState σ) : Prop where
  issued : ∀ key e, s.sessions key = some e → e.value.challenge ∈ s.issued
  redeemed : ∀ challenge ∈ s.redeemed, challenge ∈ s.issued
  own : ∀ key key' e e', s.sessions key = some e → s.sessions key' = some e' →
    e.value.challenge = e'.value.challenge → key = key'
  finished : ∀ key e, s.sessions key = some e →
    (s.finished key = true ↔ e.value.challenge ∈ s.redeemed)

/-- There is no ceremony at the start. -/
theorem CeremonyState.sound_start (now : Int) (users : List UserRow) :
    (CeremonyState.start σ now users).Sound :=
  ⟨by simp [CeremonyState.start], by simp [CeremonyState.start], by simp [CeremonyState.start],
    by simp [CeremonyState.start]⟩

/-- A new ceremony takes the place of the pending one. -/
theorem CeremonyState.Sound.putSession (h : s.Sound) {data : WebAuthnSessionData σ}
    (hnew : data.challenge ∉ s.issued) : (putSession s userID ceremony data).Sound := by
  obtain ⟨hissued, hredeemed, hown, hfinished⟩ := h
  have hother : ∀ key e, s.sessions key = some e → e.value.challenge ≠ data.challenge :=
    fun key e he heq => hnew (heq ▸ hissued key e he)
  refine ⟨fun key e he => ?_, fun c hc => List.mem_cons_of_mem _ (hredeemed c hc),
    fun key key' e e' he he' heq => ?_, fun key e he => ?_⟩
  · rcases update_eq_some_iff.mp he with ⟨-, hentry⟩ | ⟨-, hold⟩
    · rw [← Option.some.inj hentry]
      exact List.mem_cons_self
    · exact List.mem_cons_of_mem _ (hissued key e hold)
  · rcases update_eq_some_iff.mp he with ⟨rfl, hentry⟩ | ⟨-, hold⟩ <;>
      rcases update_eq_some_iff.mp he' with ⟨rfl, hentry'⟩ | ⟨-, hold'⟩
    · rfl
    · rw [← Option.some.inj hentry] at heq
      exact absurd heq.symm (hother key' e' hold')
    · rw [← Option.some.inj hentry'] at heq
      exact absurd heq (hother key e hold)
    · exact hown key key' e e' hold hold' heq
  · rcases update_eq_some_iff.mp he with ⟨rfl, hentry⟩ | ⟨hne, hold⟩
    · rw [← Option.some.inj hentry]
      have hfresh : data.challenge ∉ s.redeemed := fun hc => hnew (hredeemed _ hc)
      simpa [IdpForge.putSession] using hfresh
    · simpa [IdpForge.putSession, hne] using hfinished key e hold

/-- A call that finishes the pending ceremony redeems its challenge. -/
theorem CeremonyState.Sound.redeem (h : s.Sound) : (s.redeem userID ceremony).Sound := by
  obtain ⟨hissued, hredeemed, hown, hfinished⟩ := h
  rw [CeremonyState.redeem]
  split
  · exact ⟨hissued, hredeemed, hown, hfinished⟩
  · next session hget =>
      obtain ⟨pending, hpending, rfl, -⟩ := get_eq_some_iff.mp hget
      refine ⟨hissued, ?_, hown, fun key e he => ?_⟩
      · exact List.forall_mem_cons.mpr ⟨hissued _ _ hpending, hredeemed⟩
      · by_cases hkey : key = ceremony.cacheKey userID
        · subst hkey
          obtain rfl := Option.some.inj (hpending.symm.trans he)
          simp
        · have hne : e.value.challenge ≠ pending.value.challenge :=
            fun heq => hkey (hown _ _ _ _ he hpending heq)
          simpa [hkey, hne] using hfinished key e he

/-- The tables have no say in it. -/
theorem CeremonyState.Sound.savedCredentials (h : s.Sound) {creds : List WebAuthnCredential} :
    (savedCredentials s userID creds).Sound :=
  ⟨h.issued, h.redeemed, h.own, h.finished⟩

variable (ctx s userID ceremony) in
/-- What a begun ceremony leaves. -/
theorem beginCeremony_cases (options : WebAuthnUser → Except String σ) (challenge : String) :
    (beginCeremony ctx s userID ceremony options challenge).2 = s ∨
      ∃ rest, (beginCeremony ctx s userID ceremony options challenge).2 =
        IdpForge.putSession s userID ceremony ⟨challenge, rest⟩ := by
  rw [beginCeremony]
  split
  · exact Or.inl rfl
  · next rest hrest =>
      split
      · exact Or.inr ⟨rest, rfl⟩
      · exact Or.inr ⟨rest, rfl⟩
      · exact Or.inl rfl

/-- A ceremony begun with a new challenge. -/
theorem CeremonyState.Sound.beginCeremony (h : s.Sound) {options : WebAuthnUser → Except String σ}
    {challenge : String} (hnew : challenge ∉ s.issued) :
    (beginCeremony ctx s userID ceremony options challenge).2.Sound := by
  rcases beginCeremony_cases ctx s userID ceremony options challenge with hsame | ⟨rest, hput⟩
  · rw [hsame]
    exact h
  · rw [hput]
    exact h.putSession hnew

/-- **The step lemma.** Every step keeps the record of the pending ceremonies. -/
theorem CeremonyState.Sound.step {a : CeremonyAction} (h : s.Sound)
    (hstep : ceremonyStep lib s a = some s') : s'.Sound := by
  cases a with
  | beginRegistration ctx userID challenge =>
      rw [ceremonyStep] at hstep
      split at hstep
      · cases hstep
      · next hnew => exact Option.some.inj hstep ▸ h.beginCeremony hnew
  | finishRegistration ctx userID response =>
      rw [ceremonyStep] at hstep
      have hafter : (finishRegistration lib ctx s userID response).2.Sound := by
        rcases finishRegistration_cases lib ctx s userID response with
          ⟨e, herror, -⟩ | ⟨cred, -, -, -, hfinished⟩
        · rw [herror]
          exact h
        · rw [hfinished]
          exact h.savedCredentials
      split at hstep
      · next t heq =>
          rw [heq] at hafter
          exact Option.some.inj hstep ▸ hafter.redeem
      · next e t heq =>
          rw [heq] at hafter
          exact Option.some.inj hstep ▸ hafter
  | beginLogin ctx userID challenge =>
      rw [ceremonyStep] at hstep
      split at hstep
      · cases hstep
      · next hnew => exact Option.some.inj hstep ▸ h.beginCeremony hnew
  | finishLogin ctx userID response =>
      rw [ceremonyStep] at hstep
      split at hstep
      · exact Option.some.inj hstep ▸ h.redeem
      · exact Option.some.inj hstep ▸ h
  | tick d => exact Option.some.inj hstep ▸ ⟨h.issued, h.redeemed, h.own, h.finished⟩

/-! ### Challenges redeemed twice -/

/-- A beginning call redeems nothing and stores no credential. -/
theorem redeemedOnce_beginCeremony_iff {options : WebAuthnUser → Except String σ}
    {challenge : String} :
    RedeemedOnce (beginCeremony ctx s userID ceremony options challenge).2 ↔ RedeemedOnce s := by
  rcases beginCeremony_cases ctx s userID ceremony options challenge with hsame | ⟨rest, hput⟩
  · rw [hsame]
  · rw [hput]
    exact Iff.rfl

/-- A redemption is the first one of its challenge when the pending ceremony has not been
finished. -/
theorem redeemedOnce_redeem_iff (h : s.Sound) {session : WebAuthnSessionData σ}
    (hget : get s.sessions s.now (ceremony.cacheKey userID) = some session) :
    RedeemedOnce (s.redeem userID ceremony) ↔
      s.finished (ceremony.cacheKey userID) = false ∧ RedeemedOnce s := by
  obtain ⟨pending, hpending, rfl, -⟩ := get_eq_some_iff.mp hget
  have hfinished := h.finished _ _ hpending
  rw [RedeemedOnce, CeremonyState.redeem, hget, ← Bool.not_eq_true, hfinished, RedeemedOnce]
  dsimp only
  rw [List.nodup_cons, and_assoc]

/-- A stored credential is the first one with its id when the user has none with it. -/
theorem redeemedOnce_savedCredentials_iff (h : RedeemedOnce s) {cred : WebAuthnCredential} :
    RedeemedOnce (savedCredentials s userID (s.factors.credentials userID ++ [cred])) ↔
      cred.id ∉ (s.factors.credentials userID).map (·.id) := by
  have hcolumn : (savedCredentials s userID
      (s.factors.credentials userID ++ [cred])).factors.credentials =
        Function.update s.factors.credentials userID
          (s.factors.credentials userID ++ [cred]) := rfl
  have happend : (((s.factors.credentials userID ++ [cred]).map (·.id)).Nodup) ↔
      cred.id ∉ (s.factors.credentials userID).map (·.id) := by
    rw [List.map_append, List.nodup_append]
    simp only [h.2 userID, true_and]
    simp
  rw [← happend, RedeemedOnce, hcolumn]
  constructor
  · rintro ⟨-, hall⟩
    simpa using hall userID
  · refine fun hnodup => ⟨h.1, fun userID' => ?_⟩
    by_cases huser : userID' = userID
    · subst huser
      simpa using hnodup
    · simpa [huser] using h.2 userID'

/-- **One step.** It keeps challenges redeemed once and credential ids apart exactly when an
accepted response is the first one. -/
theorem redeemedOnce_step_iff {a : CeremonyAction} (h : s.Sound) (honce : RedeemedOnce s)
    (hstep : ceremonyStep lib s a = some s') : RedeemedOnce s' ↔ FirstResponse lib s a := by
  cases a with
  | beginRegistration ctx userID challenge =>
      rw [ceremonyStep] at hstep
      split at hstep
      · cases hstep
      · obtain rfl := Option.some.inj hstep
        exact iff_of_true (redeemedOnce_beginCeremony_iff.mpr honce) trivial
  | beginLogin ctx userID challenge =>
      rw [ceremonyStep] at hstep
      split at hstep
      · cases hstep
      · obtain rfl := Option.some.inj hstep
        exact iff_of_true (redeemedOnce_beginCeremony_iff.mpr honce) trivial
  | tick d =>
      obtain rfl := Option.some.inj hstep
      exact iff_of_true honce trivial
  | finishLogin ctx userID response =>
      rw [ceremonyStep] at hstep
      cases hlogin : finishLogin lib ctx s userID response with
      | error e =>
          rw [hlogin] at hstep
          obtain rfl := Option.some.inj hstep
          refine iff_of_true honce fun hok => ?_
          rw [hlogin] at hok
          cases hok
      | ok cred =>
          rw [hlogin] at hstep
          obtain rfl := Option.some.inj hstep
          obtain ⟨user, session, parsed, -, hsession, -⟩ := finishLogin_eq_ok_iff.mp hlogin
          rw [redeemedOnce_redeem_iff h (getSession_eq_ok_iff.mp hsession).2, FirstResponse, hlogin]
          exact ⟨fun hfirst _ => hfirst.1, fun hfirst => ⟨hfirst rfl, honce⟩⟩
  | finishRegistration ctx userID response =>
      rw [ceremonyStep] at hstep
      rcases finishRegistration_cases lib ctx s userID response with
        ⟨e, herror, hnot⟩ | ⟨cred, hcreated, hreload, hsave, hfinished⟩
      · rw [herror] at hstep
        obtain rfl := Option.some.inj hstep
        refine iff_of_true honce fun cred hcreated hreload => ?_
        rw [hnot cred hcreated hreload]
        simp [StatementEnd.executes]
      · have hguard : FirstResponse lib s (.finishRegistration ctx userID response) ↔
            cred.id ∉ (s.factors.credentials userID).map (·.id) ∧ (ctx.ending .save = .done →
              s.finished (Ceremony.registration.cacheKey userID) = false) := by
          simp [FirstResponse, hcreated, hreload, hsave]
        rw [hfinished] at hstep
        rw [hguard]
        by_cases hdone : ctx.ending .save = .done
        · rw [if_pos hdone] at hstep
          obtain rfl := Option.some.inj hstep
          obtain ⟨user, session, parsed, -, hsession, -⟩ := createdCredential_eq_ok_iff.mp hcreated
          rw [redeemedOnce_redeem_iff h.savedCredentials (getSession_eq_ok_iff.mp hsession).2,
            redeemedOnce_savedCredentials_iff honce]
          simp only [hdone, true_imp_iff]
          exact and_comm
        · rw [if_neg hdone] at hstep
          obtain rfl := Option.some.inj hstep
          rw [redeemedOnce_savedCredentials_iff honce]
          simp [hdone]

/-- **Ceremonies.** Along a run each challenge is redeemed at most once and no user has two
credentials of one id exactly when a response is accepted only as the first one for its pending
ceremony, and a credential is stored only under an id the user has none with. -/
theorem challenges_redeemed_once_iff {now : Int} {users : List UserRow}
    {as : List CeremonyAction}
    (hrun : run (ceremonyStep lib) (.start σ now users) as = some s) :
    AlongRun (ceremonyStep lib) RedeemedOnce (.start σ now users) as ↔
      Guarded (ceremonyStep lib) (FirstResponse lib) (.start σ now users) as :=
  alongRun_iff_guarded (I := fun s => s.Sound) (P := RedeemedOnce)
    (fun _ _ _ h _ hstep => h.step hstep)
    (fun _ _ _ h honce _ hstep => redeemedOnce_step_iff h honce hstep)
    (CeremonyState.sound_start now users)
    ⟨List.nodup_nil, fun _ => List.nodup_nil⟩ (guarded_true _ _) hrun

end Invariant

/-- A library that accepts one response to the challenge "c", of an authenticator with the
credential id 7. -/
def exampleLibrary : WebAuthnLibrary Unit (String × List UInt8) (String × List UInt8) where
  beginRegistration _ := .ok ()
  parseCreation response :=
    if response = [1] then .ok ("c", [7]) else .error "Parse error for Registration"
  createCredential _ session parsed :=
    if parsed.1 = session.challenge then .ok ⟨parsed.2⟩ else .error "Error validating challenge"
  beginLogin user :=
    if user.credentials = [] then .error "Found no credentials for user" else .ok ()
  parseAssertion response :=
    if response = [1] then .ok ("c", [7]) else .error "Parse error for Assertion"
  validateLogin user session parsed :=
    if parsed.1 = session.challenge ∧ ⟨parsed.2⟩ ∈ user.credentials then .ok ⟨parsed.2⟩
    else .error "Error validating challenge"

/-- Calls that meet no failure. -/
def exampleCeremonyCalls : CeremonyContext := ⟨fun _ => .done, ""⟩

/-- A registration whose response is sent twice. -/
def registrationTwice : List CeremonyAction :=
  [.beginRegistration exampleCeremonyCalls "u" "c",
    .finishRegistration exampleCeremonyCalls "u" [1],
    .finishRegistration exampleCeremonyCalls "u" [1]]

/-- The run of that registration. -/
theorem challenges_redeemed_once_iff_example :
    ∃ s, run (ceremonyStep exampleLibrary) (.start Unit 0 [exampleUser]) registrationTwice =
        some s ∧
      (AlongRun (ceremonyStep exampleLibrary) RedeemedOnce (.start Unit 0 [exampleUser])
          registrationTwice ↔
        Guarded (ceremonyStep exampleLibrary) (FirstResponse exampleLibrary)
          (.start Unit 0 [exampleUser]) registrationTwice) :=
  ⟨_, rfl, challenges_redeemed_once_iff rfl⟩

/-- **A replayed response.** Both calls succeed: the challenge is redeemed twice and the credential
stored twice. -/
theorem challenge_redeemed_twice :
    ∃ s, run (ceremonyStep exampleLibrary) (.start Unit 0 [exampleUser]) registrationTwice =
        some s ∧
      s.redeemed = ["c", "c"] ∧ s.factors.credentials "u" = [⟨[7]⟩, ⟨[7]⟩] ∧ ¬ RedeemedOnce s := by
  refine ⟨_, rfl, rfl, rfl, fun honce => ?_⟩
  have hchallenges := honce.1
  revert hchallenges
  decide

end IdpForge
