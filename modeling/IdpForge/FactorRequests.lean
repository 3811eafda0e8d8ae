import IdpForge.SecondFactor
import IdpForge.UsersSteps

/-!
# Self-Service Requests for Second Factors

The handlers over the two services, for the user of the session that the request carries.
Turning TOTP off takes the current password; enrolling a secret takes the session alone,
whether or not one is in force. The requests run among all others of the server, save the
abstract `setFactors`, whose place they take. The WebAuthn requests that only begin a ceremony
or check a login write nothing here.

## Main results

* `FactorRequestStep`, `factorRequestStep_cases`: what each request does, by the operations of
  the services.
* `active_secret_kept_iff`: the runs along which the secret of a user with `mfa_enabled` stays
  as it is until it is disabled with the password.
-/

open PartialMap TransitionSystem

namespace IdpForge

/-- What a request on second factors meets. -/
structure FactorContext extends RequestContext where
  factorFails : FactorOp → Bool := fun _ => false
  /-- The text of an error of the database or a library. -/
  errorText : String := ""

/-- The server with the columns of the second factors. -/
structure FactorServer where
  server : ServerState
  credentials : String → List WebAuthnCredential
  factorHistory : List FactorEvent

/-- What the two services see. -/
def FactorServer.factors (w : FactorServer) : FactorState :=
  ⟨w.server.users, w.credentials, w.factorHistory⟩

/-- What the two services leave. -/
def FactorServer.withFactors (w : FactorServer) (s : FactorState) : FactorServer where
  server := { w.server with users := s.users }
  credentials := s.credentials
  factorHistory := s.history

/-- The answer of a handler, and the server it leaves. -/
abbrev FactorReply (α : Type) := Except FiberError α × FactorServer

section Handlers

variable (cfg : AccountConfig) (ctx : FactorContext) (w : FactorServer) (userID : String)

/-- `handleMFAEnroll`, with the secret and the URL of the generated key. -/
def handleMFAEnroll (key : Option (String × String)) : FactorReply (String × String) :=
  match usersGet ctx.fails w.server.users userID with
  | none => (newError 404 "user not found", w)
  | some _ =>
      match key with
      | none => (newError 500 ctx.errorText, w)
      | some (secret, url) =>
          match mfaEnroll ctx.factorFails w.factors userID (some secret) with
          | none => (newError 500 ctx.errorText, w)
          | some s => (.ok (secret, url), w.withFactors s)

/-- `handleMFAConfirm`; the body is `none` when it does not parse. -/
def handleMFAConfirm (body : Option String) : FactorReply Unit :=
  match body with
  | none => (newError 400 "invalid request body", w)
  | some code =>
      match mfaConfirm ctx.factorFails w.factors userID ctx.totpValidate code with
      | none => (newError 400 "invalid code", w)
      | some s => (.ok (), w.withFactors s)

/-- `handleMFAVerify`. -/
def handleMFAVerify (body : Option String) : FactorReply Unit :=
  match body with
  | none => (newError 400 "invalid request body", w)
  | some code =>
      if mfaVerify ctx.fails w.server.users ctx.totpValidate userID code = some true then
        (.ok (), w)
      else (newError 401 "invalid code", w)

/-- `handleMFADisable`. -/
def handleMFADisable (body : Option String) : FactorReply Unit :=
  match body with
  | none => (newError 400 "invalid request body", w)
  | some currentPassword =>
      match usersGet ctx.fails w.server.users userID with
      | none => (newError 404 "user not found", w)
      | some user =>
          let hash := (passwordHash ctx.fails w.server.users user.username).getD ""
          if hash = "" || !cfg.verifyPassword hash currentPassword then
            (newError 401 "current password is incorrect", w)
          else
            match mfaDisable ctx.factorFails w.factors userID with
            | none => (newError 500 "could not disable MFA", w)
            | some s => (.ok (), w.withFactors s)

/-- `handleWebAuthnRegisterFinish`, with the credential that `CreateCredential` returns for
the ceremony under way, `none` for an error up to there. -/
def handleWebAuthnRegisterFinish (created : Option WebAuthnCredential) : FactorReply Unit :=
  match loadCredentials ctx.factorFails w.factors userID with
  | none => (newError 400 ctx.errorText, w)
  | some _ =>
      match created with
      | none => (newError 400 ctx.errorText, w)
      | some cred =>
          match addCredential ctx.factorFails w.factors userID cred with
          | none => (newError 400 ctx.errorText, w)
          | some s => (.ok (), w.withFactors s)

end Handlers

/-- A handler behind the middleware, which refuses requests without the session of a user. -/
def FactorServer.asUser (ctx : FactorContext) (w : FactorServer) (cookie : String) {α : Type}
    (handler : String → FactorReply α) : FactorReply α :=
  match w.server.sessionUser ctx.toRequestContext cookie with
  | none => (newError 401 "not authenticated", w)
  | some userID => handler userID

/-- A request. -/
inductive FactorRequest where
  | mfaEnroll (ctx : FactorContext) (cookie : String) (key : Option (String × String))
  | mfaConfirm (ctx : FactorContext) (cookie : String) (body : Option String)
  | mfaVerify (ctx : FactorContext) (cookie : String) (body : Option String)
  | mfaDisable (ctx : FactorContext) (cookie : String) (body : Option String)
  | webAuthnRegisterFinish (ctx : FactorContext) (cookie : String)
      (created : Option WebAuthnCredential)
  | other (a : ServerAction)

/-- A request for something else. -/
def otherStep (cfg : AccountConfig) (w : FactorServer) : ServerAction → Option FactorServer
  | .setFactors _ _ _ => none
  | a => (serverStep cfg w.server a).map fun server => { w with server := server }

/-- The step function. A generated secret is never empty. -/
def factorRequestStep (cfg : AccountConfig) (w : FactorServer) :
    FactorRequest → Option FactorServer
  | .mfaEnroll ctx cookie key =>
      if key.map Prod.fst = some "" then none
      else some (w.asUser ctx cookie fun userID => handleMFAEnroll ctx w userID key).2
  | .mfaConfirm ctx cookie body =>
      some (w.asUser ctx cookie fun userID => handleMFAConfirm ctx w userID body).2
  | .mfaVerify ctx cookie body =>
      some (w.asUser ctx cookie fun userID => handleMFAVerify ctx w userID body).2
  | .mfaDisable ctx cookie body =>
      some (w.asUser ctx cookie fun userID => handleMFADisable cfg ctx w userID body).2
  | .webAuthnRegisterFinish ctx cookie created =>
      some (w.asUser ctx cookie fun userID =>
        handleWebAuthnRegisterFinish ctx w userID created).2
  | .other a => otherStep cfg w a

/-- The server as it starts. -/
def FactorServer.start (now : Int) (clients : List OidcClient) (users : List UserRow)
    (credentials : String → List WebAuthnCredential) : FactorServer where
  server := .start now clients users
  credentials := credentials
  factorHistory := []

/-! ### What a request does -/

/-- The request presents the current password of the user. -/
def PresentsCurrent (cfg : AccountConfig) (w : FactorServer) (userID current : String) : Prop :=
  ∃ user ∈ w.server.users, user.id = userID ∧ ∃ row ∈ w.server.users,
    row.username = user.username ∧ cfg.verifyPassword (row.passwordHash.getD "") current = true

/-- An enrollment by a user, with a generated key, fails. -/
def FactorRequest.EnrollFails (w : FactorServer) : FactorRequest → Prop
  | .mfaEnroll ctx cookie (some _) =>
      ∀ userID, w.server.sessionUser ctx.toRequestContext cookie = some userID →
        (usersGet ctx.fails w.server.users userID).isSome → ctx.factorFails .enroll = true
  | _ => True

/-- What a request can do. -/
inductive FactorRequestStep (cfg : AccountConfig) (w : FactorServer) :
    FactorRequest → FactorServer → Prop
  | refused {a : FactorRequest} (h : a.EnrollFails w) : FactorRequestStep cfg w a w
  | enroll {ctx : FactorContext} {cookie userID secret url : String}
      (hsession : w.server.sessionUser ctx.toRequestContext cookie = some userID)
      (hrow : (usersGet ctx.fails w.server.users userID).isSome) (hsecret : secret ≠ "")
      (hok : (FactorAction.enroll ctx.factorFails userID (some secret)).Succeeds w.factors) :
      FactorRequestStep cfg w (.mfaEnroll ctx cookie (some (secret, url)))
        (w.withFactors ((FactorAction.enroll ctx.factorFails userID (some secret)).effect
          w.factors))
  | confirm {ctx : FactorContext} {cookie userID code : String}
      (hsession : w.server.sessionUser ctx.toRequestContext cookie = some userID)
      (hok : (FactorAction.confirm ctx.factorFails userID ctx.totpValidate code).Succeeds
        w.factors) :
      FactorRequestStep cfg w (.mfaConfirm ctx cookie (some code))
        (w.withFactors ((FactorAction.confirm ctx.factorFails userID ctx.totpValidate
          code).effect w.factors))
  | disable {ctx : FactorContext} {cookie userID current : String}
      (hsession : w.server.sessionUser ctx.toRequestContext cookie = some userID)
      (hcurrent : PresentsCurrent cfg w userID current)
      (hanswer : (handleMFADisable cfg ctx w userID (some current)).1 = .ok ())
      (hok : (FactorAction.disable ctx.factorFails userID).Succeeds w.factors) :
      FactorRequestStep cfg w (.mfaDisable ctx cookie (some current))
        (w.withFactors ((FactorAction.disable ctx.factorFails userID).effect w.factors))
  | register {ctx : FactorContext} {cookie userID : String} {cred : WebAuthnCredential}
      (hsession : w.server.sessionUser ctx.toRequestContext cookie = some userID)
      (hok : (FactorAction.addCredential ctx.factorFails userID cred).Succeeds w.factors) :
      FactorRequestStep cfg w (.webAuthnRegisterFinish ctx cookie (some cred))
        (w.withFactors ((FactorAction.addCredential ctx.factorFails userID cred).effect
          w.factors))
  | other {a : ServerAction} {server : ServerState} (h : serverStep cfg w.server a = some server)
      (ha : ∀ id mfaSecret mfaEnabled, a ≠ .setFactors id mfaSecret mfaEnabled) :
      FactorRequestStep cfg w (.other a) { w with server := server }

section Inversion

variable {cfg : AccountConfig} {ctx : FactorContext} {w w' : FactorServer}

/-- A request without a session is refused. -/
theorem asUser_cases {α : Type} {cookie : String} {handler : String → FactorReply α}
    {a : FactorRequest}
    (hnone : w.server.sessionUser ctx.toRequestContext cookie = none → a.EnrollFails w)
    (h : ∀ userID, w.server.sessionUser ctx.toRequestContext cookie = some userID →
      FactorRequestStep cfg w a (handler userID).2) :
    FactorRequestStep cfg w a (w.asUser ctx cookie handler).2 := by
  rw [FactorServer.asUser.eq_def]
  split
  · next hsession => exact .refused (hnone hsession)
  · next userID hsession => exact h userID hsession

/-- The current password has been compared with the hash of the user's name. -/
theorem presentsCurrent_of_passwordHash {userID current : String} {user : UserRow}
    (huser : usersGet ctx.fails w.server.users userID = some user)
    (h : ¬ ((((passwordHash ctx.fails w.server.users user.username).getD "" = "") : Bool) ||
      !cfg.verifyPassword ((passwordHash ctx.fails w.server.users user.username).getD "")
        current) = true) :
    PresentsCurrent cfg w userID current := by
  obtain ⟨hmem, hid⟩ := usersGet_mem huser
  obtain ⟨row, hrow, -, hverify⟩ := current_of_passwordHash h
  exact ⟨user, hmem, hid, row, List.mem_of_find?_eq_some hrow,
    by simpa using List.find?_some hrow, hverify⟩

/-- **The inversion of the step function.** -/
theorem factorRequestStep_cases {a : FactorRequest} (h : factorRequestStep cfg w a = some w') :
    FactorRequestStep cfg w a w' := by
  cases a with
  | mfaEnroll ctx cookie key =>
      rw [factorRequestStep] at h
      split at h
      · simp at h
      · next hkey =>
          obtain rfl := Option.some.inj h
          cases key with
          | none =>
              refine asUser_cases (fun _ => trivial) fun userID hsession => ?_
              rw [handleMFAEnroll.eq_def]
              split <;> exact .refused trivial
          | some key =>
              refine asUser_cases (fun hnone userID hsession => ?_) fun userID hsession => ?_
              · simp [hnone] at hsession
              · cases huser : usersGet ctx.fails w.server.users userID with
                | none =>
                    rw [handleMFAEnroll, huser]
                    refine .refused fun userID' hsession' hrow => ?_
                    obtain rfl := Option.some.inj (hsession.symm.trans hsession')
                    simp [huser] at hrow
                | some user =>
                    by_cases hok : (FactorAction.enroll ctx.factorFails userID
                        (some key.1)).Succeeds w.factors
                    · have hreply : handleMFAEnroll ctx w userID (some key) =
                          (.ok key, w.withFactors ((FactorAction.enroll ctx.factorFails userID
                            (some key.1)).effect w.factors)) := by
                        simp only [handleMFAEnroll, huser, mfaEnroll_eq, if_pos hok]
                      rw [hreply]
                      exact .enroll hsession (Option.isSome_of_eq_some huser)
                        (by simpa using hkey) hok
                    · have hreply : (handleMFAEnroll ctx w userID (some key)).2 = w := by
                        simp only [handleMFAEnroll, huser, mfaEnroll_eq, if_neg hok]
                      rw [hreply]
                      refine .refused fun _ _ _ => ?_
                      by_contra hfails
                      exact hok ⟨rfl, by simpa using hfails⟩
  | mfaConfirm ctx cookie body =>
      obtain rfl := Option.some.inj h
      refine asUser_cases (fun _ => trivial) fun userID hsession => ?_
      rw [handleMFAConfirm.eq_def]
      split
      · exact .refused trivial
      · rw [mfaConfirm_eq]
        split
        · exact .refused trivial
        · next s hs =>
            split at hs
            · next hok =>
                obtain rfl := Option.some.inj hs
                exact .confirm hsession hok
            · simp at hs
  | mfaVerify ctx cookie body =>
      obtain rfl := Option.some.inj h
      refine asUser_cases (fun _ => trivial) fun userID hsession => ?_
      rw [handleMFAVerify.eq_def]
      split
      · exact .refused trivial
      · split <;> exact .refused trivial
  | mfaDisable ctx cookie body =>
      obtain rfl := Option.some.inj h
      refine asUser_cases (fun _ => trivial) fun userID hsession => ?_
      cases body with
      | none => exact .refused trivial
      | some current =>
          cases huser : usersGet ctx.fails w.server.users userID with
          | none =>
              have hreply : (handleMFADisable cfg ctx w userID (some current)).2 = w := by
                simp only [handleMFADisable, huser]
              rw [hreply]
              exact .refused trivial
          | some user =>
              by_cases hcurrent : ((((passwordHash ctx.fails w.server.users
                  user.username).getD "" = "") : Bool) ||
                !cfg.verifyPassword ((passwordHash ctx.fails w.server.users
                  user.username).getD "") current) = true
              · have hreply : (handleMFADisable cfg ctx w userID (some current)).2 = w := by
                  simp only [handleMFADisable, huser, if_pos hcurrent]
                rw [hreply]
                exact .refused trivial
              · by_cases hok : (FactorAction.disable ctx.factorFails userID).Succeeds w.factors
                · have hreply : handleMFADisable cfg ctx w userID (some current) =
                      (.ok (), w.withFactors
                        ((FactorAction.disable ctx.factorFails userID).effect w.factors)) := by
                    simp only [handleMFADisable, huser, if_neg hcurrent, mfaDisable_eq, if_pos hok]
                  rw [hreply]
                  exact .disable hsession (presentsCurrent_of_passwordHash huser hcurrent)
                    (congrArg Prod.fst hreply) hok
                · have hreply : (handleMFADisable cfg ctx w userID (some current)).2 = w := by
                    simp only [handleMFADisable, huser, if_neg hcurrent, mfaDisable_eq, if_neg hok]
                  rw [hreply]
                  exact .refused trivial
  | webAuthnRegisterFinish ctx cookie created =>
      obtain rfl := Option.some.inj h
      refine asUser_cases (fun _ => trivial) fun userID hsession => ?_
      rw [handleWebAuthnRegisterFinish.eq_def]
      split
      · exact .refused trivial
      · split
        · exact .refused trivial
        · rw [addCredential_eq]
          split
          · exact .refused trivial
          · next s hs =>
              split at hs
              · next hok =>
                  obtain rfl := Option.some.inj hs
                  exact .register hsession hok
              · simp at hs
  | other a =>
      rw [factorRequestStep, otherStep.eq_def] at h
      split at h
      · simp at h
      · next hne =>
          obtain ⟨server, hserver, rfl⟩ := Option.map_eq_some_iff.mp h
          exact .other hserver hne

end Inversion

/-! ### The secret in force -/

/-- `mfa_enabled` of the user. -/
def FactorServer.Enabled (w : FactorServer) (userID : String) : Prop :=
  ∃ row ∈ w.server.users, row.id = userID ∧ row.mfaEnabled = true

instance (w : FactorServer) (userID : String) : Decidable (w.Enabled userID) :=
  inferInstanceAs (Decidable (∃ row ∈ _, _))

/-- The secret that the second factor of the user's logins is verified against. -/
def FactorServer.secret (w : FactorServer) (userID : String) : Option String :=
  secretFor w.server.users userID

/-- The request turns TOTP off for the user and presents the user's current password. -/
def DisablesWithPassword (cfg : AccountConfig) (userID : String) (w : FactorServer) :
    FactorRequest → Prop
  | .mfaDisable ctx cookie (some current) =>
      w.server.sessionUser ctx.toRequestContext cookie = some userID ∧
        (handleMFADisable cfg ctx w userID (some current)).1 = .ok () ∧
        ∃ row ∈ w.server.users, row.id = userID ∧
          cfg.verifyPassword (row.passwordHash.getD "") current = true
  | _ => False

/-- The request is no enrollment, by the user and past all errors, of another secret while
`mfa_enabled` is true. -/
def EnrollsNoOther (userID : String) (w : FactorServer) : FactorRequest → Prop
  | .mfaEnroll ctx cookie (some (secret, _)) =>
      w.server.sessionUser ctx.toRequestContext cookie = some userID →
        (usersGet ctx.fails w.server.users userID).isSome → ctx.factorFails .enroll = false →
          w.Enabled userID → w.secret userID = some secret
  | _ => True

instance (cfg : AccountConfig) (userID : String) (w : FactorServer) (a : FactorRequest) :
    Decidable (DisablesWithPassword cfg userID w a) :=
  match a with
  | .mfaDisable _ _ (some _) => inferInstanceAs (Decidable (_ ∧ _ ∧ ∃ row ∈ _, _))
  | .mfaDisable _ _ none => inferInstanceAs (Decidable False)
  | .mfaEnroll .. => inferInstanceAs (Decidable False)
  | .mfaConfirm .. => inferInstanceAs (Decidable False)
  | .mfaVerify .. => inferInstanceAs (Decidable False)
  | .webAuthnRegisterFinish .. => inferInstanceAs (Decidable False)
  | .other _ => inferInstanceAs (Decidable False)

instance (userID : String) (w : FactorServer) (a : FactorRequest) :
    Decidable (EnrollsNoOther userID w a) :=
  match a with
  | .mfaEnroll _ _ (some _) => inferInstanceAs (Decidable (_ → _ → _ → _ → _))
  | .mfaEnroll _ _ none => inferInstanceAs (Decidable True)
  | .mfaDisable .. => inferInstanceAs (Decidable True)
  | .mfaConfirm .. => inferInstanceAs (Decidable True)
  | .mfaVerify .. => inferInstanceAs (Decidable True)
  | .webAuthnRegisterFinish .. => inferInstanceAs (Decidable True)
  | .other _ => inferInstanceAs (Decidable True)

/-- Every row of the user in the new table has its predecessor, with the same secret and with
`mfa_enabled` only if it still is. -/
def SecretKept (userID : String) (rows rows' : List UserRow) : Prop :=
  ∀ row' ∈ rows', row'.id = userID → ∃ row ∈ rows, row.id = userID ∧
    row.mfaSecret = row'.mfaSecret ∧ (row.mfaEnabled = true → row'.mfaEnabled = true)

/-- A user with `mfa_enabled`, in a table with its keys. -/
structure EnabledInv (userID : String) (w : FactorServer) : Prop where
  accounts : AccountInv w.server
  keyed : UsersKeyed w.server.users
  drawn : userID ∈ w.server.userIDs
  enabled : ∀ row ∈ w.server.users, row.id = userID → row.mfaEnabled = true

section Kept

variable {cfg : AccountConfig} {u : String} {w w' : FactorServer} {rows rows' : List UserRow}

/-- `secretFor` reads the row of the user. -/
theorem secretFor_of_mem (hkeyed : UsersKeyed rows) {row : UserRow} (hrow : row ∈ rows) :
    secretFor rows row.id = row.mfaSecret.filter (· ≠ "") := by
  have hfind : rows.find? (fun other => other.id = row.id) = some row := by
    obtain ⟨other, hother⟩ := Option.isSome_iff_exists.mp
      (List.find?_isSome.mpr ⟨row, hrow, by simp⟩ :
        (rows.find? fun other => other.id = row.id).isSome = true)
    have hid : other.id = row.id := by simpa using List.find?_some hother
    rw [hother, hkeyed.eq_of_id (List.mem_of_find?_eq_some hother) hrow hid]
  rw [secretFor, hfind, Option.bind_some]

/-- An update keeps the secrets of the users it is not about, and of its own user if it does
not write the secret. -/
theorem secretKept_updateWhere {id : String} {f : UserRow → UserRow}
    (hf : id = u → ∀ row, (f row).mfaSecret = row.mfaSecret ∧
      (row.mfaEnabled = true → (f row).mfaEnabled = true))
    (hid : ∀ row, (f row).id = row.id) : SecretKept u rows (updateWhere rows id f) := by
  rw [SecretKept, forall_mem_updateWhere]
  refine fun row hrow => ⟨fun hrowid hu => ?_, fun _ hu => ⟨row, hrow, hu, rfl, fun h => h⟩⟩
  rw [hid] at hu
  obtain ⟨hsecret, henabled⟩ := hf (hrowid.symm.trans hu) row
  exact ⟨row, hrow, hu, hsecret.symm, henabled⟩

/-- Other requests keep the secrets of all users whose ids were drawn. -/
theorem secretKept_of_usersStep {s : ServerState} {a : ServerAction}
    (hstep : UsersStep cfg s a rows') (hu : u ∈ s.userIDs)
    (ha : ∀ id mfaSecret mfaEnabled, a ≠ .setFactors id mfaSecret mfaEnabled) :
    SecretKept u s.users rows' := by
  cases hstep with
  | kept hsame =>
      intro row' hrow' hid
      obtain ⟨row, hrow, haccess⟩ := hsame.exists_mem hrow'
      have hrowid : row.id = row'.id :=
        (congrArg UserRow.id haccess :)
      have hsecret : row.mfaSecret = row'.mfaSecret :=
        (congrArg UserRow.mfaSecret haccess :)
      have henabled : row.mfaEnabled = row'.mfaEnabled :=
        (congrArg UserRow.mfaEnabled haccess :)
      exact ⟨row, hrow, hrowid.trans hid, hsecret, fun h => henabled ▸ h⟩
  | created hcreated =>
      intro row' hrow' hid
      rcases List.mem_append.mp hrow' with hold | hnew
      · exact ⟨row', hold, hid, rfl, fun h => h⟩
      · obtain rfl := List.mem_singleton.mp hnew
        exact absurd (hid ▸ hu) hcreated.fresh
  | reset => exact secretKept_updateWhere (fun _ _ => ⟨rfl, fun h => h⟩) fun _ => rfl
  | changed => exact secretKept_updateWhere (fun _ _ => ⟨rfl, fun h => h⟩) fun _ => rfl
  | factors => exact absurd rfl (ha _ _ _)
  | deleted => exact fun row' hrow' hid =>
      ⟨row', (List.mem_filter.mp hrow').1, hid, rfl, fun h => h⟩

/-- An operation on the factors updates the rows of its user, and neither ids nor names. -/
theorem effect_users (s : FactorState) (a : FactorAction) : ∃ id f,
    (a.effect s).users = updateWhere s.users id f ∧
      (∀ row, (f row).id = row.id) ∧ ∀ row, (f row).username = row.username := by
  cases a <;> exact ⟨_, _, rfl, fun _ => rfl, fun _ => rfl⟩

/-- The keys and the drawn ids stay as they are. -/
theorem FactorRequestStep.keyed {a : FactorRequest} (hstep : FactorRequestStep cfg w a w')
    (haccounts : AccountInv w.server) (hkeyed : UsersKeyed w.server.users) :
    AccountInv w'.server ∧ UsersKeyed w'.server.users ∧ w.server.userIDs ⊆ w'.server.userIDs := by
  have heffect : ∀ a : FactorAction, AccountInv (w.withFactors (a.effect w.factors)).server ∧
      UsersKeyed (w.withFactors (a.effect w.factors)).server.users ∧
        w.server.userIDs ⊆ (w.withFactors (a.effect w.factors)).server.userIDs := by
    intro a
    obtain ⟨id, f, husers, hid, hname⟩ := effect_users w.factors a
    simp only [FactorServer.withFactors, husers]
    exact ⟨haccounts.untouched (List.nil_subset _) (.ofUsers (map_id_updateWhere hid)),
      hkeyed.updateWhere hid hname, List.Subset.refl _⟩
  cases hstep with
  | refused => exact ⟨haccounts, hkeyed, List.Subset.refl _⟩
  | enroll => exact heffect _
  | confirm => exact heffect _
  | disable => exact heffect _
  | register => exact heffect _
  | other h ha =>
      refine ⟨haccounts.step (serverStep_cases h), hkeyed.step haccounts.users (usersStep_cases h),
        ?_⟩
      exact (serverStep_cases h).userIDs

/-- **What a request does to the secret in force.** It keeps it, or enrolls another one. -/
theorem secretKept_or_enrolls {a : FactorRequest} (hinv : EnabledInv u w)
    (hstep : FactorRequestStep cfg w a w') (hallowed : ¬ DisablesWithPassword cfg u w a) :
    (SecretKept u w.server.users w'.server.users ∧ EnrollsNoOther u w a) ∨
      ∃ ctx cookie secret url, a = .mfaEnroll ctx cookie (some (secret, url)) ∧ secret ≠ "" ∧
        w.server.sessionUser ctx.toRequestContext cookie = some u ∧
        (usersGet ctx.fails w.server.users u).isSome ∧ ctx.factorFails .enroll = false ∧
        w'.server.users = updateWhere w.server.users u fun row =>
          { row with mfaSecret := some secret } := by
  cases hstep with
  | refused hfails =>
      refine .inl ⟨fun row hrow hid => ⟨row, hrow, hid, rfl, fun h => h⟩, ?_⟩
      cases a with
      | mfaEnroll ctx cookie key =>
          cases key with
          | none => trivial
          | some key =>
              intro hsession hrow hok
              simp [hfails u hsession hrow] at hok
      | _ => trivial
  | @enroll ctx cookie userID secret url hsession hrow hsecret hok =>
      by_cases hu : userID = u
      · subst hu
        exact .inr ⟨ctx, cookie, secret, url, rfl, hsecret, hsession, hrow, hok.2, rfl⟩
      · refine .inl ⟨secretKept_updateWhere (fun h => absurd h hu) fun _ => rfl, ?_⟩
        exact fun hown => absurd (Option.some.inj (hsession.symm.trans hown)) hu
  | confirm hsession hok =>
      exact .inl ⟨secretKept_updateWhere (fun _ _ => ⟨rfl, fun _ => rfl⟩) fun _ => rfl, trivial⟩
  | @disable ctx cookie userID current hsession hcurrent hanswer hok =>
      by_cases hu : userID = u
      · subst hu
        obtain ⟨user, huser, hid, row, hrow, hname, hverify⟩ := hcurrent
        obtain rfl := hinv.keyed.eq_of_username hrow huser hname
        exact absurd ⟨hsession, hanswer, row, hrow, hid, hverify⟩ hallowed
      · exact .inl ⟨secretKept_updateWhere (fun h => absurd h hu) fun _ => rfl, trivial⟩
  | register hsession hok =>
      exact .inl ⟨secretKept_updateWhere (fun _ _ => ⟨rfl, fun _ => rfl⟩) fun _ => rfl, trivial⟩
  | other h ha =>
      exact .inl ⟨secretKept_of_usersStep (usersStep_cases h) hinv.drawn ha, trivial⟩

/-- The invariant holds until the user turns TOTP off. -/
theorem EnabledInv.step {a : FactorRequest} (hinv : EnabledInv u w)
    (hstep : FactorRequestStep cfg w a w') (hallowed : ¬ DisablesWithPassword cfg u w a) :
    EnabledInv u w' := by
  obtain ⟨haccounts, hkeyed, hdrawn⟩ := hstep.keyed hinv.accounts hinv.keyed
  refine ⟨haccounts, hkeyed, hdrawn hinv.drawn, ?_⟩
  rcases secretKept_or_enrolls hinv hstep hallowed with
    ⟨hkept, -⟩ | ⟨_, _, _, _, _, _, _, _, _, husers⟩
  · intro row' hrow' hid
    obtain ⟨row, hrow, hrowid, -, henabled⟩ := hkept row' hrow' hid
    exact henabled (hinv.enabled row hrow hrowid)
  · rw [husers, forall_mem_updateWhere]
    exact fun row hrow => ⟨fun hid _ => hinv.enabled row hrow hid, fun _ hid =>
      hinv.enabled row hrow hid⟩

/-- **What keeps the secret in force.** -/
theorem secret_eq_iff_enrollsNoOther {c : Option String} {a : FactorRequest}
    (hinv : EnabledInv u w) (hstep : FactorRequestStep cfg w a w')
    (hallowed : ¬ DisablesWithPassword cfg u w a) (hsecret : w.Enabled u → w.secret u = c) :
    (w'.Enabled u → w'.secret u = c) ↔ EnrollsNoOther u w a := by
  have hinv' : EnabledInv u w' := hinv.step hstep hallowed
  rcases secretKept_or_enrolls hinv hstep hallowed with
    ⟨hkept, hno⟩ | ⟨ctx, cookie, secret, url, rfl, hne, hsession, hrow, hok, husers⟩
  · refine ⟨fun _ => hno, fun _ => ?_⟩
    rintro ⟨row', hrow', rfl, -⟩
    obtain ⟨row, hrow, hid, hsame, -⟩ := hkept row' hrow' rfl
    have hbefore : w.secret row'.id = c := hsecret ⟨row, hrow, hid, hinv.enabled row hrow hid⟩
    calc w'.secret row'.id = row'.mfaSecret.filter (· ≠ "") :=
          secretFor_of_mem hinv'.keyed hrow'
      _ = row.mfaSecret.filter (· ≠ "") := by rw [hsame]
      _ = w.secret row'.id := by rw [← hid]; exact (secretFor_of_mem hinv.keyed hrow).symm
      _ = c := hbefore
  · obtain ⟨user, huser⟩ := Option.isSome_iff_exists.mp hrow
    obtain ⟨hmem, hid⟩ := usersGet_mem huser
    have henabled : w.Enabled u := ⟨user, hmem, hid, hinv.enabled user hmem hid⟩
    have henabled' : w'.Enabled u := by
      refine ⟨{ user with mfaSecret := some secret }, ?_, hid, hinv.enabled user hmem hid⟩
      rw [husers, updateWhere]
      exact List.mem_map.mpr ⟨user, hmem, by simp [hid]⟩
    have hafter : w'.secret u = some secret := by
      rw [FactorServer.secret, husers]
      exact secretFor_updateWhere_self (fun _ => rfl) (fun _ => rfl) hne
        (List.mem_map.mpr ⟨user, hmem, hid⟩)
    constructor
    · intro hkeep _ _ _ _
      rw [hsecret henabled, ← hkeep henabled', hafter]
    · intro hno _
      rw [hafter, ← hno hsession hrow hok henabled, hsecret henabled]

end Kept

/-- **When an active second factor stays as it is.** Take a run from the start up to a state
in which the user has `mfa_enabled`, and on from there without a successful request that
turns TOTP off with the user's current password. All along the second part the secret in
force is the same if and only if no request of the user enrolls another one while
`mfa_enabled` is true. -/
theorem active_secret_kept_iff {cfg : AccountConfig} {now : Int} {clients : List OidcClient}
    {users : List UserRow} {credentials : String → List WebAuthnCredential}
    {before as : List FactorRequest} {w w' : FactorServer} {u : String}
    (hkeyed : UsersKeyed users) (hids : ∀ user ∈ users, user.id ≠ "")
    (hbefore : run (factorRequestStep cfg) (.start now clients users credentials) before = some w)
    (henabled : w.Enabled u) (hrun : run (factorRequestStep cfg) w as = some w')
    (hkept : Guarded (factorRequestStep cfg) (fun t a => ¬ DisablesWithPassword cfg u t a) w as) :
    AlongRun (factorRequestStep cfg) (fun t => t.Enabled u → t.secret u = w.secret u) w as ↔
      Guarded (factorRequestStep cfg) (EnrollsNoOther u) w as := by
  have hstart : AccountInv (ServerState.start now clients users) :=
    accountInv_run hids (run_nil (serverStep cfg) _)
  have hinv : AccountInv w.server ∧ UsersKeyed w.server.users := by
    refine run_invariant (P := fun t => AccountInv t.server ∧ UsersKeyed t.server.users) ?_
      ⟨hstart, hkeyed⟩ hbefore
    intro t a t' ⟨haccounts, hkeyed⟩ hstep
    obtain ⟨haccounts', hkeyed', -⟩ := (factorRequestStep_cases hstep).keyed haccounts hkeyed
    exact ⟨haccounts', hkeyed'⟩
  obtain ⟨row, hrow, hid, hflag⟩ := henabled
  have henabledInv : EnabledInv u w := by
    refine ⟨hinv.1, hinv.2, hinv.1.users (List.mem_map.mpr ⟨row, hrow, hid⟩), ?_⟩
    intro other hother hotherid
    obtain rfl := hinv.2.eq_of_id hother hrow (hotherid.trans hid.symm)
    exact hflag
  refine alongRun_iff_guarded (I := EnabledInv u) ?_ ?_ henabledInv (fun _ => rfl) hkept hrun
  · exact fun t a t' ht hallowed hstep => ht.step (factorRequestStep_cases hstep) hallowed
  · exact fun t a t' ht hsecret hallowed hstep =>
      secret_eq_iff_enrollsNoOther ht (factorRequestStep_cases hstep) hallowed hsecret

/-! ### An example -/

/-- A secret is its own code. -/
def exampleFactorContext : FactorContext where
  totpValidate := fun code secret => code = secret

/-- The server with one user. -/
def exampleFactorServer : FactorServer :=
  .start 0 [exampleClient] [exampleUser] fun _ => []

/-- The user logs in, enrolls a secret and confirms it. -/
def exampleConfirmed : List FactorRequest :=
  [.other (exampleLogin "sid"), .mfaEnroll exampleFactorContext "sid" (some ("first", "url")),
    .mfaConfirm exampleFactorContext "sid" (some "first")]

/-- A code is checked, and TOTP is not turned off with a wrong password. -/
def exampleWrongDisable : List FactorRequest :=
  [.mfaVerify exampleFactorContext "sid" (some "first"),
    .mfaDisable exampleFactorContext "sid" (some "wrong")]

/-- Another secret is enrolled. -/
def exampleSwap : List FactorRequest :=
  [.mfaEnroll exampleFactorContext "sid" (some ("second", "url"))]

/-- The secret stays through the wrong password, and not through another enrollment. -/
theorem active_secret_kept_iff_example :
    ∃ w, run (factorRequestStep exampleAccounts) exampleFactorServer exampleConfirmed = some w ∧
      AlongRun (factorRequestStep exampleAccounts)
        (fun t => t.Enabled "u" → t.secret "u" = w.secret "u") w exampleWrongDisable ∧
      ¬ AlongRun (factorRequestStep exampleAccounts)
        (fun t => t.Enabled "u" → t.secret "u" = w.secret "u") w exampleSwap := by
  have hruns : (run (factorRequestStep exampleAccounts) exampleFactorServer exampleConfirmed).any
      (fun w => decide (w.Enabled "u") &&
        (run (factorRequestStep exampleAccounts) w exampleWrongDisable).isSome &&
        (run (factorRequestStep exampleAccounts) w exampleSwap).isSome &&
        decide (Guarded (factorRequestStep exampleAccounts)
          (fun t a => ¬ DisablesWithPassword exampleAccounts "u" t a) w exampleWrongDisable) &&
        decide (Guarded (factorRequestStep exampleAccounts)
          (fun t a => ¬ DisablesWithPassword exampleAccounts "u" t a) w exampleSwap) &&
        decide (Guarded (factorRequestStep exampleAccounts) (EnrollsNoOther "u") w
          exampleWrongDisable) &&
        !decide (Guarded (factorRequestStep exampleAccounts) (EnrollsNoOther "u") w
          exampleSwap)) = true := by
    decide +kernel
  obtain ⟨w, hw, hall⟩ := (Option.any_eq_true _ _).mp hruns
  simp only [Bool.and_eq_true, decide_eq_true_eq, Bool.not_eq_true', decide_eq_false_iff_not,
    Option.isSome_iff_exists] at hall
  obtain ⟨⟨⟨⟨⟨⟨henabled, w₁, hw₁⟩, w₂, hw₂⟩, hkept₁⟩, hkept₂⟩, hno⟩, hother⟩ := hall
  have hkeyed : UsersKeyed [exampleUser] := ⟨by decide, by decide⟩
  refine ⟨w, hw, ?_, ?_⟩
  · exact (active_secret_kept_iff hkeyed (by decide) hw henabled hw₁ hkept₁).mpr hno
  · rw [active_secret_kept_iff hkeyed (by decide) hw henabled hw₂ hkept₂]
    exact hother

/-- With a session alone, the secret in force is swapped. -/
theorem active_secret_swapped :
    ∃ w w', run (factorRequestStep exampleAccounts) exampleFactorServer exampleConfirmed = some w ∧
      w.Enabled "u" ∧ run (factorRequestStep exampleAccounts) w exampleSwap = some w' ∧
      w'.Enabled "u" ∧ w.secret "u" = some "first" ∧ w'.secret "u" = some "second" := by
  have hruns : (run (factorRequestStep exampleAccounts) exampleFactorServer exampleConfirmed).any
      (fun w => decide (w.Enabled "u" ∧ w.secret "u" = some "first") &&
        (run (factorRequestStep exampleAccounts) w exampleSwap).any fun w' =>
          decide (w'.Enabled "u" ∧ w'.secret "u" = some "second")) = true := by
    decide +kernel
  obtain ⟨w, hw, hall⟩ := (Option.any_eq_true _ _).mp hruns
  rw [Bool.and_eq_true, decide_eq_true_eq, Option.any_eq_true] at hall
  obtain ⟨⟨henabled, hfirst⟩, w', hw', hsecond⟩ := hall
  rw [decide_eq_true_eq] at hsecond
  exact ⟨w, w', hw, henabled, hw', hsecond.1, hfirst, hsecond.2⟩

end IdpForge
