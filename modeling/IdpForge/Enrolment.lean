import IdpForge.AccountSteps
import IdpForge.Since

/-!
# The Enrolment of Device Credentials

A credential is enrolled for a user by an administrator, and is no longer the user's after it has
been deleted or, where the database enforces references, after the user has been. The unique
index refuses a credential that is enrolled. A check-in resolves the scanned credentials with the
table as it is.

The runs are those of the server, with all of its requests.

## Main results

* `credentials_unique`: in every reachable state, a credential is enrolled once.
* `resolveUser_iff_enrolled`: in every run, a check-in finds the user for whom all the scanned
  credentials are enrolled.
-/

open TransitionSystem

namespace IdpForge

section Enrolment

variable (cfg : AccountConfig)

/-- The request enrols the credential. -/
def Enrols (row : DeviceCredential) (s : ServerState) (a : ServerAction) : Prop :=
  ∃ ctx userID body id, a = .addDeviceCredential ctx userID body id ∧
    (handleAddDeviceCredential cfg ctx s userID body id).1 = .ok row

/-- The request ends the enrolment: it deletes the credential, or the user with it. -/
def Unenrols (row : DeviceCredential) (s : ServerState) (a : ServerAction) : Prop :=
  (∃ ctx, a = .deleteDeviceCredential ctx row.id ∧
    (handleDeleteDeviceCredential ctx s row.id).1 = .ok ()) ∨
  cfg.driver.enforcesReferences = true ∧
    ∃ ctx, a = .deleteUser ctx row.userID ∧
      (handleDeleteUser cfg ctx s row.userID).1 = .ok ()

variable {cfg} {s s' : ServerState}

/-! ### One request -/

/-- The history does not hold credentials. -/
theorem conclude_credentials {α : Type} (reply : Reply α) (event : α → ServerEvent) :
    (conclude reply event).credentials = reply.2.credentials := by
  obtain ⟨answer, s⟩ := reply
  cases answer <;> rfl

/-- A failed attempt leaves the credentials. -/
theorem recordLoginFailure_credentials (ctx : RequestContext) (username : String) :
    (recordLoginFailure cfg ctx s username).credentials = s.credentials := by
  rw [recordLoginFailure]
  split
  · rfl
  · dsimp only
    split <;> rfl

/-- A login leaves the credentials. -/
theorem handleLogin_credentials (ctx : RequestContext) (body : Option LoginRequest)
    (sessionID : String) :
    (handleLogin cfg ctx s body sessionID).2.credentials = s.credentials := by
  have hclear (username : String) :
      (clearLoginFailures ctx s username).credentials = s.credentials := by
    rw [clearLoginFailures]
    split <;> rfl
  rw [handleLogin.eq_def]
  split
  · rfl
  · next req =>
      split
      · rfl
      · split
        · rfl
        · split
          · next counted _ =>
              cases counted
              · rfl
              · exact recordLoginFailure_credentials ctx req.username
          · split
            · exact recordLoginFailure_credentials ctx req.username
            · dsimp only
              split
              · exact hclear req.username
              · next s'' hcreate =>
                  rw [ServerState.createSession] at hcreate
                  obtain ⟨-, heq⟩ := Option.ite_none_left_eq_some.mp hcreate
                  rw [← Option.some.inj heq]
                  exact hclear req.username

/-- A logout leaves the credentials. -/
theorem handleLogout_credentials (ctx : RequestContext) (cookie : String) :
    (handleLogout ctx s cookie).credentials = s.credentials := by
  rw [handleLogout]
  split
  · rfl
  · rw [ServerState.destroySession]
    split <;> rfl

/-- A change of password leaves the credentials. -/
theorem handleChangePassword_credentials (ctx : RequestContext) (cookie : String)
    (body : Option (String × String)) (hash : Option String) :
    (handleChangePassword cfg ctx s cookie body hash).2.credentials = s.credentials := by
  have hclear (s : ServerState) (userID : String) :
      (s.clearMustChangePassword ctx cookie userID).credentials = s.credentials := by
    rw [ServerState.clearMustChangePassword]
    split <;> rfl
  rw [handleChangePassword.eq_def]
  split
  · rfl
  · split
    · rfl
    · split
      · rfl
      · split
        · rfl
        · dsimp only
          split
          · rfl
          · split
            · rfl
            · exact hclear _ _

/-- The creation of an account leaves the credentials. -/
theorem createAccount_credentials (ctx : RequestContext) (body : Option CreateUserRequest)
    (id : String) (hash : Option String) :
    (createAccount cfg ctx s body id hash).2.credentials = s.credentials := by
  rw [createAccount.eq_def]
  split
  · rfl
  · split
    · rfl
    · split
      · rfl
      · dsimp only
        split
        · rfl
        · split <;> rfl

/-- A user that is created leaves the credentials. -/
theorem drawUserID_credentials {id : String} (h : s.drawUserID id = some s') :
    s'.credentials = s.credentials := by
  rw [ServerState.drawUserID] at h
  obtain ⟨-, heq⟩ := Option.ite_none_left_eq_some.mp h
  rw [← Option.some.inj heq]

/-- A reset of a password leaves the credentials. -/
theorem handleResetUserPassword_credentials (ctx : RequestContext) (id : String)
    (hash : Option String) :
    (handleResetUserPassword cfg ctx s id hash).2.credentials = s.credentials := by
  rw [handleResetUserPassword.eq_def]
  split
  · rfl
  · split
    · rfl
    · split
      · rfl
      · rfl
      · split <;> rfl

/-- An update of an account leaves the credentials. -/
theorem updateAccount_credentials (ctx : RequestContext) (id : String) (input : UpdateInput) :
    (updateAccount ctx s id input).2.credentials = s.credentials := by
  rw [updateAccount.eq_def]
  split <;> rfl

/-- The credentials after a request. -/
def credentialsAfter (cfg : AccountConfig) (s : ServerState) : ServerAction → List DeviceCredential
  | .addDeviceCredential ctx userID body id =>
      (handleAddDeviceCredential cfg ctx s userID body id).2.credentials
  | .deleteDeviceCredential ctx id => (handleDeleteDeviceCredential ctx s id).2.credentials
  | .deleteUser ctx id => (handleDeleteUser cfg ctx s id).2.credentials
  | _ => s.credentials

/-- **Where the credentials change.** -/
theorem serverStep_credentials {a : ServerAction} (h : serverStep cfg s a = some s') :
    s'.credentials = credentialsAfter cfg s a := by
  cases a with
  | login ctx body sessionID =>
      rw [← Option.some.inj h, conclude_credentials, handleLogin_credentials]
      rfl
  | externalLogin ctx body =>
      rw [← Option.some.inj h, conclude_credentials]
      rfl
  | logout ctx cookie =>
      rw [← Option.some.inj h, handleLogout_credentials]
      rfl
  | changePassword ctx cookie body hash =>
      obtain ⟨-, heq⟩ := Option.ite_none_right_eq_some.mp h
      rw [← Option.some.inj heq, handleChangePassword_credentials]
      rfl
  | createUser ctx body id hash =>
      obtain ⟨-, heq⟩ := Option.ite_none_right_eq_some.mp h
      obtain ⟨s₁, hdraw, rfl⟩ := Option.map_eq_some_iff.mp heq
      exact (createAccount_credentials ..).trans (drawUserID_credentials hdraw)
  | externalCreateUser ctx client body id hash =>
      obtain ⟨-, heq⟩ := Option.ite_none_right_eq_some.mp h
      obtain ⟨s₁, hdraw, rfl⟩ := Option.map_eq_some_iff.mp heq
      refine Eq.trans ?_ (drawUserID_credentials hdraw)
      rw [handleExternalCreateUser]
      split
      · rfl
      · exact createAccount_credentials ..
  | resetUserPassword ctx id hash =>
      obtain ⟨-, heq⟩ := Option.ite_none_right_eq_some.mp h
      rw [← Option.some.inj heq, handleResetUserPassword_credentials]
      rfl
  | updateUser ctx id body =>
      rw [← Option.some.inj h, handleUpdateUser.eq_def]
      split
      · rfl
      · exact updateAccount_credentials ..
  | offboardUser ctx id =>
      rw [← Option.some.inj h, conclude_credentials, handleOffboardUser, updateAccount_credentials]
      rfl
  | deleteUser ctx id =>
      rw [← Option.some.inj h, conclude_credentials]
      rfl
  | setFactors id mfaSecret mfaEnabled =>
      rw [← Option.some.inj h]
      rfl
  | addDeviceCredential ctx userID body id =>
      rw [← Option.some.inj h]
      rfl
  | deleteDeviceCredential ctx id =>
      rw [← Option.some.inj h]
      rfl
  | checkin c =>
      rw [← Option.some.inj h, conclude_credentials, ServerState.handleCheckin]
      rfl
  | authorize ctx cookie q id code =>
      rw [serverStep, authorizeServerStep] at h
      split at h
      · obtain ⟨oidc, -, rfl⟩ := Option.map_eq_some_iff.mp h
        rfl
      · rw [← Option.some.inj h]
        rfl
  | oidc a =>
      rw [serverStep, ServerState.oidcStep.eq_def] at h
      split at h
      · cases h
      · obtain ⟨oidc, -, rfl⟩ := Option.map_eq_some_iff.mp h
        rfl

/-- A request to enrol is refused, or adds a credential that is not in the table. -/
theorem handleAddDeviceCredential_spec (cfg : AccountConfig) (ctx : RequestContext)
    (s : ServerState) (userID : String) (body : Option CredentialProof) (id : String) :
    (∃ e, handleAddDeviceCredential cfg ctx s userID body id = (.error e, s)) ∨
      ∃ row, handleAddDeviceCredential cfg ctx s userID body id =
          (.ok row, { s with credentials := s.credentials ++ [row] }) ∧
        ∀ r ∈ s.credentials, r.credentialType = row.credentialType →
          r.credentialRef ≠ row.credentialRef := by
  rw [handleAddDeviceCredential.eq_def]
  split
  · exact Or.inl ⟨_, rfl⟩
  · next req =>
      split
      · exact Or.inl ⟨_, rfl⟩
      · dsimp only
        split
        · exact Or.inl ⟨_, rfl⟩
        · next hfree =>
            refine Or.inr ⟨_, rfl, fun r hr htype href => hfree ?_⟩
            have hany : s.credentials.any (fun c =>
                c.credentialType = req.credentialType && c.credentialRef = req.credentialRef) =
                true :=
              List.any_eq_true.mpr ⟨r, hr, by simpa using ⟨htype, href⟩⟩
            rw [hany, Bool.or_true, Bool.true_or]

/-- **One request** enrols a credential, ends its enrolment, or leaves it. -/
theorem mem_credentials_step {a : ServerAction} (h : serverStep cfg s a = some s')
    (row : DeviceCredential) :
    row ∈ s'.credentials ↔
      Enrols cfg row s a ∨ row ∈ s.credentials ∧ ¬ Unenrols cfg row s a := by
  rw [serverStep_credentials h]
  cases a with
  | addDeviceCredential ctx userID body id =>
      have hends : ¬ Unenrols cfg row s (.addDeviceCredential ctx userID body id) := by
        simp [Unenrols]
      have hbegins : Enrols cfg row s (.addDeviceCredential ctx userID body id) ↔
          (handleAddDeviceCredential cfg ctx s userID body id).1 = .ok row := by
        constructor
        · rintro ⟨_, _, _, _, heq, hok⟩
          obtain ⟨rfl, rfl, rfl, rfl⟩ := ServerAction.addDeviceCredential.inj heq
          exact hok
        · exact fun hok => ⟨_, _, _, _, rfl, hok⟩
      rw [credentialsAfter, hbegins]
      obtain ⟨e, heq⟩ | ⟨new, heq, -⟩ :=
        handleAddDeviceCredential_spec cfg ctx s userID body id
      · simp [heq, hends]
      · rw [heq]
        simp [hends, or_comm, eq_comm]
  | deleteDeviceCredential ctx id =>
      have hbegins : ¬ Enrols cfg row s (.deleteDeviceCredential ctx id) := by simp [Enrols]
      have hends : Unenrols cfg row s (.deleteDeviceCredential ctx id) ↔
          row.id = id ∧ ctx.fails .deleteCredential = false := by
        constructor
        · rintro (⟨_, heq, hok⟩ | ⟨-, _, heq, -⟩)
          · obtain ⟨rfl, rfl⟩ := ServerAction.deleteDeviceCredential.inj heq
            rw [handleDeleteDeviceCredential] at hok
            cases hfails : ctx.fails .deleteCredential with
            | false => exact ⟨rfl, rfl⟩
            | true => simp [hfails, newError] at hok
          · cases heq
        · rintro ⟨rfl, hfails⟩
          exact Or.inl ⟨ctx, rfl, by simp [handleDeleteDeviceCredential, hfails]⟩
      rw [credentialsAfter, hends, handleDeleteDeviceCredential]
      cases hfails : ctx.fails .deleteCredential <;> simp [hbegins, newError]
  | deleteUser ctx id =>
      have hbegins : ¬ Enrols cfg row s (.deleteUser ctx id) := by simp [Enrols]
      have hends : Unenrols cfg row s (.deleteUser ctx id) ↔
          cfg.driver.enforcesReferences = true ∧ row.userID = id ∧
            (handleDeleteUser cfg ctx s id).1 = .ok () := by
        constructor
        · rintro (⟨_, heq, -⟩ | ⟨henforces, _, heq, hok⟩)
          · cases heq
          · obtain ⟨rfl, rfl⟩ := ServerAction.deleteUser.inj heq
            exact ⟨henforces, rfl, hok⟩
        · rintro ⟨henforces, rfl, hok⟩
          exact Or.inr ⟨henforces, ctx, rfl, hok⟩
      rw [credentialsAfter, hends, handleDeleteUser.eq_def]
      cases usersDelete ctx.fails s.users id with
      | failed => simp [hbegins, newError]
      | noRows => simp [hbegins, newError]
      | rows rows =>
          cases henforces : cfg.driver.enforcesReferences <;> simp [hbegins]
  | _ => simp [credentialsAfter, Enrols, Unenrols]

/-- Each request keeps the credentials unique. -/
theorem credentialsUnique_step {a : ServerAction} (hunique : CredentialsUnique s.credentials)
    (h : serverStep cfg s a = some s') : CredentialsUnique s'.credentials := by
  intro r hr r' hr' htype href
  rw [mem_credentials_step h] at hr hr'
  have hnew : ∀ row, Enrols cfg row s a → (∀ row', Enrols cfg row' s a → row' = row) ∧
      ∀ r ∈ s.credentials, r.credentialType = row.credentialType →
        r.credentialRef ≠ row.credentialRef := by
    rintro row ⟨ctx, userID, body, id, rfl, hok⟩
    obtain ⟨e, heq⟩ | ⟨new, heq, hfree⟩ :=
      handleAddDeviceCredential_spec cfg ctx s userID body id
    · rw [heq] at hok
      cases hok
    · rw [heq] at hok
      obtain rfl := Except.ok.inj hok
      refine ⟨?_, hfree⟩
      rintro row' ⟨_, _, _, _, heq', hok'⟩
      obtain ⟨rfl, rfl, rfl, rfl⟩ := ServerAction.addDeviceCredential.inj heq'
      rw [heq] at hok'
      exact (Except.ok.inj hok').symm
  rcases hr with hr | ⟨hr, -⟩ <;> rcases hr' with hr' | ⟨hr', -⟩
  · rw [(hnew r hr).1 r' hr']
  · exact absurd href.symm ((hnew r hr).2 r' hr' htype.symm)
  · exact absurd href ((hnew r' hr').2 r hr htype)
  · exact hunique r hr r' hr' htype href

/-! ### Runs -/

section Runs

variable {now : Int} {clients : List OidcClient} {users : List UserRow} {as : List ServerAction}

/-- In every reachable state, a credential is enrolled for one user at most. -/
theorem credentials_unique
    (hrun : run (serverStep cfg) (.start now clients users) as = some s) :
    CredentialsUnique s.credentials :=
  run_invariant (P := fun s => CredentialsUnique s.credentials)
    (fun _ _ _ hunique hstep => credentialsUnique_step hunique hstep)
    (fun _ h => absurd h List.not_mem_nil) hrun

/-- **Whom a check-in finds.** After any run of the server, the scanned credentials resolve to a
user exactly when there are some, their lookups go through, and each has been enrolled for the
user by a request that was accepted, and has not been unenrolled since. -/
theorem resolveUser_iff_enrolled
    (hrun : run (serverStep cfg) (.start now clients users) as = some s) (c : Checkin)
    (proofs : List CredentialProof) (u : String) :
    resolveUser (s.checkin c).env proofs = .ok u ↔
      proofs ≠ [] ∧ ∀ p ∈ proofs, c.env.lookupError p = none ∧
        ∃ id, Since (serverStep cfg) (.start now clients users)
          (Enrols cfg ⟨id, u, p.credentialType, p.credentialRef⟩)
          (Unenrols cfg ⟨id, u, p.credentialType, p.credentialRef⟩) as := by
  have hsince (row : DeviceCredential) : row ∈ s.credentials ↔
      Since (serverStep cfg) (.start now clients users) (Enrols cfg row) (Unenrols cfg row) as :=
    iff_since (I := fun _ => True) (P := fun s => row ∈ s.credentials)
      (fun _ _ _ _ _ => trivial) (fun _ _ _ _ hstep => mem_credentials_step hstep row) trivial
      List.not_mem_nil hrun
  have hunique : CredentialsUnique (s.checkin c).env.credentials := credentials_unique hrun
  simp only [resolveUser_eq_ok_iff, resolveCredential_eq_ok_iff hunique]
  refine and_congr_right fun _ => forall₂_congr fun p _ => and_congr_right fun _ => ?_
  simp only [← hsince]
  constructor
  · rintro ⟨⟨id, userID, credentialType, credentialRef⟩, hrow, htype, href, huser⟩
    dsimp only at htype href huser
    subst htype href huser
    exact ⟨id, hrow⟩
  · rintro ⟨id, hrow⟩
    exact ⟨_, hrow, rfl, rfl, rfl⟩

end Runs

end Enrolment

/-- Two credentials of a user, of which the second is deleted, and a request for the first that
is refused. -/
def exampleEnrolments : List ServerAction :=
  [.addDeviceCredential {} "u" (some ⟨"card", "1"⟩) "c1",
    .addDeviceCredential {} "u" (some ⟨"face", "9"⟩) "c2", .deleteDeviceCredential {} "c2",
    .addDeviceCredential {} "v" (some ⟨"card", "1"⟩) "c3"]

/-- A check-in with the card finds the user it was enrolled for, and none with both. -/
theorem resolveUser_iff_enrolled_example :
    ∃ s, run (serverStep exampleAccounts) exampleStart exampleEnrolments = some s ∧
      (∃ id, Since (serverStep exampleAccounts) exampleStart
        (Enrols exampleAccounts ⟨id, "u", "card", "1"⟩)
        (Unenrols exampleAccounts ⟨id, "u", "card", "1"⟩) exampleEnrolments) ∧
      resolveUser (s.checkin (exampleCheckin "door")).env [⟨"card", "1"⟩, ⟨"face", "9"⟩] =
        .error .notFound := by
  have hanswers : (run (serverStep exampleAccounts) exampleStart exampleEnrolments).map (fun s =>
      (resolveUser (s.checkin (exampleCheckin "door")).env [⟨"card", "1"⟩],
        resolveUser (s.checkin (exampleCheckin "door")).env [⟨"card", "1"⟩, ⟨"face", "9"⟩])) =
      some (.ok "u", .error .notFound) := by
    decide +kernel
  obtain ⟨s, hrun, hpair⟩ := Option.map_eq_some_iff.mp hanswers
  obtain ⟨hcard, hboth⟩ := Prod.mk.inj hpair
  obtain ⟨-, hall⟩ := (resolveUser_iff_enrolled hrun (exampleCheckin "door") _ "u").mp hcard
  exact ⟨s, hrun, (hall ⟨"card", "1"⟩ (List.mem_singleton_self _)).2, hboth⟩

end IdpForge
