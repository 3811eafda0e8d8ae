import IdpForge.AccountSteps

/-!
# Second Factors

A user's second factors are a TOTP secret, kept by the service of package `mfa`, and WebAuthn
credentials, kept by the credential store of package `webauthn`. Both services write the
column `mfa_enabled` with an eye on their own factor only, and the login that reads it takes
a TOTP code and nothing else.

The operations run one at a time, on any users. One that meets an error changes nothing. The
history records what became of the TOTP secrets, since no column says whether a secret was
confirmed.

## Main results

* `mfa_enabled_truthful_iff`: the runs along which `mfa_enabled` says whether the user has a
  confirmed factor.
* `no_lockout_iff`: the runs along which every user with `mfa_enabled` has a secret to log in
  with.
-/

open TransitionSystem

namespace IdpForge

/-- `gowebauthn.Credential`, of which the store reads the id. -/
structure WebAuthnCredential where
  id : List UInt8
  deriving DecidableEq, Repr

/-- The statements of the two services. -/
inductive FactorOp where
  | enroll | readSecret | confirm | disable | load | save
  deriving DecidableEq, Repr

/-- What became of the TOTP secret of a user. -/
inductive FactorEvent where
  | enrolled (userID : String)
  | confirmed (userID : String)
  | disabled (userID : String)
  deriving DecidableEq, Repr

/-- The user of an event. -/
def FactorEvent.userID : FactorEvent → String
  | .enrolled userID => userID
  | .confirmed userID => userID
  | .disabled userID => userID

/-- The rows of `users`, with their column `webauthn_credentials` by user id, and the history
with the latest event first. The column holds the JSON of the list; `NULL` and the empty text
are read as the empty list. -/
structure FactorState where
  users : List UserRow
  credentials : String → List WebAuthnCredential
  history : List FactorEvent

/-- `secretFor`, once its row is read: `NULL` and the empty secret are errors. -/
def secretFor (rows : List UserRow) (userID : String) : Option String :=
  ((rows.find? fun row => row.id = userID).bind (·.mfaSecret)).filter (· ≠ "")

/-! ### The operations -/

section Operations

variable (fails : FactorOp → Bool) (s : FactorState) (userID : String)

/-- `Enroll`, with the key of `totp.Generate`, `none` for its error. -/
def mfaEnroll (key : Option String) : Option FactorState :=
  match key with
  | none => none
  | some secret =>
      if fails .enroll then none
      else
        some { s with
          users := updateWhere s.users userID fun row => { row with mfaSecret := some secret }
          history := .enrolled userID :: s.history }

/-- `Confirm`, where `validate` is `totp.Validate` at the time of the call. -/
def mfaConfirm (validate : String → String → Bool) (code : String) : Option FactorState :=
  if fails .readSecret then none
  else
    match secretFor s.users userID with
    | none => none
    | some secret =>
        if !validate code secret || fails .confirm then none
        else
          some { s with
            users := updateWhere s.users userID fun row => { row with mfaEnabled := true }
            history := .confirmed userID :: s.history }

/-- `Disable`. -/
def mfaDisable : Option FactorState :=
  if fails .disable then none
  else
    some { s with
      users := updateWhere s.users userID fun row =>
        { row with mfaEnabled := false, mfaSecret := some "" }
      history := .disabled userID :: s.history }

/-- `Load`: the stored credentials of a user that exists. -/
def loadCredentials : Option (List WebAuthnCredential) :=
  if fails .load || !s.users.any (fun row => row.id = userID) then none
  else some (s.credentials userID)

/-- `save`. -/
def saveCredentials (creds : List WebAuthnCredential) : Option FactorState :=
  if fails .save then none
  else
    some { s with
      users := updateWhere s.users userID fun row => { row with mfaEnabled := 0 < creds.length }
      credentials := Function.update s.credentials userID creds }

/-- `AddCredential`. -/
def addCredential (cred : WebAuthnCredential) : Option FactorState :=
  (loadCredentials fails s userID).bind fun creds =>
    saveCredentials fails s userID (creds ++ [cred])

/-- `RemoveCredential`. -/
def removeCredential (credentialID : List UInt8) : Option FactorState :=
  (loadCredentials fails s userID).bind fun creds =>
    saveCredentials fails s userID (creds.filter fun c => c.id ≠ credentialID)

end Operations

/-- The operations on second factors, with the statements that fail. -/
inductive FactorAction where
  | enroll (fails : FactorOp → Bool) (userID : String) (key : Option String)
  | confirm (fails : FactorOp → Bool) (userID : String) (validate : String → String → Bool)
      (code : String)
  | disable (fails : FactorOp → Bool) (userID : String)
  | addCredential (fails : FactorOp → Bool) (userID : String) (cred : WebAuthnCredential)
  | removeCredential (fails : FactorOp → Bool) (userID : String) (credentialID : List UInt8)

/-- The step function. A generated key is never empty. -/
def factorStep (s : FactorState) : FactorAction → Option FactorState
  | .enroll fails userID key =>
      if key = some "" then none else some ((mfaEnroll fails s userID key).getD s)
  | .confirm fails userID validate code =>
      some ((mfaConfirm fails s userID validate code).getD s)
  | .disable fails userID => some ((mfaDisable fails s userID).getD s)
  | .addCredential fails userID cred => some ((addCredential fails s userID cred).getD s)
  | .removeCredential fails userID credentialID =>
      some ((removeCredential fails s userID credentialID).getD s)

/-- All accounts are as `Create` leaves them. -/
structure FactorState.Fresh (s : FactorState) : Prop where
  disabled : ∀ row ∈ s.users, row.mfaEnabled = false
  credentials : ∀ userID, s.credentials userID = []
  history : s.history = []

/-! ### Reading the rows -/

section Rows

variable {rows : List UserRow} {id id' : String} {f : UserRow → UserRow}

/-- An update that keeps the ids and the secrets keeps what `secretFor` finds. -/
theorem secretFor_updateWhere (hid : ∀ row, (f row).id = row.id)
    (hsecret : ∀ row, (f row).mfaSecret = row.mfaSecret) :
    secretFor (updateWhere rows id f) id' = secretFor rows id' := by
  rw [secretFor, secretFor, find?_updateWhere hid]
  cases rows.find? fun row => row.id = id' with
  | none => rfl
  | some row =>
      have hrow : (if row.id = id then f row else row).mfaSecret = row.mfaSecret := by
        split
        · exact hsecret row
        · rfl
      simp only [Option.map_some, Option.bind_some, hrow]

/-- An update of another user keeps what `secretFor` finds. -/
theorem secretFor_updateWhere_of_ne (hid : ∀ row, (f row).id = row.id) (hne : id' ≠ id) :
    secretFor (updateWhere rows id f) id' = secretFor rows id' := by
  rw [secretFor, secretFor, find?_updateWhere hid]
  cases hfind : rows.find? fun row => row.id = id' with
  | none => rfl
  | some row =>
      have hrow : row.id = id' := by simpa using List.find?_some hfind
      simp [hrow, hne]

/-- An update that sets the secret is what `secretFor` finds of a user that exists. -/
theorem secretFor_updateWhere_self {secret : String} (hid : ∀ row, (f row).id = row.id)
    (hset : ∀ row, (f row).mfaSecret = some secret) (hne : secret ≠ "")
    (hmem : id ∈ rows.map (·.id)) : secretFor (updateWhere rows id f) id = some secret := by
  have hfound : (rows.find? fun row => row.id = id).isSome := by
    obtain ⟨row, hrow, hrowid⟩ := List.mem_map.mp hmem
    exact List.find?_isSome.mpr ⟨row, hrow, by simpa using hrowid⟩
  obtain ⟨row, hrow⟩ := Option.isSome_iff_exists.mp hfound
  have hrowid : row.id = id := by simpa using List.find?_some hrow
  simp [secretFor, find?_updateWhere hid, hrow, hrowid, hset, hne]

/-- What `mfa.Verify` answers. -/
theorem mfaVerify_eq_secretFor {fails : StoreOp → Bool} {validate : String → String → Bool}
    {code : String} (hread : fails .verifyMFA = false) :
    mfaVerify fails rows validate id code = (secretFor rows id).map (validate code) := by
  rw [mfaVerify, secretFor, hread]
  cases (rows.find? fun row => row.id = id).bind fun row => row.mfaSecret with
  | none => rfl
  | some secret => by_cases hempty : secret = "" <;> simp [hempty]

end Rows

/-! ### What an operation writes -/

/-- The user has a row. -/
def FactorState.HasUser (s : FactorState) (userID : String) : Prop :=
  userID ∈ s.users.map (·.id)

instance (s : FactorState) (userID : String) : Decidable (s.HasUser userID) :=
  inferInstanceAs (Decidable (_ ∈ _))

/-- The operation meets no error. -/
def FactorAction.Succeeds (s : FactorState) : FactorAction → Prop
  | .enroll fails _ key => key.isSome ∧ fails .enroll = false
  | .confirm fails userID validate code =>
      fails .readSecret = false ∧ fails .confirm = false ∧
        (secretFor s.users userID).any (validate code) = true
  | .disable fails _ => fails .disable = false
  | .addCredential fails userID _ => fails .load = false ∧ fails .save = false ∧ s.HasUser userID
  | .removeCredential fails userID _ =>
      fails .load = false ∧ fails .save = false ∧ s.HasUser userID

instance (s : FactorState) : ∀ a : FactorAction, Decidable (a.Succeeds s)
  | .enroll .. => inferInstanceAs (Decidable (_ ∧ _))
  | .confirm .. => inferInstanceAs (Decidable (_ ∧ _))
  | .disable .. => inferInstanceAs (Decidable (_ = _))
  | .addCredential .. => inferInstanceAs (Decidable (_ ∧ _))
  | .removeCredential .. => inferInstanceAs (Decidable (_ ∧ _))

/-- What the operation writes when it meets no error. -/
def FactorAction.effect (s : FactorState) : FactorAction → FactorState
  | .enroll _ userID key =>
      { s with
        users := updateWhere s.users userID fun row => { row with mfaSecret := some (key.getD "") }
        history := .enrolled userID :: s.history }
  | .confirm _ userID _ _ =>
      { s with
        users := updateWhere s.users userID fun row => { row with mfaEnabled := true }
        history := .confirmed userID :: s.history }
  | .disable _ userID =>
      { s with
        users := updateWhere s.users userID fun row =>
          { row with mfaEnabled := false, mfaSecret := some "" }
        history := .disabled userID :: s.history }
  | .addCredential _ userID cred =>
      { s with
        users := updateWhere s.users userID fun row => { row with mfaEnabled := true }
        credentials := Function.update s.credentials userID (s.credentials userID ++ [cred]) }
  | .removeCredential _ userID credentialID =>
      let kept := (s.credentials userID).filter fun c => c.id ≠ credentialID
      { s with
        users := updateWhere s.users userID fun row => { row with mfaEnabled := 0 < kept.length }
        credentials := Function.update s.credentials userID kept }

section Steps

variable {s s' : FactorState}

/-- `Load` answers with the credentials of a user that exists. -/
theorem loadCredentials_eq {fails : FactorOp → Bool} {userID : String} :
    loadCredentials fails s userID =
      if fails .load = false ∧ s.HasUser userID then some (s.credentials userID) else none := by
  have huser : s.users.any (fun row => row.id = userID) = true ↔ s.HasUser userID := by
    simp [FactorState.HasUser]
  rw [loadCredentials]
  by_cases hload : fails .load = true
  · simp [hload]
  · by_cases hmem : s.HasUser userID
    · simp [hload, hmem, huser.mpr hmem]
    · have hnone : s.users.any (fun row => row.id = userID) = false := by
        rw [← Bool.not_eq_true, huser]
        exact hmem
      simp [hload, hmem, hnone]

/-- The spec of `Enroll`. -/
theorem mfaEnroll_eq {fails : FactorOp → Bool} {userID : String} {key : Option String} :
    mfaEnroll fails s userID key =
      if (FactorAction.enroll fails userID key).Succeeds s then
        some ((FactorAction.enroll fails userID key).effect s)
      else none := by
  cases key with
  | none => simp [mfaEnroll, FactorAction.Succeeds]
  | some secret =>
      cases hfails : fails .enroll <;>
        simp [mfaEnroll, FactorAction.Succeeds, FactorAction.effect, hfails]

/-- The spec of `Confirm`. -/
theorem mfaConfirm_eq {fails : FactorOp → Bool} {userID code : String}
    {validate : String → String → Bool} :
    mfaConfirm fails s userID validate code =
      if (FactorAction.confirm fails userID validate code).Succeeds s then
        some ((FactorAction.confirm fails userID validate code).effect s)
      else none := by
  rw [mfaConfirm.eq_def]
  cases hread : fails .readSecret with
  | true => simp [FactorAction.Succeeds, hread]
  | false =>
      cases hsecret : secretFor s.users userID with
      | none => simp [FactorAction.Succeeds, hsecret]
      | some secret =>
          cases hvalid : validate code secret <;> cases hconfirm : fails .confirm <;>
            simp [FactorAction.Succeeds, FactorAction.effect, hread, hsecret, hvalid, hconfirm]

/-- The spec of `Disable`. -/
theorem mfaDisable_eq {fails : FactorOp → Bool} {userID : String} :
    mfaDisable fails s userID =
      if (FactorAction.disable fails userID).Succeeds s then
        some ((FactorAction.disable fails userID).effect s)
      else none := by
  cases hfails : fails .disable <;>
    simp [mfaDisable, FactorAction.Succeeds, FactorAction.effect, hfails]

/-- The spec of `AddCredential`. -/
theorem addCredential_eq {fails : FactorOp → Bool} {userID : String} {cred : WebAuthnCredential} :
    addCredential fails s userID cred =
      if (FactorAction.addCredential fails userID cred).Succeeds s then
        some ((FactorAction.addCredential fails userID cred).effect s)
      else none := by
  rw [addCredential, loadCredentials_eq]
  by_cases hload : fails .load = false ∧ s.HasUser userID
  · cases hsave : fails .save <;>
      simp [saveCredentials, FactorAction.Succeeds, FactorAction.effect, hload, hsave]
  · have hnot : ¬ (FactorAction.addCredential fails userID cred).Succeeds s :=
      fun hok => hload ⟨hok.1, hok.2.2⟩
    simp [hload, hnot]

/-- The spec of `RemoveCredential`. -/
theorem removeCredential_eq {fails : FactorOp → Bool} {userID : String}
    {credentialID : List UInt8} :
    removeCredential fails s userID credentialID =
      if (FactorAction.removeCredential fails userID credentialID).Succeeds s then
        some ((FactorAction.removeCredential fails userID credentialID).effect s)
      else none := by
  rw [removeCredential, loadCredentials_eq]
  by_cases hload : fails .load = false ∧ s.HasUser userID
  · cases hsave : fails .save <;>
      simp [saveCredentials, FactorAction.Succeeds, FactorAction.effect, hload, hsave]
  · have hnot : ¬ (FactorAction.removeCredential fails userID credentialID).Succeeds s :=
      fun hok => hload ⟨hok.1, hok.2.2⟩
    simp [hload, hnot]

/-- **The inversion of the step function.** An operation has its effect, or meets an error and
changes nothing. -/
theorem factorStep_cases {a : FactorAction} (h : factorStep s a = some s') :
    (a.Succeeds s ∧ s' = a.effect s) ∨ (¬ a.Succeeds s ∧ s' = s) := by
  have hstep : s' = (if a.Succeeds s then some (a.effect s) else none).getD s := by
    cases a with
    | enroll fails userID key =>
        rw [factorStep] at h
        split at h
        · simp at h
        · rw [← mfaEnroll_eq, ← Option.some.inj h]
    | confirm => rw [← mfaConfirm_eq, ← Option.some.inj h]
    | disable => rw [← mfaDisable_eq, ← Option.some.inj h]
    | addCredential => rw [← addCredential_eq, ← Option.some.inj h]
    | removeCredential => rw [← removeCredential_eq, ← Option.some.inj h]
  by_cases hok : a.Succeeds s
  · exact .inl ⟨hok, by rw [hstep, if_pos hok, Option.getD_some]⟩
  · exact .inr ⟨hok, by rw [hstep, if_neg hok, Option.getD_none]⟩

end Steps

/-! ### The flag and the factors -/

/-- The user's TOTP secret was confirmed, and neither disabled nor replaced since. -/
def FactorState.ConfirmedTOTP (s : FactorState) (userID : String) : Prop :=
  s.history.find? (fun e => e.userID = userID) = some (.confirmed userID)

instance (s : FactorState) (userID : String) : Decidable (s.ConfirmedTOTP userID) :=
  inferInstanceAs (Decidable (_ = _))

/-- The user has a confirmed factor. -/
def FactorState.HasFactor (s : FactorState) (userID : String) : Prop :=
  s.ConfirmedTOTP userID ∨ s.credentials userID ≠ []

instance (s : FactorState) (userID : String) : Decidable (s.HasFactor userID) :=
  inferInstanceAs (Decidable (_ ∨ _))

/-- `mfa_enabled` says of every user whether there is a confirmed factor. -/
def FactorState.Truthful (s : FactorState) : Prop :=
  ∀ row ∈ s.users, row.mfaEnabled = true ↔ s.HasFactor row.id

instance (s : FactorState) : Decidable s.Truthful :=
  inferInstanceAs (Decidable (∀ row ∈ s.users, _ ↔ _))

/-- The operation is none of these: the enrollment of a new secret in place of the confirmed
one of a user without credentials, the disabling of TOTP for a user with credentials, the
removal of the last credentials of a user with a confirmed secret. -/
def FactorState.KeepsTruth (s : FactorState) (a : FactorAction) : Prop :=
  a.Succeeds s →
    match a with
    | .enroll _ userID _ =>
        s.HasUser userID → s.ConfirmedTOTP userID → s.credentials userID ≠ []
    | .disable _ userID => s.HasUser userID → s.credentials userID = []
    | .removeCredential _ userID credentialID =>
        s.ConfirmedTOTP userID →
          ((s.credentials userID).filter fun c => c.id ≠ credentialID) ≠ []
    | .confirm .. | .addCredential .. => True

instance (s : FactorState) (a : FactorAction) : Decidable (s.KeepsTruth a) :=
  match a with
  | .enroll .. => inferInstanceAs (Decidable (_ → _ → _ → _))
  | .confirm .. => inferInstanceAs (Decidable (_ → True))
  | .disable .. => inferInstanceAs (Decidable (_ → _ → _))
  | .addCredential .. => inferInstanceAs (Decidable (_ → True))
  | .removeCredential .. => inferInstanceAs (Decidable (_ → _ → _))

section Truth

variable {s s' : FactorState} {id id' : String}

/-- The latest event of a user decides. -/
theorem hasFactor_record_iff {users : List UserRow} {e : FactorEvent} :
    (FactorState.mk users s.credentials (e :: s.history)).HasFactor id ↔
      (if e.userID = id then e = .confirmed id else s.ConfirmedTOTP id) ∨
        s.credentials id ≠ [] := by
  by_cases hid : e.userID = id <;> simp [FactorState.HasFactor, FactorState.ConfirmedTOTP, hid]

/-- Saved credentials are those of one user. -/
theorem hasFactor_save_iff {users : List UserRow} {creds : List WebAuthnCredential} :
    (FactorState.mk users (Function.update s.credentials id creds) s.history).HasFactor id' ↔
      s.ConfirmedTOTP id' ∨ (if id' = id then creds else s.credentials id') ≠ [] := by
  by_cases hid : id' = id
  · subst hid
    simp [FactorState.HasFactor, FactorState.ConfirmedTOTP]
  · simp [FactorState.HasFactor, FactorState.ConfirmedTOTP, hid]

/-- An operation on the factors of one user leaves a truthful flag truthful when the user's
own is. -/
theorem truthful_updateWhere_iff {f : UserRow → UserRow} {flag : Prop} (h : s.Truthful)
    (husers : s'.users = updateWhere s.users id f) (hid : ∀ row, (f row).id = row.id)
    (hothers : ∀ id', id' ≠ id → (s'.HasFactor id' ↔ s.HasFactor id'))
    (hflag : ∀ row ∈ s.users, row.id = id → ((f row).mfaEnabled = true ↔ flag)) :
    s'.Truthful ↔ (s.HasUser id → (flag ↔ s'.HasFactor id)) := by
  rw [FactorState.Truthful, husers, forall_mem_updateWhere]
  constructor
  · intro hall hmem
    obtain ⟨row, hrow, rfl⟩ := List.mem_map.mp hmem
    have hown := (hall row hrow).1 rfl
    rwa [hid, hflag row hrow rfl] at hown
  · intro hown row hrow
    refine ⟨?_, fun hne => ?_⟩
    · rintro rfl
      rw [hid, hflag row hrow rfl]
      exact hown (List.mem_map.mpr ⟨row, hrow, rfl⟩)
    · rw [hothers row.id hne]
      exact h row hrow

/-- The flag after an operation on a TOTP secret. -/
theorem truthful_record_iff (e : FactorEvent) (flag : Prop) {f : UserRow → UserRow}
    (h : s.Truthful) (hid : ∀ row, (f row).id = row.id)
    (hflag : ∀ row ∈ s.users, row.id = e.userID → ((f row).mfaEnabled = true ↔ flag)) :
    (FactorState.mk (updateWhere s.users e.userID f) s.credentials (e :: s.history)).Truthful ↔
      (s.HasUser e.userID →
        (flag ↔ e = .confirmed e.userID ∨ s.credentials e.userID ≠ [])) := by
  have hothers : ∀ id', id' ≠ e.userID →
      ((FactorState.mk (updateWhere s.users e.userID f) s.credentials
        (e :: s.history)).HasFactor id' ↔ s.HasFactor id') := by
    intro id' hne
    rw [hasFactor_record_iff, if_neg hne.symm, FactorState.HasFactor]
  rw [truthful_updateWhere_iff h rfl hid hothers hflag, hasFactor_record_iff, if_pos rfl]

/-- The flag after credentials are saved. -/
theorem truthful_save_iff (id : String) (creds : List WebAuthnCredential) (flag : Prop)
    {f : UserRow → UserRow} (h : s.Truthful) (hid : ∀ row, (f row).id = row.id)
    (hflag : ∀ row, (f row).mfaEnabled = true ↔ flag) :
    (FactorState.mk (updateWhere s.users id f) (Function.update s.credentials id creds)
      s.history).Truthful ↔
      (s.HasUser id → (flag ↔ s.ConfirmedTOTP id ∨ creds ≠ [])) := by
  have hothers : ∀ id', id' ≠ id →
      ((FactorState.mk (updateWhere s.users id f) (Function.update s.credentials id creds)
        s.history).HasFactor id' ↔ s.HasFactor id') := by
    intro id' hne
    rw [hasFactor_save_iff, if_neg hne, FactorState.HasFactor]
  rw [truthful_updateWhere_iff h rfl hid hothers fun row _ _ => hflag row, hasFactor_save_iff,
    if_pos rfl]

/-- **What keeps the flag truthful.** An operation that meets no error keeps it so unless it
forgets the other factor or a replaced secret. -/
theorem truthful_effect_iff {a : FactorAction} (h : s.Truthful) (hok : a.Succeeds s) :
    (a.effect s).Truthful ↔ s.KeepsTruth a := by
  cases a with
  | enroll fails userID key =>
      have hiff := truthful_record_iff (.enrolled userID) (s.HasFactor userID)
        (f := fun row => { row with mfaSecret := some (key.getD "") }) h (fun _ => rfl)
        fun row hrow hid => hid ▸ h row hrow
      refine hiff.trans ?_
      simp only [FactorEvent.userID, reduceCtorEq, false_or, FactorState.HasFactor]
      constructor
      · intro hkeep _ huser hconfirmed
        exact (hkeep huser).mp (.inl hconfirmed)
      · intro hkeep huser
        exact ⟨fun hfactor => hfactor.elim (hkeep hok huser) id, .inr⟩
  | confirm fails userID validate code =>
      have hiff := truthful_record_iff (.confirmed userID) True
        (f := fun row => { row with mfaEnabled := true }) h (fun _ => rfl) (by simp)
      refine hiff.trans ?_
      simp [FactorEvent.userID, FactorState.KeepsTruth]
  | disable fails userID =>
      have hiff := truthful_record_iff (.disabled userID) False
        (f := fun row => { row with mfaEnabled := false, mfaSecret := some "" }) h (fun _ => rfl)
        (by simp)
      refine hiff.trans ?_
      simp only [FactorEvent.userID, reduceCtorEq, false_or, false_iff, ne_eq, not_not]
      exact ⟨fun hkeep _ => hkeep, fun hkeep => hkeep hok⟩
  | addCredential fails userID cred =>
      have hiff := truthful_save_iff userID (s.credentials userID ++ [cred]) True
        (f := fun row => { row with mfaEnabled := true }) h (fun _ => rfl) (by simp)
      refine hiff.trans ?_
      simp [FactorState.KeepsTruth]
  | removeCredential fails userID credentialID =>
      let kept := (s.credentials userID).filter fun c => c.id ≠ credentialID
      have hiff := truthful_save_iff userID kept (kept ≠ [])
        (f := fun row => { row with mfaEnabled := 0 < kept.length }) h (fun _ => rfl)
        fun row => by simp [List.length_pos_iff]
      refine hiff.trans ?_
      constructor
      · intro hkeep _ hconfirmed
        exact (hkeep hok.2.2).mpr (.inl hconfirmed)
      · intro hkeep _
        exact ⟨.inr, fun hfactor => hfactor.elim (hkeep hok) id⟩

end Truth

/-- **When `mfa_enabled` tells the truth.** Along a run from fresh accounts it says of every
user whether there is a confirmed factor if and only if no operation replaces the confirmed
secret of a user without credentials, disables TOTP for a user with credentials, or removes
the last credentials of a user with a confirmed secret. -/
theorem mfa_enabled_truthful_iff {s s' : FactorState} {as : List FactorAction} (hfresh : s.Fresh)
    (hrun : run factorStep s as = some s') :
    AlongRun factorStep FactorState.Truthful s as ↔
      Guarded factorStep FactorState.KeepsTruth s as := by
  have hstart : s.Truthful := by
    intro row hrow
    simp [hfresh.disabled row hrow, FactorState.HasFactor, FactorState.ConfirmedTOTP,
      hfresh.history, hfresh.credentials]
  refine alongRun_iff_guarded (I := fun _ => True) (fun _ _ _ _ _ _ => trivial) ?_ trivial hstart
    (guarded_true s as) hrun
  intro t a t' _ ht _ hstep
  rcases factorStep_cases hstep with ⟨hok, rfl⟩ | ⟨hfails, rfl⟩
  · exact truthful_effect_iff ht hok
  · exact ⟨fun _ hok => absurd hok hfails, fun _ => ht⟩

/-- A server with this user. -/
def exampleFactors : FactorState := ⟨[exampleUser], fun _ => [], []⟩

/-- No statement fails. -/
def noFactorFailure : FactorOp → Bool := fun _ => false

/-- The user enrolls a secret, confirms it, and registers a credential. -/
def exampleBothFactors : List FactorAction :=
  [.enroll noFactorFailure "u" (some "secret"),
    .confirm noFactorFailure "u" (fun code secret => code = "123456" && secret = "secret") "123456",
    .addCredential noFactorFailure "u" ⟨[1]⟩]

/-- The accounts of the example are fresh. -/
theorem exampleFactors_fresh : exampleFactors.Fresh := ⟨by decide, fun _ => rfl, rfl⟩

/-- A user with both factors, who then gives up the credential and the secret, in this order:
the first removal switches the flag off. -/
theorem mfa_enabled_truthful_iff_example :
    ∃ s', run factorStep exampleFactors
        (exampleBothFactors ++ [.removeCredential noFactorFailure "u" [1]]) = some s' ∧
      (¬ AlongRun factorStep FactorState.Truthful exampleFactors
        (exampleBothFactors ++ [.removeCredential noFactorFailure "u" [1]])) ∧
      AlongRun factorStep FactorState.Truthful exampleFactors exampleBothFactors := by
  have hsome : (run factorStep exampleFactors
      (exampleBothFactors ++ [.removeCredential noFactorFailure "u" [1]])).isSome = true := by
    decide
  have hboth : (run factorStep exampleFactors exampleBothFactors).isSome = true := by decide
  obtain ⟨s', hs'⟩ := Option.isSome_iff_exists.mp hsome
  obtain ⟨t, ht⟩ := Option.isSome_iff_exists.mp hboth
  refine ⟨s', hs', ?_, ?_⟩
  · rw [mfa_enabled_truthful_iff exampleFactors_fresh hs']
    decide
  · rw [mfa_enabled_truthful_iff exampleFactors_fresh ht]
    decide

/-- The flag is off while the confirmed secret remains. -/
theorem flag_off_with_factor :
    exampleFactors.Fresh ∧ ∃ s', run factorStep exampleFactors
        (exampleBothFactors ++ [.removeCredential noFactorFailure "u" [1]]) = some s' ∧
      ¬ s'.Truthful := by
  have hlast : (run factorStep exampleFactors
      (exampleBothFactors ++ [.removeCredential noFactorFailure "u" [1]])).any
        (fun s' => !decide s'.Truthful) = true := by
    decide
  obtain ⟨s', hs', hfalse⟩ := (Option.any_eq_true _ _).mp hlast
  exact ⟨exampleFactors_fresh, s', hs', by simpa using hfalse⟩

/-! ### Logging in with a second factor -/

/-- Of every user with `mfa_enabled` there is a secret for `mfa.Verify` to find. -/
def FactorState.Unlocked (s : FactorState) : Prop :=
  ∀ row ∈ s.users, row.mfaEnabled = true → (secretFor s.users row.id).isSome

instance (s : FactorState) : Decidable s.Unlocked :=
  inferInstanceAs (Decidable (∀ row ∈ s.users, _ → _))

/-- The operation saves no credentials of a user without a secret. -/
def FactorState.KeepsUnlocked (s : FactorState) (a : FactorAction) : Prop :=
  a.Succeeds s →
    match a with
    | .addCredential _ userID _ => (secretFor s.users userID).isSome
    | .removeCredential _ userID credentialID =>
        ((s.credentials userID).filter fun c => c.id ≠ credentialID) ≠ [] →
          (secretFor s.users userID).isSome
    | .enroll .. | .confirm .. | .disable .. => True

instance (s : FactorState) (a : FactorAction) : Decidable (s.KeepsUnlocked a) :=
  match a with
  | .enroll .. => inferInstanceAs (Decidable (_ → True))
  | .confirm .. => inferInstanceAs (Decidable (_ → True))
  | .disable .. => inferInstanceAs (Decidable (_ → True))
  | .addCredential .. => inferInstanceAs (Decidable (_ → _))
  | .removeCredential .. => inferInstanceAs (Decidable (_ → _ → _))

/-- The second factor of `handleLogin` is a code for the secret that `mfa.Verify` finds. -/
theorem passesMFA_iff_secretFor {ctx : RequestContext} {server : ServerState} {user : UserRow}
    {code : String} (henabled : user.mfaEnabled = true) (hread : ctx.fails .verifyMFA = false) :
    passesMFA ctx server user code = true ↔
      ∃ secret, secretFor server.users user.id = some secret ∧
        ctx.totpValidate code secret = true := by
  rw [passesMFA, henabled, mfaVerify_eq_secretFor hread]
  cases secretFor server.users user.id <;> simp

section Lockout

variable {s s' : FactorState} {id : String}

/-- An operation on the factors of one user leaves nobody locked out when it does not lock out
that user. -/
theorem unlocked_updateWhere_iff {f : UserRow → UserRow} (h : s.Unlocked)
    (husers : s'.users = updateWhere s.users id f) (hid : ∀ row, (f row).id = row.id) :
    s'.Unlocked ↔ ∀ row ∈ s.users, row.id = id → (f row).mfaEnabled = true →
      (secretFor s'.users id).isSome := by
  have hrows : s'.Unlocked ↔ ∀ row ∈ updateWhere s.users id f, row.mfaEnabled = true →
      (secretFor s'.users row.id).isSome := by
    rw [FactorState.Unlocked, husers]
  rw [hrows, forall_mem_updateWhere]
  constructor
  · rintro hall row hrow rfl
    have hown := (hall row hrow).1 rfl
    rwa [hid] at hown
  · intro hown row hrow
    refine ⟨?_, fun hne henabled => ?_⟩
    · rintro rfl
      rw [hid]
      exact hown row hrow rfl
    · rw [husers, secretFor_updateWhere_of_ne hid hne]
      exact h row hrow henabled

/-- The same of an operation that writes the flag alone. -/
theorem unlocked_flag_iff (id : String) (enabled : Bool)
    {credentials : String → List WebAuthnCredential} {history : List FactorEvent} (h : s.Unlocked) :
    (FactorState.mk (updateWhere s.users id fun row => { row with mfaEnabled := enabled })
      credentials history).Unlocked ↔
      (s.HasUser id → enabled = true → (secretFor s.users id).isSome) := by
  have hkept : secretFor (updateWhere s.users id fun row => { row with mfaEnabled := enabled }) id =
      secretFor s.users id :=
    secretFor_updateWhere (fun _ => rfl) fun _ => rfl
  rw [unlocked_updateWhere_iff (f := fun row => { row with mfaEnabled := enabled }) h rfl
    fun _ => rfl, hkept]
  constructor
  · rintro hall hmem
    obtain ⟨row, hrow, hid⟩ := List.mem_map.mp hmem
    exact hall row hrow hid
  · exact fun hown row hrow hid => hown (List.mem_map.mpr ⟨row, hrow, hid⟩)

/-- **What locks nobody out.** An operation that meets no error locks nobody out unless it
saves credentials of a user without a secret. -/
theorem unlocked_effect_iff {a : FactorAction} (h : s.Unlocked) (hok : a.Succeeds s)
    (hkey : ∀ fails userID, a ≠ .enroll fails userID (some "")) :
    (a.effect s).Unlocked ↔ s.KeepsUnlocked a := by
  cases a with
  | enroll fails userID key =>
      obtain ⟨secret, rfl⟩ := Option.isSome_iff_exists.mp hok.1
      have hne : secret ≠ "" := fun hempty => hkey fails userID (hempty ▸ rfl)
      have hiff : ((FactorAction.enroll fails userID (some secret)).effect s).Unlocked ↔ _ :=
        unlocked_updateWhere_iff h rfl fun _ => rfl
      refine hiff.trans ⟨fun _ _ => trivial, fun _ row hrow hid _ => ?_⟩
      have hfound : secretFor (updateWhere s.users userID fun row =>
          { row with mfaSecret := some secret }) userID = some secret :=
        secretFor_updateWhere_self (fun _ => rfl) (fun _ => rfl) hne
          (List.mem_map.mpr ⟨row, hrow, hid⟩)
      exact Option.isSome_of_eq_some hfound
  | confirm fails userID validate code =>
      refine (unlocked_flag_iff userID true h).trans ⟨fun _ _ => trivial, fun _ _ _ => ?_⟩
      obtain ⟨secret, hsecret, -⟩ := (Option.any_eq_true _ _).mp hok.2.2
      exact Option.isSome_of_eq_some hsecret
  | disable fails userID =>
      have hiff : ((FactorAction.disable fails userID).effect s).Unlocked ↔ _ :=
        unlocked_updateWhere_iff h rfl fun _ => rfl
      refine hiff.trans ⟨fun _ _ => trivial, fun _ row hrow hid henabled => ?_⟩
      simp at henabled
  | addCredential fails userID cred =>
      refine (unlocked_flag_iff userID true h).trans ⟨fun hown _ => ?_, fun hkeep _ _ => ?_⟩
      · exact hown hok.2.2 rfl
      · exact hkeep hok
  | removeCredential fails userID credentialID =>
      let kept := (s.credentials userID).filter fun c => c.id ≠ credentialID
      have hflag : decide (0 < kept.length) = true ↔ kept ≠ [] := by simp [List.length_pos_iff]
      refine (unlocked_flag_iff userID (0 < kept.length) h).trans
        ⟨fun hown _ hkept => ?_, fun hkeep _ hkept => ?_⟩
      · exact hown hok.2.2 (hflag.mpr hkept)
      · exact hkeep hok (hflag.mp hkept)

end Lockout

/-- **When nobody is locked out.** Along a run from fresh accounts `mfa.Verify` finds a secret
of every user with `mfa_enabled` if and only if no operation saves credentials of a user
without one. -/
theorem no_lockout_iff {s s' : FactorState} {as : List FactorAction} (hfresh : s.Fresh)
    (hrun : run factorStep s as = some s') :
    AlongRun factorStep FactorState.Unlocked s as ↔
      Guarded factorStep FactorState.KeepsUnlocked s as := by
  have hstart : s.Unlocked := fun row hrow henabled => by
    simp [hfresh.disabled row hrow] at henabled
  refine alongRun_iff_guarded (I := fun _ => True) (fun _ _ _ _ _ _ => trivial) ?_ trivial hstart
    (guarded_true s as) hrun
  intro t a t' _ ht _ hstep
  have hkey : ∀ fails userID, a ≠ .enroll fails userID (some "") := by
    rintro fails userID rfl
    simp [factorStep] at hstep
  rcases factorStep_cases hstep with ⟨hok, rfl⟩ | ⟨hfails, rfl⟩
  · exact unlocked_effect_iff ht hok hkey
  · exact ⟨fun _ hok => absurd hok hfails, fun _ => ht⟩

/-- A secret first, then a credential: nobody is locked out. -/
theorem no_lockout_iff_example :
    ∃ s', run factorStep exampleFactors exampleBothFactors = some s' ∧
      AlongRun factorStep FactorState.Unlocked exampleFactors exampleBothFactors := by
  have hsome : (run factorStep exampleFactors exampleBothFactors).isSome = true := by decide
  obtain ⟨s', hs'⟩ := Option.isSome_iff_exists.mp hsome
  refine ⟨s', hs', ?_⟩
  rw [no_lockout_iff exampleFactors_fresh hs']
  decide

/-- A user whose only factor is a credential is locked out. -/
theorem credential_locks_out :
    exampleFactors.Fresh ∧
      ∃ s', run factorStep exampleFactors [.addCredential noFactorFailure "u" ⟨[1]⟩] = some s' ∧
        ¬ s'.Unlocked := by
  have hlast : (run factorStep exampleFactors [.addCredential noFactorFailure "u" ⟨[1]⟩]).any
      (fun s' => !decide s'.Unlocked) = true := by
    decide
  obtain ⟨s', hs', hfalse⟩ := (Option.any_eq_true _ _).mp hlast
  exact ⟨exampleFactors_fresh, s', hs', by simpa using hfalse⟩

end IdpForge
