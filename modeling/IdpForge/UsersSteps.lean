import IdpForge.AccountSteps
import Mathlib.Data.List.Nodup

/-!
# What a Step of the Server Does to the Users Table

The columns of `users` that let somebody in are written by few requests. The step function is
read back as a relation between the rows before and after: they keep these columns, or a row
is created, given the default password or a chosen one, given other factors, or deleted.

## Main results

* `SameAccess`: rows that agree in all columns but the email address, the employee id and the
  status.
* `UsersStep`, `usersStep_cases`: the inversion of `serverStep` for the users table.
* `UsersStep.exists_before`, `UsersStep.password_cases`: where a row and its password come
  from.
* `UsersKeyed`, `UsersKeyed.step`: ids and user names stay unique, and ids are drawn.
-/

open PartialMap TransitionSystem

namespace IdpForge

/-- A row without the columns that `Update` writes. -/
def UserRow.access (row : UserRow) : UserRow :=
  { row with email := "", employeeID := none, status := "" }

/-- The rows agree in all other columns. -/
def SameAccess (rows rows' : List UserRow) : Prop :=
  rows'.map UserRow.access = rows.map UserRow.access

namespace SameAccess

variable {rows rows' rows'' : List UserRow} {id : String}

/-- Rows agree with themselves. -/
theorem refl (rows : List UserRow) : SameAccess rows rows := rfl

/-- Rows that agree with rows that agree. -/
theorem trans (h : SameAccess rows rows') (h' : SameAccess rows' rows'') : SameAccess rows rows'' :=
  Eq.trans h' h

/-- An update of the other columns. -/
theorem updateWhere {f : UserRow → UserRow} (hf : ∀ row, (f row).access = row.access) :
    SameAccess rows (updateWhere rows id f) := by
  rw [SameAccess, IdpForge.updateWhere, List.map_map]
  refine List.map_congr_left fun row _ => ?_
  simp only [Function.comp_apply]
  split
  · exact hf row
  · rfl

/-- Every row has its counterpart. -/
theorem exists_mem (h : SameAccess rows rows') {row' : UserRow} (hrow' : row' ∈ rows') :
    ∃ row ∈ rows, row.access = row'.access := by
  have hmem : row'.access ∈ rows.map UserRow.access := h ▸ List.mem_map_of_mem hrow'
  exact List.mem_map.mp hmem

/-- A column that `Update` does not write is the same. -/
theorem map_eq {α : Type} (h : SameAccess rows rows') {g : UserRow → α}
    (hg : ∀ row, g row.access = g row) : rows'.map g = rows.map g := by
  have hcolumn : ∀ l : List UserRow, l.map g = (l.map UserRow.access).map g := by
    intro l
    rw [List.map_map]
    exact List.map_congr_left fun row _ => (hg row).symm
  rw [hcolumn rows', hcolumn rows, h]

/-- `Update` writes the other columns alone. -/
theorem usersUpdate {fails : StoreOp → Bool} {input : UpdateInput} :
    SameAccess rows (usersUpdate fails rows id input).2 := by
  have hfield : ∀ {rows rows' : List UserRow} {field : Option String}
      {statement : String → Option (List UserRow)},
      (∀ value rows', statement value = some rows' → SameAccess rows rows') →
      updateField rows field statement = some rows' → SameAccess rows rows' := by
    intro rows rows' field statement hs h
    cases field with
    | none => exact Option.some.inj h ▸ refl rows
    | some value => exact hs value rows' h
  have hemail : ∀ rows value rows', updateEmail fails rows id value = some rows' →
      SameAccess rows rows' := by
    intro rows value rows' h
    rw [updateEmail] at h
    split at h
    · simp at h
    · exact Option.some.inj h ▸ updateWhere fun _ => rfl
  have hstatus : ∀ rows value rows', updateStatus fails rows id value = some rows' →
      SameAccess rows rows' := by
    intro rows value rows' h
    rw [updateStatus] at h
    split at h
    · simp at h
    · exact Option.some.inj h ▸ updateWhere fun _ => rfl
  have hemployee : ∀ rows value rows', updateEmployeeID fails rows id value = some rows' →
      SameAccess rows rows' := by
    intro rows value rows' h
    rw [updateEmployeeID] at h
    split at h
    · simp at h
    · exact Option.some.inj h ▸ updateWhere fun _ => rfl
  rw [IdpForge.usersUpdate]
  split
  · exact refl rows
  · next rows₁ h₁ =>
      have hsame₁ := hfield (hemail rows) h₁
      split
      · exact hsame₁
      · next rows₂ h₂ =>
          have hsame₂ := hsame₁.trans (hfield (hstatus rows₁) h₂)
          split
          · exact hsame₂
          · next rows₃ h₃ => exact hsame₂.trans (hfield (hemployee rows₂) h₃)

end SameAccess

/-- The columns of a row whose password is set, by its owner or not. -/
def UserRow.withPassword (row : UserRow) (now : Int) (hash : String) (force : Bool) : UserRow :=
  { row with passwordHash := some hash, passwordChangedAt := now, forcePasswordChange := force }

/-- The row as `Create` inserts it. -/
structure CreatedRow (cfg : AccountConfig) (s : ServerState) (row : UserRow) : Prop where
  fresh : row.id ∉ s.userIDs
  unique : uniqueAmong s.users row = true
  hash : ∃ hash, row.passwordHash = some hash ∧
    cfg.verifyPassword hash cfg.defaultPassword = true
  configured : cfg.defaultPassword ≠ ""
  mfaSecret : row.mfaSecret = none
  mfaEnabled : row.mfaEnabled = false
  force : row.forcePasswordChange = true

/-- What a change of password takes: a session, a password that the policy accepts, and the
current password of the user. -/
structure MayChange (cfg : AccountConfig) (ctx : RequestContext) (s : ServerState)
    (cookie current new : String) (user : UserRow) : Prop where
  session : s.sessionUser ctx cookie = some user.id
  policy : validatePassword cfg.unicode cfg.policy new = .ok ()
  found : usersGet ctx.fails s.users user.id = some user
  current : ∃ row, s.users.find? (fun row => row.username = user.username) = some row ∧
    row.passwordHash.getD "" ≠ "" ∧ cfg.verifyPassword (row.passwordHash.getD "") current = true

/-- What a step can do to the users table. -/
inductive UsersStep (cfg : AccountConfig) (s : ServerState) :
    ServerAction → List UserRow → Prop
  | kept {a : ServerAction} {rows : List UserRow} (h : SameAccess s.users rows) :
      UsersStep cfg s a rows
  | created {a : ServerAction} {row : UserRow} (h : CreatedRow cfg s row) :
      UsersStep cfg s a (s.users ++ [row])
  | reset {a : ServerAction} {id hash : String} (hconfigured : cfg.defaultPassword ≠ "")
      (hhash : cfg.verifyPassword hash cfg.defaultPassword = true) :
      UsersStep cfg s a (updateWhere s.users id fun row => row.withPassword s.now hash true)
  | changed {ctx : RequestContext} {cookie current new hash : String} {user : UserRow}
      (h : MayChange cfg ctx s cookie current new user)
      (hhash : cfg.verifyPassword hash new = true) :
      UsersStep cfg s (.changePassword ctx cookie (some (current, new)) (some hash))
        (updateWhere s.users user.id fun row => row.withPassword s.now hash false)
  | factors {id : String} {mfaSecret : Option String} {mfaEnabled : Bool} :
      UsersStep cfg s (.setFactors id mfaSecret mfaEnabled)
        (updateWhere s.users id fun row =>
          { row with mfaSecret := mfaSecret, mfaEnabled := mfaEnabled })
  | deleted {a : ServerAction} {id : String} :
      UsersStep cfg s a (s.users.filter fun row => row.id ≠ id)

section Handlers

variable {cfg : AccountConfig} {ctx : RequestContext} {s s' : ServerState}

/-- A failed login is counted. -/
@[simp] theorem users_recordLoginFailure (username : String) :
    (recordLoginFailure cfg ctx s username).users = s.users := by
  rw [recordLoginFailure]
  split
  · rfl
  · dsimp only
    split <;> rfl

/-- The counter of a user name is cleared. -/
@[simp] theorem users_clearLoginFailures (username : String) :
    (clearLoginFailures ctx s username).users = s.users := by
  rw [clearLoginFailures]
  split <;> rfl

/-- A login writes no row. -/
theorem users_handleLogin (body : Option LoginRequest) (sessionID : String) :
    (handleLogin cfg ctx s body sessionID).2.users = s.users := by
  rw [handleLogin.eq_def]
  split
  · rfl
  · split
    · rfl
    · split
      · rfl
      · split
        · split
          · exact users_recordLoginFailure _
          · rfl
        · split
          · exact users_recordLoginFailure _
          · dsimp only
            split
            · exact users_clearLoginFailures _
            · next s'' hs'' =>
                rw [ServerState.createSession] at hs''
                split at hs''
                · simp at hs''
                · obtain rfl := Option.some.inj hs''
                  exact users_clearLoginFailures _

/-- An event is recorded. -/
theorem users_conclude {α : Type} (reply : Reply α) (event : α → ServerEvent) :
    (conclude reply event).users = reply.2.users := by
  obtain ⟨answer, s'⟩ := reply
  cases answer <;> rfl

/-- The creation of an account. -/
theorem users_createAccount {a : ServerAction} {body : Option CreateUserRequest} {id : String}
    {hash : Option String} (hfits : cfg.hashes cfg.defaultPassword hash = true)
    (hdraw : s.drawUserID id = some s') :
    UsersStep cfg s a (createAccount cfg ctx s' body id hash).2.users := by
  obtain ⟨-, hnew, rfl⟩ := drawUserID_eq_some hdraw
  rw [createAccount.eq_def]
  split
  · exact .kept (.refl _)
  · split
    · exact .kept (.refl _)
    · split
      · exact .kept (.refl _)
      · next hconfigured =>
          dsimp only
          split
          · exact .kept (.refl _)
          · next rows hrows =>
              obtain ⟨h, rfl, hcreate⟩ := Option.bind_eq_some_iff.mp hrows
              rw [usersCreate] at hcreate
              split at hcreate
              · simp at hcreate
              · next hunique =>
                  obtain rfl := Option.some.inj hcreate
                  simp only [Bool.or_eq_true, Bool.not_eq_true', not_or, Bool.not_eq_false]
                    at hunique
                  split <;> exact .created ⟨hnew, hunique.2, ⟨h, rfl, hfits⟩, hconfigured, rfl,
                    rfl, rfl⟩

/-- The reset of a password. -/
theorem users_handleResetUserPassword {a : ServerAction} {id : String} {hash : Option String}
    (hfits : cfg.hashes cfg.defaultPassword hash = true) :
    UsersStep cfg s a (handleResetUserPassword cfg ctx s id hash).2.users := by
  rw [handleResetUserPassword.eq_def]
  split
  · exact .kept (.refl _)
  · next hconfigured =>
      split
      · exact .kept (.refl _)
      · next hash =>
          split
          · exact .kept (.refl _)
          · exact .kept (.refl _)
          · next rows hrows =>
              rw [assignDefaultPassword] at hrows
              split at hrows
              · simp at hrows
              · split at hrows
                · obtain rfl := Affected.rows.inj hrows
                  split <;> exact .reset hconfigured hfits
                · simp at hrows

/-- `Update`, for both of its callers. -/
theorem users_updateAccount {id : String} {input : UpdateInput} :
    SameAccess s.users (updateAccount ctx s id input).2.users := by
  have hsame : SameAccess s.users (usersUpdate ctx.fails s.users id input).2 := .usersUpdate
  rw [updateAccount.eq_def]
  split <;> next hupdate => rwa [hupdate] at hsame

/-- A deletion. -/
theorem users_handleDeleteUser {a : ServerAction} {id : String} :
    UsersStep cfg s a (handleDeleteUser cfg ctx s id).2.users := by
  rw [handleDeleteUser.eq_def]
  split
  · exact .kept (.refl _)
  · exact .kept (.refl _)
  · next rows hrows =>
      obtain ⟨-, rfl⟩ := usersDelete_eq_rows hrows
      dsimp only
      split <;> exact .deleted

/-- The current password has been compared with the hash of a row. -/
theorem current_of_passwordHash {username current : String}
    (h : ¬ ((((passwordHash ctx.fails s.users username).getD "" = "") : Bool) ||
      !cfg.verifyPassword ((passwordHash ctx.fails s.users username).getD "") current) = true) :
    ∃ row, s.users.find? (fun row => row.username = username) = some row ∧
      row.passwordHash.getD "" ≠ "" ∧
      cfg.verifyPassword (row.passwordHash.getD "") current = true := by
  simp only [Bool.or_eq_true, decide_eq_true_eq, Bool.not_eq_true', not_or,
    Bool.not_eq_false] at h
  obtain ⟨hne, hverify⟩ := h
  rw [passwordHash] at hne hverify
  split at hne
  · simp at hne
  · next hread =>
      rw [if_neg hread] at hverify
      cases hfind : s.users.find? fun row => row.username = username with
      | none => simp [hfind] at hne
      | some row =>
          rw [hfind] at hne hverify
          exact ⟨row, rfl, hne, hverify⟩

/-- A change of password. -/
theorem users_handleChangePassword {cookie : String} {body : Option (String × String)}
    {hash : Option String} (hfits : cfg.hashes ((body.map Prod.snd).getD "") hash = true) :
    UsersStep cfg s (.changePassword ctx cookie body hash)
      (handleChangePassword cfg ctx s cookie body hash).2.users := by
  rw [handleChangePassword.eq_def]
  split
  · exact .kept (.refl _)
  · next userID hsession =>
      split
      · exact .kept (.refl _)
      · next current new =>
          split
          · exact .kept (.refl _)
          · next hpolicy =>
              split
              · exact .kept (.refl _)
              · next user huser =>
                  dsimp only
                  split
                  · exact .kept (.refl _)
                  · next hcurrent =>
                      split
                      · exact .kept (.refl _)
                      · next rows hrows =>
                          obtain ⟨h, rfl, hset⟩ := Option.bind_eq_some_iff.mp hrows
                          have hid : user.id = userID := (usersGet_mem huser).2
                          subst hid
                          rw [setPassword] at hset
                          split at hset
                          · simp at hset
                          · obtain rfl := Option.some.inj hset
                            have hrows : ∀ s'' : ServerState,
                                (s''.clearMustChangePassword ctx cookie user.id).users =
                                  s''.users := by
                              intro s''
                              rw [ServerState.clearMustChangePassword]
                              split <;> rfl
                            rw [hrows]
                            exact .changed ⟨hsession, hpolicy, huser,
                              current_of_passwordHash hcurrent⟩ hfits

/-- **The inversion of the step function for the users table.** -/
theorem usersStep_cases {a : ServerAction} (h : serverStep cfg s a = some s') :
    UsersStep cfg s a s'.users := by
  cases a with
  | login ctx body sessionID =>
      obtain rfl := Option.some.inj h
      rw [users_conclude, users_handleLogin]
      exact .kept (.refl _)
  | externalLogin ctx body =>
      obtain rfl := Option.some.inj h
      rw [users_conclude]
      exact .kept (.refl _)
  | logout ctx cookie =>
      obtain rfl := Option.some.inj h
      have hrows : (handleLogout ctx s cookie).users = s.users := by
        rw [handleLogout]
        split
        · rfl
        · rw [ServerState.destroySession]
          split <;> rfl
      rw [hrows]
      exact .kept (.refl _)
  | changePassword ctx cookie body hash =>
      rw [serverStep] at h
      split at h
      · next hfits =>
          obtain rfl := Option.some.inj h
          exact users_handleChangePassword hfits
      · simp at h
  | createUser ctx body id hash =>
      rw [serverStep] at h
      split at h
      · next hfits =>
          obtain ⟨s₁, hdraw, rfl⟩ := Option.map_eq_some_iff.mp h
          exact users_createAccount hfits hdraw
      · simp at h
  | externalCreateUser ctx client body id hash =>
      rw [serverStep] at h
      split at h
      · next hfits =>
          obtain ⟨s₁, hdraw, rfl⟩ := Option.map_eq_some_iff.mp h
          rw [handleExternalCreateUser]
          split
          · obtain ⟨-, -, rfl⟩ := drawUserID_eq_some hdraw
            exact .kept (.refl _)
          · exact users_createAccount hfits hdraw
      · simp at h
  | resetUserPassword ctx id hash =>
      rw [serverStep] at h
      split at h
      · next hfits =>
          obtain rfl := Option.some.inj h
          exact users_handleResetUserPassword hfits
      · simp at h
  | updateUser ctx id body =>
      obtain rfl := Option.some.inj h
      cases body with
      | none => exact .kept (.refl _)
      | some input => exact .kept users_updateAccount
  | offboardUser ctx id =>
      obtain rfl := Option.some.inj h
      rw [users_conclude]
      exact .kept users_updateAccount
  | deleteUser ctx id =>
      obtain rfl := Option.some.inj h
      rw [users_conclude]
      exact users_handleDeleteUser
  | setFactors id mfaSecret mfaEnabled =>
      obtain rfl := Option.some.inj h
      exact .factors
  | addDeviceCredential ctx userID body id =>
      obtain rfl := Option.some.inj h
      have hrows : (handleAddDeviceCredential cfg ctx s userID body id).2.users = s.users := by
        rw [handleAddDeviceCredential.eq_def]
        split
        · rfl
        · split
          · rfl
          · dsimp only
            split <;> rfl
      rw [hrows]
      exact .kept (.refl _)
  | deleteDeviceCredential ctx id =>
      obtain rfl := Option.some.inj h
      have hrows : (handleDeleteDeviceCredential ctx s id).2.users = s.users := by
        rw [handleDeleteDeviceCredential]
        split <;> rfl
      rw [hrows]
      exact .kept (.refl _)
  | checkin c =>
      obtain rfl := Option.some.inj h
      rw [users_conclude]
      exact .kept (.refl _)
  | authorize ctx cookie q id code =>
      rw [serverStep, authorizeServerStep] at h
      split at h
      · obtain ⟨oidc, -, rfl⟩ := Option.map_eq_some_iff.mp h
        exact .kept (.refl _)
      · exact Option.some.inj h ▸ .kept (.refl _)
  | oidc a =>
      rw [serverStep, ServerState.oidcStep.eq_def] at h
      split at h
      · simp at h
      · obtain ⟨oidc, -, rfl⟩ := Option.map_eq_some_iff.mp h
        exact .kept (.refl _)

end Handlers

/-! ### Where a row comes from -/

section Origin

variable {cfg : AccountConfig} {s : ServerState} {rows : List UserRow} {a : ServerAction}
  {row' : UserRow}

/-- A row with a drawn id has been in the table before, under the same user name. -/
theorem UsersStep.exists_before (hstep : UsersStep cfg s a rows) (hrow' : row' ∈ rows)
    (hdrawn : row'.id ∈ s.userIDs) :
    ∃ row ∈ s.users, row.id = row'.id ∧ row.username = row'.username := by
  have hupdated : ∀ {id : String} {f : UserRow → UserRow}, row' ∈ updateWhere s.users id f →
      (∀ row, (f row).id = row.id) → (∀ row, (f row).username = row.username) →
      ∃ row ∈ s.users, row.id = row'.id ∧ row.username = row'.username := by
    intro id f hmem hid hname
    obtain ⟨row, hrow, rfl⟩ := List.mem_map.mp hmem
    refine ⟨row, hrow, ?_⟩
    split
    · exact ⟨(hid row).symm, (hname row).symm⟩
    · exact ⟨rfl, rfl⟩
  cases hstep with
  | kept h =>
      obtain ⟨row, hrow, haccess⟩ := h.exists_mem hrow'
      exact ⟨row, hrow, (congrArg UserRow.id haccess :), (congrArg UserRow.username haccess :)⟩
  | created h =>
      rcases List.mem_append.mp hrow' with hold | hnew
      · exact ⟨row', hold, rfl, rfl⟩
      · obtain rfl := List.mem_singleton.mp hnew
        exact absurd hdrawn h.fresh
  | reset => exact hupdated hrow' (fun _ => rfl) fun _ => rfl
  | changed => exact hupdated hrow' (fun _ => rfl) fun _ => rfl
  | factors => exact hupdated hrow' (fun _ => rfl) fun _ => rfl
  | deleted => exact ⟨row', List.mem_of_mem_filter hrow', rfl, rfl⟩

/-- Where no password is changed, a row keeps its password or has been given the default one,
which must be changed. -/
theorem UsersStep.password_cases (hstep : UsersStep cfg s a rows)
    (ha : ∀ ctx cookie body hash, a ≠ .changePassword ctx cookie body hash) (hrow' : row' ∈ rows) :
    (∃ row ∈ s.users, row.id = row'.id ∧ row.passwordHash = row'.passwordHash ∧
        row.forcePasswordChange = row'.forcePasswordChange) ∨
      cfg.defaultPassword ≠ "" ∧ row'.forcePasswordChange = true ∧
        ∃ hash, row'.passwordHash = some hash ∧
          cfg.verifyPassword hash cfg.defaultPassword = true := by
  cases hstep with
  | kept h =>
      obtain ⟨row, hrow, haccess⟩ := h.exists_mem hrow'
      exact Or.inl ⟨row, hrow, (congrArg UserRow.id haccess :),
        (congrArg UserRow.passwordHash haccess :),
        (congrArg UserRow.forcePasswordChange haccess :)⟩
  | created h =>
      rcases List.mem_append.mp hrow' with hold | hnew
      · exact Or.inl ⟨row', hold, rfl, rfl, rfl⟩
      · obtain rfl := List.mem_singleton.mp hnew
        exact Or.inr ⟨h.configured, h.force, h.hash⟩
  | @reset _ id hash hconfigured hhash =>
      obtain ⟨row, hrow, rfl⟩ := List.mem_map.mp hrow'
      split
      · exact Or.inr ⟨hconfigured, rfl, hash, rfl, hhash⟩
      · exact Or.inl ⟨row, hrow, rfl, rfl, rfl⟩
  | changed => exact absurd rfl (ha _ _ _ _)
  | factors =>
      obtain ⟨row, hrow, rfl⟩ := List.mem_map.mp hrow'
      exact Or.inl ⟨row, hrow, by split <;> exact ⟨rfl, rfl, rfl⟩⟩
  | deleted => exact Or.inl ⟨row', List.mem_of_mem_filter hrow', rfl, rfl, rfl⟩

end Origin

/-! ### The keys of the table -/

/-- The primary key and the unique column of user names. -/
structure UsersKeyed (rows : List UserRow) : Prop where
  ids : (rows.map (·.id)).Nodup
  usernames : (rows.map (·.username)).Nodup

namespace UsersKeyed

variable {cfg : AccountConfig} {s : ServerState} {rows rows' : List UserRow} {a : ServerAction}

/-- Rows with one id are one row. -/
theorem eq_of_id (h : UsersKeyed rows) {row row' : UserRow} (hrow : row ∈ rows)
    (hrow' : row' ∈ rows) (hid : row.id = row'.id) : row = row' :=
  List.inj_on_of_nodup_map h.ids hrow hrow' hid

/-- Rows with one user name are one row. -/
theorem eq_of_username (h : UsersKeyed rows) {row row' : UserRow} (hrow : row ∈ rows)
    (hrow' : row' ∈ rows) (hname : row.username = row'.username) : row = row' :=
  List.inj_on_of_nodup_map h.usernames hrow hrow' hname

/-- The columns are the same. -/
theorem of_columns (h : UsersKeyed rows) (hids : rows'.map (·.id) = rows.map (·.id))
    (hnames : rows'.map (·.username) = rows.map (·.username)) : UsersKeyed rows' :=
  ⟨hids ▸ h.ids, hnames ▸ h.usernames⟩

/-- An update of other columns. -/
theorem updateWhere (h : UsersKeyed rows) {id : String} {f : UserRow → UserRow}
    (hid : ∀ row, (f row).id = row.id) (hname : ∀ row, (f row).username = row.username) :
    UsersKeyed (updateWhere rows id f) := by
  refine h.of_columns (map_id_updateWhere hid) ?_
  rw [IdpForge.updateWhere, List.map_map]
  refine List.map_congr_left fun row _ => ?_
  simp only [Function.comp_apply]
  split
  · exact hname row
  · rfl

/-- **Every step keeps the keys unique.** New ids are drawn, so no row has them. -/
theorem step (h : UsersKeyed s.users) (hdrawn : s.users.map (·.id) ⊆ s.userIDs)
    (hstep : UsersStep cfg s a rows) : UsersKeyed rows := by
  cases hstep with
  | kept hsame => exact h.of_columns (hsame.map_eq fun _ => rfl) (hsame.map_eq fun _ => rfl)
  | @created _ row hcreated =>
      have hid : row.id ∉ s.users.map (·.id) := fun hmem => hcreated.fresh (hdrawn hmem)
      have hname : row.username ∉ s.users.map (·.username) := by
        intro hmem
        obtain ⟨other, hother, hname⟩ := List.mem_map.mp hmem
        have hunique := List.all_eq_true.mp hcreated.unique other hother
        simp [hname] at hunique
      refine ⟨?_, ?_⟩
      · rw [List.map_append, List.map_singleton, ← List.concat_eq_append]
        exact List.Nodup.concat hid h.ids
      · rw [List.map_append, List.map_singleton, ← List.concat_eq_append]
        exact List.Nodup.concat hname h.usernames
  | reset => exact h.updateWhere (fun _ => rfl) fun _ => rfl
  | changed => exact h.updateWhere (fun _ => rfl) fun _ => rfl
  | factors => exact h.updateWhere (fun _ => rfl) fun _ => rfl
  | deleted =>
      exact ⟨h.ids.sublist (List.filter_sublist.map _),
        h.usernames.sublist (List.filter_sublist.map _)⟩

end UsersKeyed

end IdpForge
