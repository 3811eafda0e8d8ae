import Mathlib.Data.List.Basic

/-!
# The Users Table

The rows of `users` with the columns that logins and the user administration read, and the
statements of the repository on them. A statement that fails, for a reason of the database's
own or because a unique column is taken, changes nothing. Password hashes are opaque here:
each statement takes the finished hash.

## Main results

* `usersCreate_ids`, `usersDelete_eq_rows` and the lemmas between them: what each statement
  makes of the column of ids.
-/

namespace IdpForge

/-- A row of `users`. -/
structure UserRow where
  id : String
  username : String
  email : String
  employeeID : Option String
  passwordHash : Option String
  status : String
  mfaSecret : Option String
  mfaEnabled : Bool
  forcePasswordChange : Bool
  passwordChangedAt : Int
  deriving DecidableEq, Repr

/-- `StatusActive`. -/
def statusActive : String := "active"

/-- `StatusDisabled`. -/
def statusDisabled : String := "disabled"

/-- The operations on the stores, one request meeting a set of failing ones. -/
inductive StoreOp where
  | getUser | getByUsername | passwordHash | passwordAge | insertUser
  | updateEmail | updateStatus | updateEmployeeID | setPassword | assignDefaultPassword
  | deleteUser | verifyMFA | insertCredential | deleteCredential
  | readLock | increment | writeLock | clearFailures
  | readSession | storeSession | destroySession | storeCode
  deriving DecidableEq, Repr

section Statements

variable (fails : StoreOp → Bool) (rows : List UserRow)

/-- `Get`. -/
def usersGet (id : String) : Option UserRow :=
  if fails .getUser then none else rows.find? fun row => row.id = id

/-- `GetByUsername`. -/
def getByUsername (username : String) : Option UserRow :=
  if fails .getByUsername then none else rows.find? fun row => row.username = username

/-- `PasswordHash`: the empty string for a user without one. -/
def passwordHash (username : String) : Option String :=
  if fails .passwordHash then none
  else (rows.find? fun row => row.username = username).map fun row => row.passwordHash.getD ""

/-- `PasswordAge`. -/
def passwordAge (now : Int) (id : String) : Option Int :=
  if fails .passwordAge then none
  else (rows.find? fun row => row.id = id).map fun row => now - row.passwordChangedAt

/-- `mfa.Verify`, where `validate` checks a code against a secret: `none` without a secret,
or when the query fails. -/
def mfaVerify (validate : String → String → Bool) (id code : String) : Option Bool :=
  if fails .verifyMFA then none
  else
    match (rows.find? fun row => row.id = id).bind fun row => row.mfaSecret with
    | none => none
    | some secret => if secret = "" then none else some (validate code secret)

/-- An update of the rows of one user. -/
def updateWhere (id : String) (f : UserRow → UserRow) : List UserRow :=
  rows.map fun row => if row.id = id then f row else row

/-- `nullableString` of an employee id. -/
def nullableEmployeeID (employeeID : String) : Option String :=
  if employeeID = "" then none else some employeeID

/-- The row breaks no unique column: another row has neither its id nor its user name, its
email address or its employee id. -/
def uniqueAmong (row : UserRow) : Bool :=
  rows.all fun other => other.id ≠ row.id && other.username ≠ row.username &&
    other.email ≠ row.email && (row.employeeID = none || other.employeeID ≠ row.employeeID)

/-- `Create`: the new row under its fresh id, flagged to force a password change. -/
def usersCreate (now : Int) (id username email employeeID hash : String) :
    Option (List UserRow) :=
  let row : UserRow := {
    id := id
    username := username
    email := email
    employeeID := nullableEmployeeID employeeID
    passwordHash := some hash
    status := statusActive
    mfaSecret := none
    mfaEnabled := false
    forcePasswordChange := true
    passwordChangedAt := now }
  if fails .insertUser || !uniqueAmong rows row then none else some (rows ++ [row])

/-- `SetPassword`, `none` when it fails. -/
def setPassword (now : Int) (id hash : String) : Option (List UserRow) :=
  if fails .setPassword then none
  else
    some (updateWhere rows id fun row => { row with
      passwordHash := some hash, passwordChangedAt := now, forcePasswordChange := false })

/-- The outcomes of a statement that reports the rows it affected. -/
inductive Affected where
  | failed
  | noRows
  | rows (rows : List UserRow)
  deriving DecidableEq, Repr

/-- `AssignDefaultPassword`. -/
def assignDefaultPassword (now : Int) (id hash : String) : Affected :=
  if fails .assignDefaultPassword then .failed
  else if rows.any fun row => row.id = id then
    .rows (updateWhere rows id fun row => { row with
      passwordHash := some hash, passwordChangedAt := now, forcePasswordChange := true })
  else .noRows

/-- `Delete`. -/
def usersDelete (id : String) : Affected :=
  if fails .deleteUser then .failed
  else if rows.any fun row => row.id = id then .rows (rows.filter fun row => row.id ≠ id)
  else .noRows

/-- `UpdateInput`. -/
structure UpdateInput where
  email : Option String := none
  employeeID : Option String := none
  status : Option String := none
  deriving DecidableEq, Repr

/-- The first statement of `Update`. -/
def updateEmail (id email : String) : Option (List UserRow) :=
  if fails .updateEmail ||
      (rows.any (fun row => row.id = id) && rows.any fun row => row.id ≠ id && row.email = email)
    then none
  else some (updateWhere rows id fun row => { row with email := email })

/-- The second statement of `Update`. -/
def updateStatus (id status : String) : Option (List UserRow) :=
  if fails .updateStatus then none
  else some (updateWhere rows id fun row => { row with status := status })

/-- The third statement of `Update`. -/
def updateEmployeeID (id employeeID : String) : Option (List UserRow) :=
  if fails .updateEmployeeID ||
      (employeeID ≠ "" && rows.any (fun row => row.id = id) &&
        rows.any fun row => row.id ≠ id && row.employeeID = some employeeID) then none
  else
    some (updateWhere rows id fun row => { row with
      employeeID := nullableEmployeeID employeeID })

/-- One statement of `Update`, skipped when its field is not given. -/
def updateField (field : Option String) (statement : String → Option (List UserRow)) :
    Option (List UserRow) :=
  match field with
  | none => some rows
  | some value => statement value

/-- `Update`: the user, if every statement succeeded, and the rows after the last statement
that did. -/
def usersUpdate (id : String) (input : UpdateInput) : Option UserRow × List UserRow :=
  match updateField rows input.email (updateEmail fails rows id) with
  | none => (none, rows)
  | some rows =>
      match updateField rows input.status (updateStatus fails rows id) with
      | none => (none, rows)
      | some rows =>
          match updateField rows input.employeeID (updateEmployeeID fails rows id) with
          | none => (none, rows)
          | some rows => (usersGet fails rows id, rows)

end Statements

/-! ### The password policy -/

/-- `config.PasswordPolicyConfig`. -/
structure PasswordPolicy where
  minLength : Int
  requireUppercase : Bool
  requireLowercase : Bool
  requireNumber : Bool
  requireSpecial : Bool
  deriving DecidableEq, Repr

/-- The classes of the `unicode` package. -/
structure UnicodeClasses where
  isUpper : Char → Bool
  isLower : Char → Bool
  isNumber : Char → Bool

/-- The characters of `ValidatePassword` that count as special. -/
def specialCharacters : String := "!@#$%^&*()_+-=[]\x7b\x7d|;:'\",.<>/?`~\\"

/-- `ValidatePassword`. A character counts for the first class of the switch it is in. -/
def validatePassword (unicode : UnicodeClasses) (policy : PasswordPolicy) (password : String) :
    Except String Unit :=
  let upper := unicode.isUpper
  let lower := fun c => !upper c && unicode.isLower c
  let number := fun c => !upper c && !unicode.isLower c && unicode.isNumber c
  let special := fun c =>
    !upper c && !unicode.isLower c && !unicode.isNumber c && specialCharacters.toList.contains c
  let has := fun (p : Char → Bool) => password.toList.any p
  if (password.utf8ByteSize : Int) < policy.minLength then
    .error ("password must be at least " ++ toString policy.minLength ++ " characters")
  else if policy.requireUppercase && !has upper then
    .error "password must contain at least one uppercase letter"
  else if policy.requireLowercase && !has lower then
    .error "password must contain at least one lowercase letter"
  else if policy.requireNumber && !has number then
    .error "password must contain at least one number"
  else if policy.requireSpecial && !has special then
    .error "password must contain at least one special character"
  else .ok ()

/-! ### Reading the rows -/

section Lemmas

variable {fails : StoreOp → Bool} {rows rows' : List UserRow} {id : String}

/-- `Get` finds a row under its id. -/
theorem usersGet_mem {row : UserRow} (h : usersGet fails rows id = some row) :
    row ∈ rows ∧ row.id = id := by
  rw [usersGet] at h
  split at h
  · simp at h
  · exact ⟨List.mem_of_find?_eq_some h, by simpa using List.find?_some h⟩

/-- The rows after an update. -/
theorem forall_mem_updateWhere {f : UserRow → UserRow} {P : UserRow → Prop} :
    (∀ row ∈ updateWhere rows id f, P row) ↔
      ∀ row ∈ rows, (row.id = id → P (f row)) ∧ (row.id ≠ id → P row) := by
  simp only [updateWhere, List.forall_mem_map]
  refine forall₂_congr fun row _ => ?_
  by_cases hid : row.id = id <;> simp [hid]

/-- An update that keeps the ids keeps the column. -/
theorem map_id_updateWhere {f : UserRow → UserRow} (hf : ∀ row, (f row).id = row.id) :
    (updateWhere rows id f).map (·.id) = rows.map (·.id) := by
  rw [updateWhere, List.map_map]
  refine List.map_congr_left fun row _ => ?_
  simp only [Function.comp_apply]
  split
  · exact hf row
  · rfl

/-- An update that keeps the ids keeps what is found under an id, and updates it if it is the
id's. -/
theorem find?_updateWhere {f : UserRow → UserRow} {id' : String}
    (hf : ∀ row, (f row).id = row.id) :
    (updateWhere rows id f).find? (fun row => row.id = id') =
      (rows.find? fun row => row.id = id').map fun row => if row.id = id then f row else row := by
  have hsame : ((fun row : UserRow => decide (row.id = id')) ∘ fun row =>
      if row.id = id then f row else row) = fun row => decide (row.id = id') := by
    funext row
    simp only [Function.comp_apply]
    split
    · rw [hf row]
    · rfl
  rw [updateWhere, List.find?_map, hsame]

/-- `Create` adds the new id. -/
theorem usersCreate_ids {now : Int} {username email employeeID hash : String}
    (h : usersCreate fails rows now id username email employeeID hash = some rows') :
    rows'.map (·.id) = rows.map (·.id) ++ [id] := by
  rw [usersCreate] at h
  split at h
  · simp at h
  · obtain rfl := Option.some.inj h
    simp

/-- `SetPassword` keeps the ids. -/
theorem setPassword_ids {now : Int} {hash : String}
    (h : setPassword fails rows now id hash = some rows') :
    rows'.map (·.id) = rows.map (·.id) := by
  rw [setPassword] at h
  split at h
  · simp at h
  · exact Option.some.inj h ▸ map_id_updateWhere fun _ => rfl

/-- `AssignDefaultPassword` keeps the ids. -/
theorem assignDefaultPassword_ids {now : Int} {hash : String}
    (h : assignDefaultPassword fails rows now id hash = .rows rows') :
    rows'.map (·.id) = rows.map (·.id) := by
  rw [assignDefaultPassword] at h
  split at h
  · simp at h
  · split at h
    · exact Affected.rows.inj h ▸ map_id_updateWhere fun _ => rfl
    · simp at h

/-- `Delete` removes the rows of a user it finds. -/
theorem usersDelete_eq_rows (h : usersDelete fails rows id = .rows rows') :
    id ∈ rows.map (·.id) ∧ rows' = rows.filter fun row => row.id ≠ id := by
  rw [usersDelete] at h
  split at h
  · simp at h
  · split at h
    · next hany =>
        refine ⟨?_, (Affected.rows.inj h).symm⟩
        obtain ⟨row, hrow, hid⟩ := List.any_eq_true.mp hany
        exact List.mem_map.mpr ⟨row, hrow, by simpa using hid⟩
    · simp at h

/-- A statement of `Update` that keeps the ids keeps them also when it is skipped. -/
theorem updateField_ids {field : Option String} {statement : String → Option (List UserRow)}
    (hs : ∀ value rows', statement value = some rows' → rows'.map (·.id) = rows.map (·.id))
    (h : updateField rows field statement = some rows') :
    rows'.map (·.id) = rows.map (·.id) := by
  cases field with
  | none => rw [Option.some.inj h]
  | some value => exact hs value rows' h

/-- `Update` keeps the ids. -/
theorem usersUpdate_ids {input : UpdateInput} :
    (usersUpdate fails rows id input).2.map (·.id) = rows.map (·.id) := by
  have hemail : ∀ rows value rows', updateEmail fails rows id value = some rows' →
      rows'.map (·.id) = rows.map (·.id) := by
    intro rows value rows' h
    rw [updateEmail] at h
    split at h
    · simp at h
    · exact Option.some.inj h ▸ map_id_updateWhere fun _ => rfl
  have hstatus : ∀ rows value rows', updateStatus fails rows id value = some rows' →
      rows'.map (·.id) = rows.map (·.id) := by
    intro rows value rows' h
    rw [updateStatus] at h
    split at h
    · simp at h
    · exact Option.some.inj h ▸ map_id_updateWhere fun _ => rfl
  have hemployee : ∀ rows value rows', updateEmployeeID fails rows id value = some rows' →
      rows'.map (·.id) = rows.map (·.id) := by
    intro rows value rows' h
    rw [updateEmployeeID] at h
    split at h
    · simp at h
    · exact Option.some.inj h ▸ map_id_updateWhere fun _ => rfl
  rw [usersUpdate]
  split
  · rfl
  · next rows₁ h₁ =>
      have hids₁ := updateField_ids (hemail rows) h₁
      split
      · exact hids₁
      · next rows₂ h₂ =>
          have hids₂ := (updateField_ids (hstatus rows₁) h₂).trans hids₁
          split
          · exact hids₂
          · next rows₃ h₃ => exact (updateField_ids (hemployee rows₂) h₃).trans hids₂

/-- `Update` answers with the row of the user. -/
theorem usersUpdate_fst {input : UpdateInput} {user : UserRow}
    (h : (usersUpdate fails rows id input).1 = some user) :
    user ∈ (usersUpdate fails rows id input).2 ∧ user.id = id := by
  rw [usersUpdate] at h ⊢
  split at h
  · simp at h
  · split at h
    · simp at h
    · split at h
      · simp at h
      · exact usersGet_mem h

end Lemmas

end IdpForge
