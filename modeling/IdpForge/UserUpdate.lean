import IdpForge.Users
import Mathlib.Logic.Function.Basic

/-!
# Updates of a User

`Update` runs up to three statements, one for each field it is given, outside a transaction, and
reads the user again at the end. A statement that fails ends the call with an error and leaves
what the statements before it have written. Two of the three also write `updated_at`.

## Main results

* `usersTableUpdate_forget`: the column `updated_at` aside, this is `usersUpdate`.
* `update_error_iff`: the call fails where one of its statements does.
* `update_row`: what the call leaves of the row.
* `update_allOrNothing_iff`: exactly when a failed update leaves the row as it was.
-/

namespace IdpForge

/-- The table of users with the column `updated_at`, by the id. -/
structure UsersTable where
  rows : List UserRow
  updatedAt : String → Int

/-- The `time.Now` of the two statements that write `updated_at`. -/
structure UpdateClock where
  email : Int
  employeeID : Int

/-- The row of a user, with its `updated_at`. -/
def UsersTable.row (t : UsersTable) (id : String) : Option (UserRow × Int) :=
  (t.rows.find? fun row => row.id = id).map fun row => (row, t.updatedAt id)

section Update

variable (fails : StoreOp → Bool) (clock : UpdateClock) (id : String)

namespace UsersTable

variable (t : UsersTable)

/-- `UPDATE users SET email = .., updated_at = ..`. -/
def setEmail (email : String) : Option UsersTable :=
  (updateEmail fails t.rows id email).map fun rows =>
    ⟨rows, Function.update t.updatedAt id clock.email⟩

/-- `UPDATE users SET status = ..`. -/
def setStatus (status : String) : Option UsersTable :=
  (updateStatus fails t.rows id status).map fun rows => { t with rows := rows }

/-- `UPDATE users SET employee_id = .., updated_at = ..`. -/
def setEmployeeID (employeeID : String) : Option UsersTable :=
  (updateEmployeeID fails t.rows id employeeID).map fun rows =>
    ⟨rows, Function.update t.updatedAt id clock.employeeID⟩

/-- One statement of `Update`, skipped when its field is not given. -/
def setField (field : Option String) (statement : String → Option UsersTable) :
    Option UsersTable :=
  match field with
  | none => some t
  | some value => statement value

/-- `Update`: the user, or `none` for an error, and the table it leaves. -/
def update (input : UpdateInput) : Option UserRow × UsersTable :=
  match t.setField input.email (t.setEmail fails clock id) with
  | none => (none, t)
  | some t =>
      match t.setField input.status (t.setStatus fails id) with
      | none => (none, t)
      | some t =>
          match t.setField input.employeeID (t.setEmployeeID fails clock id) with
          | none => (none, t)
          | some t => (usersGet fails t.rows id, t)

end UsersTable

/-- The places where `Update` can fail, in order: its three statements, and the last `Get`. -/
inductive UpdateStage where
  | email
  | status
  | employeeID
  | get
  deriving DecidableEq, Repr

/-- The fields that are written before a place. -/
def UpdateInput.before (input : UpdateInput) : UpdateStage → UpdateInput
  | .email => {}
  | .status => { email := input.email }
  | .employeeID => { email := input.email, status := input.status }
  | .get => input

/-- The first place where one of the statements fails on these rows. -/
def failsAt (rows : List UserRow) (input : UpdateInput) : Option UpdateStage :=
  if input.email.any fun v => (updateEmail fails rows id v).isNone then some .email
  else if input.status.any fun v => (updateStatus fails rows id v).isNone then some .status
  else if input.employeeID.any fun v => (updateEmployeeID fails rows id v).isNone then
    some .employeeID
  else if (usersGet fails rows id).isNone then some .get
  else none

/-- The row already has the values of the fields, and the `updated_at` that they are written
with. -/
structure AlreadyHas (input : UpdateInput) (row : UserRow) (updatedAt : Int) : Prop where
  email : ∀ v ∈ input.email, row.email = v
  status : ∀ v ∈ input.status, row.status = v
  employeeID : ∀ v ∈ input.employeeID, row.employeeID = nullableEmployeeID v
  stampEmployeeID : input.employeeID.isSome → updatedAt = clock.employeeID
  stampEmail : input.employeeID = none → input.email.isSome → updatedAt = clock.email

/-- The row and its `updated_at` after the fields are written. -/
def written (input : UpdateInput) (p : UserRow × Int) : UserRow × Int :=
  ({ p.1 with
      email := input.email.getD p.1.email
      status := input.status.getD p.1.status
      employeeID := (input.employeeID.map nullableEmployeeID).getD p.1.employeeID },
    if input.employeeID.isSome then clock.employeeID
    else if input.email.isSome then clock.email else p.2)

end Update

section Lemmas

variable {fails : StoreOp → Bool} {clock : UpdateClock} {id : String} {t t' : UsersTable}
  {input : UpdateInput} {rows : List UserRow} {p : UserRow × Int}

/-! ### The statements -/

/-- An update of the rows of one user, seen in the row found under the id. -/
theorem find?_updateWhere_self {f : UserRow → UserRow} (hf : ∀ row, (f row).id = row.id) :
    (updateWhere rows id f).find? (fun row => row.id = id) =
      (rows.find? fun row => row.id = id).map f := by
  rw [find?_updateWhere hf]
  cases hfind : rows.find? fun row => row.id = id with
  | none => rfl
  | some row =>
      have hid : row.id = id := by simpa using List.find?_some hfind
      rw [Option.map_some, Option.map_some, if_pos hid]

/-- A test that an update does not change finds as much after it. -/
theorem any_updateWhere {f : UserRow → UserRow} {g : UserRow → Bool}
    (hg : ∀ row, row.id = id → g (f row) = g row) :
    (updateWhere rows id f).any g = rows.any g := by
  have hsame : (g ∘ fun row => if row.id = id then f row else row) = g := by
    funext row
    simp only [Function.comp_apply]
    split
    · next hid => exact hg row hid
    · rfl
  rw [updateWhere, List.any_map, hsame]

/-- The employee id is taken or not, whatever else is written to the row. -/
theorem updateEmployeeID_updateWhere {f : UserRow → UserRow} (hf : ∀ row, (f row).id = row.id)
    (v : String) :
    (updateEmployeeID fails (updateWhere rows id f) id v).isNone =
      (updateEmployeeID fails rows id v).isNone := by
  rw [updateEmployeeID, updateEmployeeID, any_updateWhere fun row _ => by rw [hf],
    any_updateWhere fun row hid => by simp [hf, hid]]
  split <;> rfl

/-- The row after an update, with the `updated_at` it is given. -/
theorem row_updateWhere {f : UserRow → UserRow} (hf : ∀ row, (f row).id = row.id)
    (stamps : String → Int) :
    (UsersTable.mk (updateWhere t.rows id f) stamps).row id =
      (t.row id).map fun p => (f p.1, stamps id) := by
  simp only [UsersTable.row]
  rw [find?_updateWhere_self hf, Option.map_map, Option.map_map]
  rfl

/-- What the first statement writes. -/
theorem setEmail_eq_some {v : String} (h : t.setEmail fails clock id v = some t') :
    t'.row id = (t.row id).map (written clock { email := some v }) ∧
      ∀ w, (updateEmployeeID fails t'.rows id w).isNone =
        (updateEmployeeID fails t.rows id w).isNone := by
  obtain ⟨rows, hrows, rfl⟩ := Option.map_eq_some_iff.mp h
  obtain ⟨-, heq⟩ := Option.ite_none_left_eq_some.mp hrows
  obtain rfl := Option.some.inj heq
  refine ⟨?_, fun w => updateEmployeeID_updateWhere (fun _ => by rfl) w⟩
  rw [row_updateWhere fun _ => by rfl, Function.update_self]
  rfl

/-- What the second statement writes. -/
theorem setStatus_eq_some (clock : UpdateClock) {v : String}
    (h : t.setStatus fails id v = some t') :
    t'.row id = (t.row id).map (written clock { status := some v }) ∧
      ∀ w, (updateEmployeeID fails t'.rows id w).isNone =
        (updateEmployeeID fails t.rows id w).isNone := by
  obtain ⟨rows, hrows, rfl⟩ := Option.map_eq_some_iff.mp h
  obtain ⟨-, heq⟩ := Option.ite_none_left_eq_some.mp hrows
  obtain rfl := Option.some.inj heq
  refine ⟨?_, fun w => updateEmployeeID_updateWhere (fun _ => by rfl) w⟩
  rw [row_updateWhere fun _ => by rfl, UsersTable.row, Option.map_map, Option.map_map]
  rfl

/-- What the third statement writes. -/
theorem setEmployeeID_eq_some {v : String} (h : t.setEmployeeID fails clock id v = some t') :
    t'.row id = (t.row id).map (written clock { employeeID := some v }) := by
  obtain ⟨rows, hrows, rfl⟩ := Option.map_eq_some_iff.mp h
  obtain ⟨-, heq⟩ := Option.ite_none_left_eq_some.mp hrows
  obtain rfl := Option.some.inj heq
  rw [row_updateWhere fun _ => by rfl, Function.update_self]
  rfl

/-! ### The call -/

/-- A field whose statement fails. -/
theorem setField_eq_none {field : Option String} {statement : String → Option UsersTable}
    (h : (field.any fun v => (statement v).isNone) = true) : t.setField field statement = none := by
  cases field with
  | none => simp at h
  | some v => exact Option.isNone_iff_eq_none.mp h

/-- A field that is not given, or whose statement succeeds, is as it should be afterwards, and what
its statement keeps of the table is kept. -/
theorem setField_eq_written {field : Option String} {statement : String → Option UsersTable}
    {Q : UsersTable → Prop} (only : Option String → UpdateInput)
    (hnothing : written clock (only none) p = p) (hQ : Q t) (hrow : t.row id = some p)
    (hstatement : ∀ v t', statement v = some t' →
      t'.row id = (t.row id).map (written clock (only (some v))) ∧ Q t')
    (h : (field.any fun v => (statement v).isNone) = false) :
    ∃ t', t.setField field statement = some t' ∧
      t'.row id = some (written clock (only field) p) ∧ Q t' := by
  cases field with
  | none => exact ⟨t, rfl, by rw [hrow, hnothing], hQ⟩
  | some v =>
      rw [Option.any_some, Option.isNone_eq_false_iff] at h
      obtain ⟨t', ht'⟩ := Option.isSome_iff_exists.mp h
      obtain ⟨hwritten, hQ'⟩ := hstatement v t' ht'
      exact ⟨t', ht', by rw [hwritten, hrow, Option.map_some], hQ'⟩

/-- The first statement of a call, when it does not fail. -/
theorem setField_email (clock : UpdateClock) (hrow : t.row id = some p)
    (h : ¬ (input.email.any fun v => (updateEmail fails t.rows id v).isNone) = true) :
    ∃ t', t.setField input.email (t.setEmail fails clock id) = some t' ∧
      t'.row id = some (written clock { email := input.email } p) ∧
      ∀ w, (updateEmployeeID fails t'.rows id w).isNone =
        (updateEmployeeID fails t.rows id w).isNone := by
  have hfield : (input.email.any fun v => (t.setEmail fails clock id v).isNone) = false := by
    simpa only [UsersTable.setEmail, Option.isNone_map, Bool.not_eq_true] using h
  exact setField_eq_written (fun email => { email := email }) rfl (fun _ => rfl) hrow
    (fun _ _ hset => setEmail_eq_some hset) hfield

/-- The second statement fails or not, whatever the rows are. -/
theorem updateStatus_isNone (rows rows' : List UserRow) (v : String) :
    (updateStatus fails rows id v).isNone = (updateStatus fails rows' id v).isNone := by
  rw [updateStatus, updateStatus]
  split <;> rfl

/-- The second statement of a call, when it does not fail. -/
theorem setField_status (clock : UpdateClock) (hrow : t.row id = some p)
    (h : ¬ (input.status.any fun v => (updateStatus fails rows id v).isNone) = true) :
    ∃ t', t.setField input.status (t.setStatus fails id) = some t' ∧
      t'.row id = some (written clock { status := input.status } p) ∧
      ∀ w, (updateEmployeeID fails t'.rows id w).isNone =
        (updateEmployeeID fails t.rows id w).isNone := by
  have hfield : (input.status.any fun v => (t.setStatus fails id v).isNone) = false := by
    simpa only [UsersTable.setStatus, Option.isNone_map, Bool.not_eq_true,
      updateStatus_isNone t.rows rows] using h
  exact setField_eq_written (fun status => { status := status }) rfl (fun _ => rfl) hrow
    (fun _ _ hset => setStatus_eq_some clock hset) hfield

/-- The third statement of a call, when it does not fail. -/
theorem setField_employeeID (clock : UpdateClock) (hrow : t.row id = some p)
    (h : ¬ (input.employeeID.any fun v => (updateEmployeeID fails t.rows id v).isNone) = true) :
    ∃ t', t.setField input.employeeID (t.setEmployeeID fails clock id) = some t' ∧
      t'.row id = some (written clock { employeeID := input.employeeID } p) := by
  have hfield : (input.employeeID.any fun v => (t.setEmployeeID fails clock id v).isNone) =
      false := by
    simpa only [UsersTable.setEmployeeID, Option.isNone_map, Bool.not_eq_true] using h
  obtain ⟨t', ht', hwritten, -⟩ :=
    setField_eq_written (Q := fun _ => True) (fun employeeID => { employeeID := employeeID }) rfl
      trivial hrow (fun _ _ hset => ⟨setEmployeeID_eq_some hset, trivial⟩) hfield
  exact ⟨t', ht', hwritten⟩

/-- A `Get` finds nothing when it fails, or when there is no row. -/
theorem usersGet_isNone (hrow : t.row id = some p) :
    (usersGet fails t.rows id).isNone = fails .getUser := by
  obtain ⟨row, hfind, -⟩ := Option.map_eq_some_iff.mp hrow
  rw [usersGet, hfind]
  split
  · next hfails => rw [hfails, Option.isNone_none]
  · next hfails => rw [Bool.eq_false_iff.mpr hfails, Option.isNone_some]

/-- **What a call leaves of the row**: if it fails at some place, the fields before that place
are written. -/
theorem update_row (fails : StoreOp → Bool) (clock : UpdateClock) (input : UpdateInput)
    (hrow : t.row id = some p) :
    (∃ stage, failsAt fails id t.rows input = some stage ∧
      (t.update fails clock id input).1 = none ∧
      (t.update fails clock id input).2.row id = some (written clock (input.before stage) p)) ∨
    (failsAt fails id t.rows input = none ∧
      (t.update fails clock id input).1 ≠ none ∧
      (t.update fails clock id input).2.row id = some (written clock input p)) := by
  rw [failsAt, UsersTable.update]
  split
  case isTrue hemail =>
    have hfield : t.setField input.email (t.setEmail fails clock id) = none :=
      setField_eq_none (by simpa only [UsersTable.setEmail, Option.isNone_map] using hemail)
    rw [hfield]
    exact .inl ⟨.email, rfl, rfl, hrow⟩
  case isFalse hemail =>
    obtain ⟨t₁, ht₁, hrow₁, hsame₁⟩ := setField_email clock hrow hemail
    simp only [ht₁]
    split
    case isTrue hstatus =>
      have hfield : t₁.setField input.status (t₁.setStatus fails id) = none := by
        refine setField_eq_none ?_
        simpa only [UsersTable.setStatus, Option.isNone_map, updateStatus_isNone t₁.rows t.rows]
          using hstatus
      simp only [hfield]
      exact .inl ⟨.status, rfl, trivial, hrow₁⟩
    case isFalse hstatus =>
      obtain ⟨t₂, ht₂, hrow₂, hsame₂⟩ := setField_status clock hrow₁ hstatus
      simp only [ht₂]
      have hsame : ∀ w, (updateEmployeeID fails t.rows id w).isNone =
          (updateEmployeeID fails t₂.rows id w).isNone := fun w =>
        ((hsame₂ w).trans (hsame₁ w)).symm
      simp only [hsame]
      split
      case isTrue hemployee =>
        have hfield : t₂.setField input.employeeID (t₂.setEmployeeID fails clock id) = none := by
          refine setField_eq_none ?_
          simpa only [UsersTable.setEmployeeID, Option.isNone_map] using hemployee
        simp only [hfield]
        exact .inl ⟨.employeeID, rfl, trivial, hrow₂⟩
      case isFalse hemployee =>
        obtain ⟨t₃, ht₃, hrow₃⟩ := setField_employeeID clock hrow₂ hemployee
        simp only [ht₃, usersGet_isNone hrow]
        have hget : (usersGet fails t₃.rows id).isNone = fails .getUser := usersGet_isNone hrow₃
        split
        case isTrue hfails =>
          exact .inl ⟨.get, rfl, Option.isNone_iff_eq_none.mp (hget.trans hfails), hrow₃⟩
        case isFalse hfails =>
          refine .inr ⟨rfl, fun hnone => hfails ?_, hrow₃⟩
          rw [← hget, hnone, Option.isNone_none]

/-- The call fails where one of its statements does. -/
theorem update_error_iff (hrow : t.row id = some p) :
    (t.update fails clock id input).1 = none ↔ failsAt fails id t.rows input ≠ none := by
  rcases update_row fails clock input hrow with
    ⟨stage, hstage, herror, -⟩ | ⟨hstage, hok, -⟩
  · simp [hstage, herror]
  · simp [hstage, hok]

/-- Writing the fields changes nothing when the row already has them. -/
theorem written_eq_iff {row : UserRow} {updatedAt : Int} :
    written clock input (row, updatedAt) = (row, updatedAt) ↔
      AlreadyHas clock input row updatedAt := by
  constructor
  · intro h
    obtain ⟨hrow, hstamp⟩ := Prod.mk.inj h
    have hemail := congrArg UserRow.email hrow
    have hstatus := congrArg UserRow.status hrow
    have hemployee := congrArg UserRow.employeeID hrow
    refine ⟨fun v hv => ?_, fun v hv => ?_, fun v hv => ?_, fun hgiven => ?_,
      fun hmissing hgiven => ?_⟩
    · simpa [Option.mem_def.mp hv] using hemail.symm
    · simpa [Option.mem_def.mp hv] using hstatus.symm
    · simpa [Option.mem_def.mp hv] using hemployee.symm
    · simpa [hgiven] using hstamp.symm
    · simpa [hmissing, hgiven] using hstamp.symm
  · intro h
    have hemail : input.email.getD row.email = row.email := by
      cases hfield : input.email with
      | none => rfl
      | some v => exact (h.email v hfield).symm
    have hstatus : input.status.getD row.status = row.status := by
      cases hfield : input.status with
      | none => rfl
      | some v => exact (h.status v hfield).symm
    have hemployee :
        (input.employeeID.map nullableEmployeeID).getD row.employeeID = row.employeeID := by
      cases hfield : input.employeeID with
      | none => rfl
      | some v => exact (h.employeeID v hfield).symm
    refine Prod.ext ?_ ?_
    · simp only [written, hemail, hstatus, hemployee]
    · simp only [written]
      split
      · next hgiven => exact (h.stampEmployeeID hgiven).symm
      · next hmissing =>
          split
          · next hgiven => exact (h.stampEmail (by simpa using hmissing) hgiven).symm
          · rfl

/-- **When a failed update changes nothing.** For every stored user, a call that returns an error
leaves the row as it was if and only if the row already had what was written before the place
where the call fails. -/
theorem update_allOrNothing_iff {row : UserRow} {updatedAt : Int}
    (hrow : t.row id = some (row, updatedAt)) :
    ((t.update fails clock id input).1 = none →
        (t.update fails clock id input).2.row id = t.row id) ↔
      ∀ stage, failsAt fails id t.rows input = some stage →
        AlreadyHas clock (input.before stage) row updatedAt := by
  rcases update_row fails clock input hrow with
    ⟨stage, hstage, herror, hleft⟩ | ⟨hstage, hok, -⟩
  · simp only [hstage, herror, hleft, hrow, true_implies, Option.some.injEq, forall_eq',
      written_eq_iff]
  · simp [hstage, hok]

end Lemmas

/-- A statement on the table with `updated_at` is one on the rows. -/
theorem setField_forget {t : UsersTable} {field : Option String}
    {statement : String → Option UsersTable} {statement' : String → Option (List UserRow)}
    (h : ∀ v, (statement v).map (·.rows) = statement' v) :
    (t.setField field statement).map (·.rows) = updateField t.rows field statement' := by
  cases field with
  | none => rfl
  | some v => exact h v

/-- The column `updated_at` aside, `update` is `usersUpdate`. -/
theorem usersTableUpdate_forget (fails : StoreOp → Bool) (clock : UpdateClock) (id : String)
    (t : UsersTable) (input : UpdateInput) :
    ((t.update fails clock id input).1, (t.update fails clock id input).2.rows) =
      usersUpdate fails t.rows id input := by
  have hforget (rows : Option (List UserRow)) (f : List UserRow → UsersTable)
      (hf : ∀ rows, (f rows).rows = rows) : (rows.map f).map (·.rows) = rows := by
    cases rows with
    | none => rfl
    | some rows => exact congrArg some (hf rows)
  have hemail : (t.setField input.email (t.setEmail fails clock id)).map (·.rows) =
      updateField t.rows input.email (updateEmail fails t.rows id) :=
    setField_forget fun v => hforget _ _ fun _ => rfl
  rw [UsersTable.update, usersUpdate, ← hemail]
  cases t.setField input.email (t.setEmail fails clock id) with
  | none => rfl
  | some t₁ =>
      have hstatus : (t₁.setField input.status (t₁.setStatus fails id)).map (·.rows) =
          updateField t₁.rows input.status (updateStatus fails t₁.rows id) :=
        setField_forget fun v => hforget _ _ fun _ => rfl
      simp only [Option.map_some]
      rw [← hstatus]
      cases t₁.setField input.status (t₁.setStatus fails id) with
      | none => rfl
      | some t₂ =>
          have hemployee :
              (t₂.setField input.employeeID (t₂.setEmployeeID fails clock id)).map (·.rows) =
                updateField t₂.rows input.employeeID (updateEmployeeID fails t₂.rows id) :=
            setField_forget fun v => hforget _ _ fun _ => rfl
          simp only [Option.map_some]
          rw [← hemployee]
          cases t₂.setField input.employeeID (t₂.setEmployeeID fails clock id) with
          | none => rfl
          | some t₃ => rfl

/-- A user without an employee id. -/
def exampleAnn : UserRow :=
  ⟨"u1", "ann", "ann@old.example", none, none, "active", none, false, false, 0⟩

/-- The user, and another one with the employee id `E2`. -/
def exampleUsersTable : UsersTable where
  rows := [exampleAnn,
    ⟨"u2", "bob", "bob@old.example", some "E2", none, "active", none, false, false, 0⟩]
  updatedAt := fun _ => 0

/-- A new email address and an employee id that is taken. -/
def exampleTakenID : UpdateInput := { email := some "ann@new.example", employeeID := some "E2" }

/-- The call fails, and the address is changed. -/
theorem failed_update_changes_email :
    ¬ ∀ (fails : StoreOp → Bool) (clock : UpdateClock) (id : String) (t : UsersTable)
        (input : UpdateInput) (p : UserRow × Int), t.row id = some p →
      (t.update fails clock id input).1 = none →
        (t.update fails clock id input).2.row id = t.row id := by
  intro h
  have herror : (exampleUsersTable.update (fun _ => false) ⟨1, 2⟩ "u1" exampleTakenID).1 =
      none := by decide
  have hsame := h (fun _ => false) ⟨1, 2⟩ "u1" exampleUsersTable exampleTakenID _ rfl herror
  have hemail : ((exampleUsersTable.update (fun _ => false) ⟨1, 2⟩ "u1" exampleTakenID).2.row
      "u1").map (·.1.email) = some "ann@new.example" := by decide
  rw [hsame] at hemail
  simp [UsersTable.row, exampleUsersTable, exampleAnn] at hemail

/-- The employee id alone. -/
def exampleTakenIDAlone : UpdateInput := { employeeID := some "E2" }

/-- The call fails at its first statement, and the row is as before. -/
theorem update_allOrNothing_iff_example :
    (exampleUsersTable.update (fun _ => false) ⟨1, 2⟩ "u1" exampleTakenIDAlone).1 = none ∧
      (exampleUsersTable.update (fun _ => false) ⟨1, 2⟩ "u1" exampleTakenIDAlone).2.row "u1" =
        exampleUsersTable.row "u1" := by
  have hrow : exampleUsersTable.row "u1" = some (exampleAnn, 0) := rfl
  have herror : (exampleUsersTable.update (fun _ => false) ⟨1, 2⟩ "u1"
      exampleTakenIDAlone).1 = none := by decide
  refine ⟨herror, (update_allOrNothing_iff hrow).mpr (fun stage hstage => ?_) herror⟩
  have hfails : failsAt (fun _ => false) "u1" exampleUsersTable.rows exampleTakenIDAlone =
      some .employeeID := by decide
  obtain rfl := Option.some.inj (hfails.symm.trans hstage)
  constructor <;> simp [UpdateInput.before, exampleTakenIDAlone]

end IdpForge
