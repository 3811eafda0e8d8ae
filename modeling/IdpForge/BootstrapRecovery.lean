import IdpForge.LeaderLease
import IdpForge.PasswordOrigins
import IdpForge.Resolver

/-!
# Bootstraps that Stop Halfway

`bootstrap.Run` creates the first user, the role "admin" with its permissions and the
assignment of the role, one statement after the other outside any transaction, and does nothing
where there is a user already. So an invocation that stops after the user's row leaves a
database that every later invocation takes for a finished one.

An invocation comes with the ends of its statements. One that stops is one whose next statement
has failed, or was executed and not answered. The queries of the resolver are those of
`Resolver`, on tables at rest.

## Main results

* `runOps_complete`, `runOps_halfway`: what an invocation leaves of an empty database.
* `run_refines_bootstrapRun`: its users table is the one of `bootstrapRun`.
* `bootstrap_recovers_iff`: the sequences of invocations in which there is a full administrator
  whenever one has returned without an error.
* `bootstrap_strands`: an invocation without an error that leaves nobody in charge.
-/

open TransitionSystem

namespace IdpForge

/-- `adminPermissions`. -/
def adminPermissions : List Permission :=
  [⟨"users", "read"⟩, ⟨"users", "manage"⟩, ⟨"rbac", "manage"⟩, ⟨"iot", "read"⟩, ⟨"iot", "manage"⟩,
    ⟨"api_clients", "manage"⟩, ⟨"audit", "read"⟩, ⟨"metrics", "read"⟩, ⟨"settings", "read"⟩,
    ⟨"announcements", "manage"⟩]

/-- The statements of `Run`, and the invalidations of the cache between them. -/
inductive BootstrapOp where
  | countUsers
  | insertUser
  | getUser
  | createRole
  | createPermission (p : Permission)
  | grantPermission (p : Permission)
  | invalidateAll (p : Permission)
  | assignRole
  | invalidate
  deriving DecidableEq, Repr

/-- The text in front of the error of a statement. -/
def BootstrapOp.context : BootstrapOp → String
  | .countUsers => "count users"
  | .insertUser | .getUser => "create bootstrap admin"
  | .createRole => "create bootstrap admin role"
  | .createPermission p => "create permission " ++ p.resource ++ ":" ++ p.action
  | .grantPermission p | .invalidateAll p =>
      "grant " ++ p.resource ++ ":" ++ p.action ++ " to admin role"
  | .assignRole | .invalidate => "assign admin role"

/-- What the loop of `Run` executes. -/
def grantOps (permissions : List Permission) : List BootstrapOp :=
  permissions.flatMap fun p => [.createPermission p, .grantPermission p, .invalidateAll p]

/-- What `Run` executes before it assigns the role. -/
def setupOps : List BootstrapOp :=
  [.insertUser, .getUser, .createRole] ++ grantOps adminPermissions

/-- What `Run` executes where there is no user. -/
def bootstrapOps : List BootstrapOp := setupOps ++ [.assignRole, .invalidate]

/-- An invocation of `Run`: its configuration, what `randomPassword` and bcrypt answer, the ids
it draws and the ends of its statements. -/
structure Invocation where
  boot : BootstrapConfig
  generated : Option String
  hash : Option String
  userID : String
  roleID : String
  permissionID : Permission → String
  ending : BootstrapOp → StatementEnd

namespace Invocation

variable (driver : DBDriver) (inv : Invocation)

/-- The tables after a statement, `none` when the database refuses it. -/
def effect (t : Tables) : BootstrapOp → Option Tables
  | .insertUser => some { t with users := t.users ++ [inv.userID] }
  | .createRole => exec driver t (.createRole inv.roleID "admin")
  | .createPermission p =>
      exec driver t (.createPermission (inv.permissionID p) p.resource p.action)
  | .grantPermission p =>
      exec driver t (.grantPermissionToRole inv.roleID (inv.permissionID p))
  | .assignRole => exec driver t (.assignRoleToUser inv.userID inv.roleID)
  | .countUsers | .getUser | .invalidateAll _ | .invalidate => some t

/-- Executes statements up to the first error. -/
def runOps : List BootstrapOp → Tables → Except String Unit × Tables
  | [], t => (.ok (), t)
  | op :: ops, t =>
      match inv.effect driver t op, inv.ending op with
      | some t', .done => runOps ops t'
      | some t', .lost => (.error op.context, t')
      | _, _ => (.error op.context, t)

/-- `Run`. -/
def run (t : Tables) : Except String Unit × Tables :=
  if inv.ending .countUsers ≠ StatementEnd.done then (.error BootstrapOp.countUsers.context, t)
  else if 0 < t.users.length then (.ok (), t)
  else
    match inv.boot.password inv.generated with
    | none => (.error "generate bootstrap password", t)
    | some _ =>
        match inv.hash with
        | none => (.error BootstrapOp.insertUser.context, t)
        | some _ => inv.runOps driver bootstrapOps t

/-- On an empty table the invocation gets to writing the user. -/
def WritesUser : Prop :=
  inv.ending .countUsers = StatementEnd.done ∧ (inv.boot.password inv.generated).isSome ∧
    inv.hash.isSome ∧ (inv.ending .insertUser).executes = true

/-- On an empty table the invocation also gets to writing the role's assignment. -/
def Completes : Prop :=
  (∀ op ∈ setupOps, inv.ending op = StatementEnd.done) ∧
    (inv.ending .assignRole).executes = true

instance : Decidable inv.WritesUser := inferInstanceAs (Decidable (_ ∧ _))

instance : Decidable inv.Completes := inferInstanceAs (Decidable (_ ∧ _))

end Invocation

/-- The tables, and whether an invocation has returned without an error. -/
structure BootstrapState where
  tables : Tables
  returnedNil : Bool

/-- One invocation after the other. It is not enabled with ids that repeat. -/
def bootstrapStep (driver : DBDriver) (s : BootstrapState) (inv : Invocation) :
    Option BootstrapState :=
  if (adminPermissions.map inv.permissionID).Nodup then
    let answer := inv.run driver s.tables
    some ⟨answer.2, s.returnedNil || answer.1.isOk⟩
  else none

/-- Tables without rows. -/
def emptyTables : Tables := ⟨[], [], [], [], [], [], [], []⟩

/-- An empty database. -/
def BootstrapState.start : BootstrapState := ⟨emptyTables, false⟩

/-- There is a user whose resolved permissions are at least those of the administrator. -/
def Tables.HasAdmin (t : Tables) : Prop :=
  ∃ userID ∈ t.users, ∀ p ∈ adminPermissions, p ∈ (resolveFromDB (fun _ => t) userID).permissions

instance (t : Tables) : Decidable t.HasAdmin := inferInstanceAs (Decidable (∃ userID ∈ _, _))

/-- When an invocation has returned without an error, there is an administrator. -/
def BootstrapState.Recovered (s : BootstrapState) : Prop :=
  s.returnedNil = true → s.tables.HasAdmin

instance (s : BootstrapState) : Decidable s.Recovered := inferInstanceAs (Decidable (_ → _))

/-- The first invocation that writes the user also writes the assignment of the role, or none
after it gets an answer to its first query. -/
def FirstCompletes : List Invocation → Prop
  | [] => True
  | inv :: later =>
      if inv.WritesUser then
        inv.Completes ∨ ∀ inv' ∈ later, inv'.ending .countUsers ≠ StatementEnd.done
      else FirstCompletes later

/-! ### One invocation -/

section Run

variable {driver : DBDriver} {inv : Invocation} {ops ops' : List BootstrapOp} {t : Tables}

/-- Statements in a row. -/
theorem runOps_append : inv.runOps driver (ops ++ ops') t =
    match inv.runOps driver ops t with
    | (.ok (), t') => inv.runOps driver ops' t'
    | (.error e, t') => (.error e, t') := by
  induction ops generalizing t with
  | nil => rfl
  | cons op ops ih =>
      rw [List.cons_append, Invocation.runOps, Invocation.runOps]
      split
      · exact ih
      · rfl
      · rfl

/-- Without an error, every statement was answered. -/
theorem done_of_runOps_eq_ok (h : (inv.runOps driver ops t).1 = .ok ()) :
    ∀ op ∈ ops, inv.ending op = StatementEnd.done := by
  induction ops generalizing t with
  | nil => simp
  | cons op ops ih =>
      rw [Invocation.runOps] at h
      split at h
      · next hdone => exact List.forall_mem_cons.mpr ⟨hdone, ih h⟩
      · simp at h
      · simp at h

/-- What every statement keeps, all of them keep. -/
theorem runOps_keeps {P : Tables → Prop}
    (hkeeps : ∀ op ∈ ops, ∀ t t', inv.effect driver t op = some t' → P t → P t') (ht : P t) :
    P (inv.runOps driver ops t).2 := by
  induction ops generalizing t with
  | nil => exact ht
  | cons op ops ih =>
      rw [List.forall_mem_cons] at hkeeps
      rw [Invocation.runOps]
      split
      · next t' heffect _ => exact ih hkeeps.2 (hkeeps.1 t t' heffect ht)
      · next t' heffect _ => exact hkeeps.1 t t' heffect ht
      · exact ht

end Run

/-! ### What is left of an empty database -/

/-- The tables after some of the grants. -/
def Invocation.grantedTables (inv : Invocation) (permissions : List Permission) : Tables where
  users := [inv.userID]
  groups := []
  userGroups := []
  roles := [⟨inv.roleID, "admin"⟩]
  permissions := permissions.map fun p => ⟨inv.permissionID p, p.resource, p.action⟩
  rolePermissions := permissions.map fun p => (inv.roleID, inv.permissionID p)
  groupRoles := []
  userRoles := []

/-- No role is assigned to anybody. -/
def Tables.Unassigned (t : Tables) : Prop := t.userRoles = [] ∧ t.groupRoles = []

section Tables

variable {driver : DBDriver} {inv : Invocation} {t : Tables}

/-- Without assignments there is no administrator. -/
theorem Tables.Unassigned.not_hasAdmin (h : t.Unassigned) : ¬ t.HasAdmin := by
  rintro ⟨userID, -, hall⟩
  obtain ⟨r, hassigned, -⟩ :=
    backed_of_mem_permissions (hall ⟨"users", "read"⟩ (by simp [adminPermissions]))
  rcases hassigned with hdirect | ⟨_, -, _, -, hrole⟩
  · simp [h.1] at hdirect
  · simp [h.2] at hrole

/-- The statements before the last assign nothing. -/
theorem unassigned_of_setup {op : BootstrapOp} (hop : op ∈ setupOps) {t' : Tables}
    (heffect : inv.effect driver t op = some t') (h : t.Unassigned) : t'.Unassigned := by
  have hinsert : ∀ {rows : Option (List (String × String))},
      rows.map (fun rows => { t with rolePermissions := rows }) = some t' → t'.Unassigned := by
    intro rows hrows
    obtain ⟨_, -, rfl⟩ := Option.map_eq_some_iff.mp hrows
    exact h
  cases op with
  | createRole | createPermission _ =>
      simp only [Invocation.effect, exec] at heffect
      split at heffect
      · simp at heffect
      · exact Option.some.inj heffect ▸ h
  | grantPermission p => exact hinsert heffect
  | assignRole => simp [setupOps, grantOps] at hop
  | _ => exact Option.some.inj heffect ▸ h

/-- Only the first statement writes a user. -/
theorem users_of_effect {op : BootstrapOp} (hop : op ≠ .insertUser) {t' : Tables}
    (heffect : inv.effect driver t op = some t') : t'.users = t.users := by
  cases op with
  | insertUser => exact absurd rfl hop
  | createRole | createPermission _ =>
      simp only [Invocation.effect, exec] at heffect
      split at heffect
      · simp at heffect
      · rw [← Option.some.inj heffect]
  | grantPermission _ | assignRole =>
      obtain ⟨_, -, rfl⟩ := Option.map_eq_some_iff.mp heffect
      rfl
  | _ => rw [← Option.some.inj heffect]

variable (driver inv) in
/-- The statements add a user when the first one is executed. -/
theorem users_of_runOps (hwrites : (inv.ending .insertUser).executes = true) (ht : t.users = []) :
    (inv.runOps driver bootstrapOps t).2.users = [inv.userID] := by
  have hrest : ∀ op ∈ bootstrapOps.tail, op ≠ .insertUser := by decide
  have hsplit : bootstrapOps = .insertUser :: bootstrapOps.tail := rfl
  have hinserted : t.users ++ [inv.userID] = [inv.userID] := by simp [ht]
  rw [hsplit, Invocation.runOps]
  cases hend : inv.ending .insertUser with
  | done =>
      refine runOps_keeps (P := fun t => t.users = [inv.userID]) ?_ hinserted
      exact fun op hop t t' heffect ht => (users_of_effect (hrest op hop) heffect).trans ht
  | lost => exact hinserted
  | failed => simp [hend, StatementEnd.executes] at hwrites

variable (driver) in
/-- One more permission is created and granted. -/
theorem effect_grant {before : List Permission} {p : Permission}
    (hid : inv.permissionID p ∉ before.map inv.permissionID) (hp : p ∉ before) :
    ∃ t, inv.effect driver (inv.grantedTables before) (.createPermission p) = some t ∧
      inv.effect driver t (.grantPermission p) = some (inv.grantedTables (before ++ [p])) := by
  have hfree : ¬ (inv.permissionID p ∈ (inv.grantedTables before).permissionIDs ∨
      (⟨p.resource, p.action⟩ : Permission) ∈
        (inv.grantedTables before).permissions.map (·.permission)) := by
    simpa [Invocation.grantedTables, Tables.permissionIDs, PermissionRecord.permission,
      Function.comp_def] using And.intro (by simpa using hid) hp
  have hnew : (inv.roleID, inv.permissionID p) ∉ (inv.grantedTables before).rolePermissions := by
    simpa [Invocation.grantedTables] using hid
  refine ⟨_, by rw [Invocation.effect, exec, if_neg hfree], ?_⟩
  simp only [Invocation.effect, exec, insertRow, if_neg hnew]
  simp [Invocation.grantedTables, Tables.roleIDs, Tables.permissionIDs]

/-- **The loop of `Run`**, when all its statements are answered. -/
theorem runOps_grantOps {before permissions : List Permission}
    (hids : ((before ++ permissions).map inv.permissionID).Nodup)
    (hpermissions : (before ++ permissions).Nodup)
    (hdone : ∀ op ∈ grantOps permissions, inv.ending op = StatementEnd.done) :
    inv.runOps driver (grantOps permissions) (inv.grantedTables before) =
      (.ok (), inv.grantedTables (before ++ permissions)) := by
  induction permissions generalizing before with
  | nil => simp [grantOps, Invocation.runOps]
  | cons p permissions ih =>
      have hid : inv.permissionID p ∉ before.map inv.permissionID := by
        rw [List.map_append, List.nodup_append] at hids
        exact fun hmem => hids.2.2 _ hmem _ (by simp) rfl
      have hp : p ∉ before := by
        rw [List.nodup_append] at hpermissions
        exact fun hmem => hpermissions.2.2 _ hmem _ (by simp) rfl
      have hops : grantOps (p :: permissions) =
          .createPermission p :: .grantPermission p :: .invalidateAll p :: grantOps permissions :=
        rfl
      rw [hops, List.forall_mem_cons, List.forall_mem_cons, List.forall_mem_cons] at hdone
      obtain ⟨hcreate, hgrant, hinvalidate, hrest⟩ := hdone
      obtain ⟨t, heffect, heffect'⟩ := effect_grant driver hid hp
      have hsplit : before ++ p :: permissions = before ++ [p] ++ permissions := by simp
      rw [hops, Invocation.runOps, heffect, hcreate]
      dsimp only
      rw [Invocation.runOps, heffect', hgrant]
      dsimp only
      rw [Invocation.runOps, hinvalidate, hsplit]
      exact ih (hsplit ▸ hids) (hsplit ▸ hpermissions) hrest

/-- The grants and the assignment make an administrator. -/
theorem hasAdmin_assigned : ({ inv.grantedTables adminPermissions with
    userRoles := [(inv.userID, inv.roleID)] } : Tables).HasAdmin := by
  refine ⟨inv.userID, by simp [Invocation.grantedTables], fun p hp => ?_⟩
  refine mem_permissions_iff.mpr ⟨inv.roleID, ?_, ?_⟩
  · rw [resolvedRoleIDs, roleIDsFor, mem_roleIDSet, mem_directRoleIDs]
    exact .inl (by simp)
  · refine ⟨⟨inv.permissionID p, p.resource, p.action⟩, ?_, rfl, ?_⟩
    · exact List.mem_map.mpr ⟨p, hp, rfl⟩
    · exact List.mem_map.mpr ⟨p, hp, rfl⟩

/-- **An invocation that completes** makes an administrator of an empty database. -/
theorem runOps_complete (hids : (adminPermissions.map inv.permissionID).Nodup)
    (h : inv.Completes) : (inv.runOps driver bootstrapOps emptyTables).2.HasAdmin := by
  obtain ⟨hdone, hassign⟩ := h
  have hsetup : inv.runOps driver setupOps emptyTables =
      (.ok (), inv.grantedTables adminPermissions) := by
    have hfirst : inv.ending .insertUser = StatementEnd.done := hdone _ (by simp [setupOps])
    have hget : inv.ending .getUser = StatementEnd.done := hdone _ (by simp [setupOps])
    have hrole : inv.ending .createRole = StatementEnd.done := hdone _ (by simp [setupOps])
    have hloop : inv.runOps driver (grantOps adminPermissions) (inv.grantedTables []) =
        (.ok (), inv.grantedTables ([] ++ adminPermissions)) :=
      runOps_grantOps hids (by decide) fun op hop => hdone op (List.mem_append_right _ hop)
    simpa [setupOps, Invocation.runOps, Invocation.effect, hfirst, hget, hrole, exec, emptyTables,
      Tables.roleIDs, Invocation.grantedTables] using hloop
  have heffect : inv.effect driver (inv.grantedTables adminPermissions) .assignRole =
      some { inv.grantedTables adminPermissions with
        userRoles := [(inv.userID, inv.roleID)] } := by
    simp [Invocation.effect, exec, insertRow, Invocation.grantedTables, Tables.roleIDs]
  rw [bootstrapOps, runOps_append, hsetup]
  dsimp only
  rw [Invocation.runOps, heffect]
  cases hend : inv.ending .assignRole with
  | done =>
      dsimp only
      rw [Invocation.runOps]
      cases inv.ending .invalidate <;> exact hasAdmin_assigned
  | lost => exact hasAdmin_assigned
  | failed => simp [hend, StatementEnd.executes] at hassign

variable (driver) in
/-- **An invocation that stops halfway** leaves a user and no administrator, and an error. -/
theorem runOps_halfway (hwrites : (inv.ending .insertUser).executes = true)
    (h : ¬ inv.Completes) :
    (∃ e, (inv.runOps driver bootstrapOps emptyTables).1 = .error e) ∧
      (inv.runOps driver bootstrapOps emptyTables).2.users = [inv.userID] ∧
      ¬ (inv.runOps driver bootstrapOps emptyTables).2.HasAdmin := by
  refine ⟨?_, ?_, ?_⟩
  · cases hanswer : (inv.runOps driver bootstrapOps emptyTables).1 with
    | error e => exact ⟨e, rfl⟩
    | ok u =>
        have hdone := done_of_runOps_eq_ok hanswer
        refine absurd ⟨fun op hop => hdone op (List.mem_append_left _ hop), ?_⟩ h
        rw [hdone .assignRole (by simp [bootstrapOps])]
        rfl
  · exact users_of_runOps driver inv hwrites rfl
  · have hsetup : (inv.runOps driver setupOps emptyTables).2.Unassigned :=
      runOps_keeps (fun op hop t t' heffect => unassigned_of_setup hop heffect) ⟨rfl, rfl⟩
    rw [bootstrapOps, runOps_append]
    cases hanswer : inv.runOps driver setupOps emptyTables with
    | mk answer t =>
        rw [hanswer] at hsetup
        cases answer with
        | error e => exact hsetup.not_hasAdmin
        | ok u =>
            have hdone := done_of_runOps_eq_ok (congrArg Prod.fst hanswer)
            have hfailed : inv.ending .assignRole = StatementEnd.failed := by
              cases hend : inv.ending .assignRole with
              | failed => rfl
              | done | lost => exact absurd ⟨hdone, by rw [hend]; rfl⟩ h
            have hstop : inv.runOps driver [.assignRole, .invalidate] t =
                (.error BootstrapOp.assignRole.context, t) := by
              rw [Invocation.runOps, hfailed]
              cases inv.effect driver t .assignRole <;> rfl
            dsimp only
            rw [hstop]
            exact hsetup.not_hasAdmin

end Tables

/-- **The users table is that of `bootstrapRun`** after an invocation without an error. -/
theorem run_refines_bootstrapRun {cfg : AccountConfig} {rows : List UserRow} {now : Int}
    {driver : DBDriver} {inv : Invocation} {t : Tables} (h : (inv.run driver t).1 = .ok ())
    (hrows : rows.map (·.id) = t.users)
    (hfits : ∀ password, inv.boot.password inv.generated = some password →
      cfg.hashes password inv.hash = true) :
    ∃ rows', bootstrapRun cfg (fun _ => false) inv.boot inv.generated rows now inv.userID inv.hash =
        some rows' ∧ rows'.map (·.id) = (inv.run driver t).2.users := by
  have hlength : rows.length = t.users.length := by rw [← hrows, List.length_map]
  rw [Invocation.run] at h ⊢
  rw [bootstrapRun, hlength]
  split at h
  · simp at h
  · next hcount =>
      rw [if_neg hcount]
      split at h
      · next hsome => exact ⟨rows, by simp [hsome], by simp [hsome, hrows]⟩
      · next hnone =>
          rw [if_neg hnone, if_neg hnone]
          have husers : t.users = [] := by simpa using hnone
          obtain rfl : rows = [] := by simpa [husers] using hrows
          split at h
          · simp at h
          · next password hpassword =>
              split at h
              · simp at h
              · next hash hhash =>
                  have hinsert := done_of_runOps_eq_ok h .insertUser (by decide)
                  have hone := users_of_runOps driver inv (by rw [hinsert]; rfl) husers
                  have hfit := hfits password hpassword
                  rw [hhash] at hfit
                  simp only [hpassword, hhash, hone, hfit, usersCreate, uniqueAmong,
                    Option.bind_some, if_true, List.all_nil]
                  exact ⟨_, rfl, rfl⟩

/-! ### Sequences of invocations -/

section Sequences

variable {driver : DBDriver} {s s' : BootstrapState} {inv : Invocation}

/-- An invocation that is enabled draws ids that do not repeat. -/
theorem bootstrapStep_eq_some (h : bootstrapStep driver s inv = some s') :
    (adminPermissions.map inv.permissionID).Nodup ∧ s'.tables = (inv.run driver s.tables).2 ∧
      s'.returnedNil = (s.returnedNil || (inv.run driver s.tables).1.isOk) := by
  rw [bootstrapStep] at h
  split at h
  · next hids =>
      obtain rfl := Option.some.inj h
      exact ⟨hids, rfl, rfl⟩
  · simp at h

variable (driver inv) in
/-- Where there is a user, an invocation changes nothing, and returns without an error when its
first query is answered. -/
theorem run_of_users {t : Tables} (h : t.users ≠ []) : (inv.run driver t).2 = t ∧
    ((inv.run driver t).1.isOk = true ↔ inv.ending .countUsers = StatementEnd.done) := by
  rw [Invocation.run]
  split
  · next hcount => exact ⟨rfl, by simpa [Except.isOk, Except.toBool] using hcount⟩
  · next hcount =>
      rw [if_pos (List.length_pos_iff.mpr h)]
      exact ⟨rfl, by simpa [Except.isOk, Except.toBool] using hcount⟩

variable (driver) in
/-- An invocation that does not get to writing the user leaves an empty database as it is, with
an error. -/
theorem run_of_not_writesUser (h : ¬ inv.WritesUser) :
    (inv.run driver emptyTables).2 = emptyTables ∧
      (inv.run driver emptyTables).1.isOk = false := by
  rw [Invocation.run]
  split
  · exact ⟨rfl, rfl⟩
  · next hcount =>
      rw [if_neg (by simp [emptyTables])]
      split
      · exact ⟨rfl, rfl⟩
      · next hpassword =>
          split
          · exact ⟨rfl, rfl⟩
          · next hhash =>
              have hfailed : inv.ending .insertUser = StatementEnd.failed := by
                by_contra hne
                refine h ⟨not_not.mp hcount, Option.isSome_of_eq_some hpassword,
                  Option.isSome_of_eq_some hhash, ?_⟩
                cases hend : inv.ending .insertUser with
                | failed => exact absurd hend hne
                | done | lost => rfl
              have hops : inv.runOps driver bootstrapOps emptyTables =
                  (.error BootstrapOp.insertUser.context, emptyTables) := by
                have hsplit : bootstrapOps = .insertUser :: bootstrapOps.tail := rfl
                rw [hsplit, Invocation.runOps, hfailed]
                rfl
              rw [hops]
              exact ⟨rfl, rfl⟩

/-- An invocation that writes the user runs its statements. -/
theorem run_of_writesUser (h : inv.WritesUser) :
    inv.run driver emptyTables = inv.runOps driver bootstrapOps emptyTables := by
  obtain ⟨hcount, hpassword, hhash, -⟩ := h
  obtain ⟨password, hpassword⟩ := Option.isSome_iff_exists.mp hpassword
  obtain ⟨hash, hhash⟩ := Option.isSome_iff_exists.mp hhash
  rw [Invocation.run, if_neg (not_not.mpr hcount), if_neg (by simp [emptyTables]), hpassword, hhash]

/-- Once there is a user, all is well when there is an administrator, or no invocation gets an
answer to its first query. -/
theorem alongRun_of_users {as : List Invocation} (husers : s.tables.users ≠ [])
    (hrun : run (bootstrapStep driver) s as = some s') :
    AlongRun (bootstrapStep driver) BootstrapState.Recovered s as ↔
      s.tables.HasAdmin ∨ (s.returnedNil = false ∧
        ∀ inv ∈ as, inv.ending .countUsers ≠ StatementEnd.done) := by
  induction as generalizing s with
  | nil =>
      rw [alongRun_nil_iff, BootstrapState.Recovered]
      cases s.returnedNil <;> simp
  | cons inv as ih =>
      obtain ⟨t, ht, hrest⟩ := (run_cons_eq_some _).mp hrun
      obtain ⟨-, htables, hnil⟩ := bootstrapStep_eq_some ht
      obtain ⟨hkept, hok⟩ := run_of_users driver inv husers
      have hfailed : (inv.run driver s.tables).1.isOk = false ↔
          inv.ending .countUsers ≠ StatementEnd.done := by
        rw [← Bool.not_eq_true, hok]
      rw [hkept] at htables
      rw [alongRun_cons_iff ht, ih (htables ▸ husers) hrest, htables, hnil,
        BootstrapState.Recovered, List.forall_mem_cons, Bool.or_eq_false_iff, hfailed]
      by_cases hadmin : s.tables.HasAdmin
      · simp [hadmin]
      · cases s.returnedNil <;> simp [hadmin]

/-- **When the bootstrap recovers.** In a sequence of invocations on an empty database there is
an administrator whenever an invocation has returned without an error, if and only if the first
one that writes the user also writes the assignment of the role, or no later one gets an answer
to its first query. -/
theorem bootstrap_recovers_iff {as : List Invocation}
    (hrun : run (bootstrapStep driver) .start as = some s') :
    AlongRun (bootstrapStep driver) BootstrapState.Recovered .start as ↔ FirstCompletes as := by
  induction as with
  | nil =>
      rw [alongRun_nil_iff]
      simp [BootstrapState.Recovered, BootstrapState.start, FirstCompletes]
  | cons inv as ih =>
      obtain ⟨t, ht, hrest⟩ := (run_cons_eq_some _).mp hrun
      obtain ⟨hids, htables, hnil⟩ := bootstrapStep_eq_some ht
      have hstart : BootstrapState.start.Recovered := by
        simp [BootstrapState.Recovered, BootstrapState.start]
      rw [alongRun_cons_iff ht, and_iff_right hstart, FirstCompletes]
      by_cases hwrites : inv.WritesUser
      · rw [if_pos hwrites]
        simp only [BootstrapState.start, run_of_writesUser hwrites] at htables hnil
        by_cases hcompletes : inv.Completes
        · have hadmin : t.tables.HasAdmin := htables ▸ runOps_complete hids hcompletes
          have husers : t.tables.users ≠ [] := List.ne_nil_of_mem hadmin.choose_spec.1
          rw [alongRun_of_users husers hrest]
          simp [hcompletes, hadmin]
        · obtain ⟨⟨e, herror⟩, husers, hadmin⟩ :=
            runOps_halfway driver hwrites.2.2.2 hcompletes
          rw [← htables] at husers hadmin
          rw [herror] at hnil
          rw [alongRun_of_users (by simp [husers]) hrest]
          simp [hcompletes, hadmin, hnil, Except.isOk, Except.toBool]
      · rw [if_neg hwrites]
        obtain ⟨hkept, hfailed⟩ := run_of_not_writesUser driver hwrites
        have hsame : t = .start := by
          cases t with
          | mk tables returnedNil =>
              simp only [BootstrapState.start] at htables hnil
              rw [BootstrapState.start, htables, hnil, hkept, hfailed]
              rfl
        subst hsame
        exact ih hrest

end Sequences

/-- An invocation with a configured password, in which these statements fail. -/
def exampleInvocation (failing : List BootstrapOp) : Invocation where
  boot := exampleBoot
  generated := none
  hash := some "bcrypt:changeme"
  userID := "u"
  roleID := "r"
  permissionID := fun p => p.resource ++ ":" ++ p.action
  ending := fun op => if op ∈ failing then .failed else .done

/-- A start that fails before it writes the user is made good by the next one, and a failure of
the last invalidation does no harm. -/
theorem bootstrap_recovers_iff_example :
    ∃ s, run (bootstrapStep .sqlite) .start [exampleInvocation [.insertUser],
        exampleInvocation [.invalidate], exampleInvocation []] = some s ∧
      AlongRun (bootstrapStep .sqlite) BootstrapState.Recovered .start
        [exampleInvocation [.insertUser], exampleInvocation [.invalidate],
          exampleInvocation []] := by
  have hsome : (run (bootstrapStep .sqlite) .start [exampleInvocation [.insertUser],
      exampleInvocation [.invalidate], exampleInvocation []]).isSome = true := by
    decide +kernel
  obtain ⟨s, hs⟩ := Option.isSome_iff_exists.mp hsome
  refine ⟨s, hs, (bootstrap_recovers_iff hs).mpr ?_⟩
  rw [FirstCompletes, if_neg (by decide +kernel), FirstCompletes, if_pos (by decide +kernel)]
  exact .inl (by decide +kernel)

/-- **Nobody is in charge.** The role of the first invocation cannot be created, and the second
one returns without an error. -/
theorem bootstrap_strands :
    ¬ ∀ (driver : DBDriver) (as : List Invocation) (s : BootstrapState),
      run (bootstrapStep driver) .start as = some s →
        s.returnedNil = true → s.tables.HasAdmin := by
  intro h
  have hlast : (run (bootstrapStep .sqlite) .start
      [exampleInvocation [.createRole], exampleInvocation []]).any
        (fun s => s.returnedNil && !decide s.tables.HasAdmin) = true := by
    decide +kernel
  obtain ⟨s, hs, hstranded⟩ := (Option.any_eq_true _ _).mp hlast
  rw [Bool.and_eq_true, Bool.not_eq_true', decide_eq_false_iff_not] at hstranded
  exact hstranded.2 (h .sqlite _ s hs hstranded.1)

end IdpForge
