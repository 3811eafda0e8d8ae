import Mathlib.Logic.Relation
import IdpForge.Permission

/-!
# The Tables of Access Control

The seven tables that decide what a user may do, the access they declare, and the
statements by which `Admin` changes them. An assignment row is the pair of ids it holds.
`Holds` is the declared model: a role that exists, grants the permission and is assigned to
the user, directly or through a group or an ancestor of it.

What the constraints of the schema do depends on the driver. Postgres and MySQL delete what
refers to a deleted row, SQL Server refuses to delete a role that is still assigned, and
SQLite, as the server opens it, does not enforce references.

## Main results

* `exec_referring`: a driver that enforces the references keeps them in every statement.
* `keeps_of_exec_of_not_revokes`: a statement that does not revoke keeps every permission of
  every user.
* `keeps_of_exec_of_not_covers`: a statement takes nothing from the users whose cached
  resolution its invalidation leaves alone.
-/

namespace IdpForge

/-- `config.DBDriver`. -/
inductive DBDriver where
  | postgres | mysql | mssql | sqlite
  deriving DecidableEq, Repr

/-- `nullableString`: the empty string is stored as `NULL`. -/
def nullableString (s : String) : Option String :=
  if s = "" then none else some s

/-- `nullableString` stores no empty string. -/
theorem nullableString_ne_empty (s : String) : nullableString s ≠ some "" := by
  rw [nullableString]
  split
  · simp
  · next h => simpa using h

/-- Only nonempty strings are stored as themselves. -/
theorem nullableString_eq_some {s : String} (h : s ≠ "") : nullableString s = some s := by
  rw [nullableString, if_neg h]

/-- A row of `groups`. -/
structure GroupRow where
  id : String
  name : String
  parentGroupID : Option String
  deriving DecidableEq, Repr

/-- A row of `roles`. -/
structure Role where
  id : String
  name : String
  deriving DecidableEq, Repr

/-- A row of `permissions`. -/
structure PermissionRecord where
  id : String
  resource : String
  action : String
  deriving DecidableEq, Repr

/-- The permission a row of `permissions` describes. -/
def PermissionRecord.permission (row : PermissionRecord) : Permission :=
  ⟨row.resource, row.action⟩

/-- The tables the resolver reads, and the ids of the users they refer to. -/
structure Tables where
  users : List String
  groups : List GroupRow
  userGroups : List (String × String)
  roles : List Role
  permissions : List PermissionRecord
  rolePermissions : List (String × String)
  groupRoles : List (String × String)
  userRoles : List (String × String)
  deriving DecidableEq, Repr

namespace Tables

/-- The ids of the groups. -/
def groupIDs (t : Tables) : List String := t.groups.map (·.id)

/-- The ids of the roles. -/
def roleIDs (t : Tables) : List String := t.roles.map (·.id)

/-- The ids of the permissions. -/
def permissionIDs (t : Tables) : List String := t.permissions.map (·.id)

/-- The primary keys and the unique columns the resolver depends on. The ids are UUIDs, so
no group has the empty id. -/
structure Keyed (t : Tables) : Prop where
  groupIDs_nodup : t.groupIDs.Nodup
  roleNames_nodup : (t.roles.map (·.name)).Nodup
  groupIDs_ne_empty : "" ∉ t.groupIDs

/-- Every reference is to an existing row. -/
structure Referring (t : Tables) : Prop where
  userGroups : ∀ row ∈ t.userGroups, row.1 ∈ t.users ∧ row.2 ∈ t.groupIDs
  parents : ∀ row ∈ t.groups, ∀ p, row.parentGroupID = some p → p ∈ t.groupIDs
  userRoles : ∀ row ∈ t.userRoles, row.1 ∈ t.users ∧ row.2 ∈ t.roleIDs
  groupRoles : ∀ row ∈ t.groupRoles, row.1 ∈ t.groupIDs ∧ row.2 ∈ t.roleIDs
  rolePermissions : ∀ row ∈ t.rolePermissions, row.1 ∈ t.roleIDs ∧ row.2 ∈ t.permissionIDs

end Tables

/-- A database state: tables that meet the constraints of the schema. -/
structure Database where
  tables : Tables
  keyed : tables.Keyed
  referring : tables.Referring

/-! ### The declared model -/

/-- `g'` is the parent of the group `g`. -/
def IsParent (t : Tables) (g g' : String) : Prop :=
  ∃ row ∈ t.groups, row.id = g ∧ row.parentGroupID = some g'

/-- `g'` is `g` or one of its ancestors. -/
abbrev InGroup (t : Tables) : String → String → Prop :=
  Relation.ReflTransGen (IsParent t)

/-- The role is assigned to the user, directly or through a group. -/
def Assigned (t : Tables) (userID roleID : String) : Prop :=
  (userID, roleID) ∈ t.userRoles ∨
    ∃ g, (userID, g) ∈ t.userGroups ∧ ∃ g', InGroup t g g' ∧ (g', roleID) ∈ t.groupRoles

/-- The role grants the permission. -/
def Grants (t : Tables) (roleID : String) (p : Permission) : Prop :=
  ∃ row ∈ t.permissions, row.permission = p ∧ (roleID, row.id) ∈ t.rolePermissions

/-- The user holds the permission: some existing role grants it and is assigned to the
user. -/
def Holds (t : Tables) (userID : String) (p : Permission) : Prop :=
  ∃ role ∈ t.roles, Assigned t userID role.id ∧ Grants t role.id p

/-! ### The statements of `Admin` -/

/-- The writes of `Admin`; a created row comes with its fresh id. -/
inductive Write where
  | createRole (id name : String)
  | deleteRole (id : String)
  | createPermission (id resource action : String)
  | grantPermissionToRole (roleID permissionID : String)
  | revokePermissionFromRole (roleID permissionID : String)
  | assignRoleToUser (userID roleID : String)
  | removeRoleFromUser (userID roleID : String)
  | assignRoleToGroup (groupID roleID : String)
  | removeRoleFromGroup (groupID roleID : String)
  | createGroup (id name : String) (parentGroupID : Option String)
  | addUserToGroup (userID groupID : String)
  | removeUserFromGroup (userID groupID : String)
  deriving DecidableEq, Repr

/-- Whether the driver enforces the references of the schema. -/
def DBDriver.enforcesReferences : DBDriver → Bool
  | .sqlite => false
  | _ => true

/-- An insert of `row`, refused when the key is taken or a reference is missing. -/
def insertRow {α : Type} [DecidableEq α] (enforces : Bool) (rows : List α) (row : α)
    (referenced : Bool) : Option (List α) :=
  if row ∈ rows then none
  else if enforces && !referenced then none
  else some (rows ++ [row])

/-- The statement of `DeleteRole` and what the constraints make of it. -/
def execDeleteRole (driver : DBDriver) (t : Tables) (id : String) : Option Tables :=
  let roles := t.roles.filter fun role => role.id ≠ id
  let rolePermissions := t.rolePermissions.filter fun row => row.1 ≠ id
  match driver with
  | .postgres | .mysql =>
      some { t with
        roles := roles
        rolePermissions := rolePermissions
        groupRoles := t.groupRoles.filter fun row => row.2 ≠ id
        userRoles := t.userRoles.filter fun row => row.2 ≠ id }
  | .mssql =>
      -- `group_roles` and `user_roles` refer to roles without a cascade
      if (t.groupRoles.any fun row => row.2 = id) || t.userRoles.any fun row => row.2 = id then
        none
      else some { t with roles := roles, rolePermissions := rolePermissions }
  | .sqlite => some { t with roles := roles }

/-- The statement of a write, `none` when the database refuses it. -/
def exec (driver : DBDriver) (t : Tables) : Write → Option Tables
  | .createRole id name =>
      if id ∈ t.roleIDs ∨ name ∈ t.roles.map (·.name) then none
      else some { t with roles := t.roles ++ [⟨id, name⟩] }
  | .deleteRole id => execDeleteRole driver t id
  | .createPermission id resource action =>
      if id ∈ t.permissionIDs ∨ ⟨resource, action⟩ ∈ t.permissions.map (·.permission) then none
      else some { t with permissions := t.permissions ++ [⟨id, resource, action⟩] }
  | .grantPermissionToRole roleID permissionID =>
      (insertRow driver.enforcesReferences t.rolePermissions (roleID, permissionID)
        (roleID ∈ t.roleIDs && permissionID ∈ t.permissionIDs)).map
          fun rows => { t with rolePermissions := rows }
  | .revokePermissionFromRole roleID permissionID =>
      some { t with
        rolePermissions := t.rolePermissions.filter fun row => row ≠ (roleID, permissionID) }
  | .assignRoleToUser userID roleID =>
      (insertRow driver.enforcesReferences t.userRoles (userID, roleID)
        (userID ∈ t.users && roleID ∈ t.roleIDs)).map fun rows => { t with userRoles := rows }
  | .removeRoleFromUser userID roleID =>
      some { t with userRoles := t.userRoles.filter fun row => row ≠ (userID, roleID) }
  | .assignRoleToGroup groupID roleID =>
      (insertRow driver.enforcesReferences t.groupRoles (groupID, roleID)
        (groupID ∈ t.groupIDs && roleID ∈ t.roleIDs)).map fun rows => { t with groupRoles := rows }
  | .removeRoleFromGroup groupID roleID =>
      some { t with groupRoles := t.groupRoles.filter fun row => row ≠ (groupID, roleID) }
  | .createGroup id name parentGroupID =>
      if id ∈ t.groupIDs ∨ name ∈ t.groups.map (·.name) then none
      else if driver.enforcesReferences &&
          parentGroupID.any fun p => p ∉ t.groupIDs then none
      else some { t with groups := t.groups ++ [⟨id, name, parentGroupID⟩] }
  | .addUserToGroup userID groupID =>
      (insertRow driver.enforcesReferences t.userGroups (userID, groupID)
        (userID ∈ t.users && groupID ∈ t.groupIDs)).map fun rows => { t with userGroups := rows }
  | .removeUserFromGroup userID groupID =>
      some { t with userGroups := t.userGroups.filter fun row => row ≠ (userID, groupID) }

/-- The writes that take access away. -/
def Write.revokes : Write → Bool
  | .deleteRole _ | .revokePermissionFromRole _ _ | .removeRoleFromUser _ _
  | .removeRoleFromGroup _ _ | .removeUserFromGroup _ _ => true
  | _ => false

/-- Whose cached resolution a write invalidates: one user's or everybody's. The creating
writes invalidate nothing. -/
inductive Invalidation where
  | nobody
  | user (userID : String)
  | all
  deriving DecidableEq, Repr

/-- The invalidation that follows the statement of a write. -/
def Write.invalidates : Write → Invalidation
  | .createRole _ _ | .createPermission _ _ _ | .createGroup _ _ _ => .nobody
  | .assignRoleToUser userID _ | .removeRoleFromUser userID _ | .addUserToGroup userID _
  | .removeUserFromGroup userID _ => .user userID
  | _ => .all

/-- The cached resolution of the user is among those an invalidation drops. -/
def Invalidation.covers : Invalidation → String → Bool
  | .nobody, _ => false
  | .user userID, u => u = userID
  | .all, _ => true

/-! ### What a statement keeps -/

/-- Everything in `t` that gives access to the user is still in `t'`. -/
structure Tables.Keeps (t t' : Tables) (userID : String) : Prop where
  groups : t.groups ⊆ t'.groups
  roles : t.roles ⊆ t'.roles
  permissions : t.permissions ⊆ t'.permissions
  rolePermissions : t.rolePermissions ⊆ t'.rolePermissions
  groupRoles : t.groupRoles ⊆ t'.groupRoles
  userRoles : ∀ r, (userID, r) ∈ t.userRoles → (userID, r) ∈ t'.userRoles
  userGroups : ∀ g, (userID, g) ∈ t.userGroups → (userID, g) ∈ t'.userGroups

section Keeps

variable {t t' : Tables} {userID : String}

/-- Every state keeps what it has. -/
theorem Tables.Keeps.refl (t : Tables) (userID : String) : t.Keeps t userID where
  groups := List.Subset.refl _
  roles := List.Subset.refl _
  permissions := List.Subset.refl _
  rolePermissions := List.Subset.refl _
  groupRoles := List.Subset.refl _
  userRoles := fun _ h => h
  userGroups := fun _ h => h

/-- What is kept twice is kept. -/
theorem Tables.Keeps.trans {t'' : Tables} (h : t.Keeps t' userID) (h' : t'.Keeps t'' userID) :
    t.Keeps t'' userID where
  groups := List.Subset.trans h.groups h'.groups
  roles := List.Subset.trans h.roles h'.roles
  permissions := List.Subset.trans h.permissions h'.permissions
  rolePermissions := List.Subset.trans h.rolePermissions h'.rolePermissions
  groupRoles := List.Subset.trans h.groupRoles h'.groupRoles
  userRoles := fun r hr => h'.userRoles r (h.userRoles r hr)
  userGroups := fun g hg => h'.userGroups g (h.userGroups g hg)

/-- Ancestors stay ancestors. -/
theorem Tables.Keeps.inGroup (h : t.Keeps t' userID) {g g' : String} (hg : InGroup t g g') :
    InGroup t' g g' := by
  induction hg with
  | refl => exact .refl
  | tail _ hparent ih =>
      obtain ⟨row, hrow, hid, hp⟩ := hparent
      exact ih.tail ⟨row, h.groups hrow, hid, hp⟩

/-- Assigned roles stay assigned. -/
theorem Tables.Keeps.assigned (h : t.Keeps t' userID) {roleID : String}
    (ha : Assigned t userID roleID) : Assigned t' userID roleID := by
  rcases ha with hdirect | ⟨g, hg, g', hg', hrole⟩
  · exact Or.inl (h.userRoles _ hdirect)
  · exact Or.inr ⟨g, h.userGroups _ hg, g', h.inGroup hg', h.groupRoles hrole⟩

/-- Granted permissions stay granted. -/
theorem Tables.Keeps.grants (h : t.Keeps t' userID) {roleID : String} {p : Permission}
    (hg : Grants t roleID p) : Grants t' roleID p := by
  obtain ⟨row, hrow, hp, hgrant⟩ := hg
  exact ⟨row, h.permissions hrow, hp, h.rolePermissions hgrant⟩

/-- Held permissions stay held. -/
theorem Tables.Keeps.holds (h : t.Keeps t' userID) {p : Permission} (hp : Holds t userID p) :
    Holds t' userID p := by
  obtain ⟨role, hrole, hassigned, hgrants⟩ := hp
  exact ⟨role, h.roles hrole, h.assigned hassigned, h.grants hgrants⟩

/-- An insert adds a row, whose references exist when they are enforced. -/
theorem insertRow_eq_some {α : Type} [DecidableEq α] {enforces referenced : Bool}
    {rows rows' : List α} {row : α} (h : insertRow enforces rows row referenced = some rows') :
    rows' = rows ++ [row] ∧ (enforces = true → referenced = true) := by
  rw [insertRow] at h
  split at h
  · simp at h
  · split at h
    · simp at h
    · next hok =>
        refine ⟨(Option.some.inj h).symm, fun henf => ?_⟩
        simpa [henf] using hok

/-- An insert keeps the rows there are. -/
theorem subset_of_insertRow {α : Type} [DecidableEq α] {enforces referenced : Bool}
    {rows rows' : List α} {row : α} (h : insertRow enforces rows row referenced = some rows') :
    rows ⊆ rows' :=
  (insertRow_eq_some h).1 ▸ List.subset_append_left _ _

/-- References stay good after an insert that is checked. -/
theorem references_of_insertRow {enforces : Bool} {rows rows' : List (String × String)}
    {row : String × String} {keys others : List String}
    (h : insertRow enforces rows row (row.1 ∈ keys && row.2 ∈ others) = some rows')
    (henforces : enforces = true) (hold : ∀ r ∈ rows, r.1 ∈ keys ∧ r.2 ∈ others) :
    ∀ r ∈ rows', r.1 ∈ keys ∧ r.2 ∈ others := by
  obtain ⟨rfl, hreferenced⟩ := insertRow_eq_some h
  intro r hr
  rcases List.mem_append.mp hr with hr | hr
  · exact hold r hr
  · rw [List.mem_singleton.mp hr]
    simpa using hreferenced henforces

/-- The keys stay when a row is added. -/
theorem keys_subset_append {α : Type} (key : α → String) (rows : List α) (row : α) :
    rows.map key ⊆ (rows ++ [row]).map key := by
  rw [List.map_append]
  exact List.subset_append_left ..

/-- References stay good when keys are added. -/
theorem references_of_subset {rows : List (String × String)}
    {keys keys' others others' : List String}
    (h : ∀ row ∈ rows, row.1 ∈ keys ∧ row.2 ∈ others) (hkeys : keys ⊆ keys')
    (hothers : others ⊆ others') : ∀ row ∈ rows, row.1 ∈ keys' ∧ row.2 ∈ others' :=
  fun row hrow => ⟨hkeys (h row hrow).1, hothers (h row hrow).2⟩

variable {driver : DBDriver} {w : Write}

/-- **A statement that does not revoke** keeps the access of every user. -/
theorem keeps_of_exec_of_not_revokes (h : exec driver t w = some t')
    (hw : w.revokes = false) (userID : String) : t.Keeps t' userID := by
  have hrefl := Tables.Keeps.refl t userID
  cases w with
  | createRole id name =>
      simp only [exec, ite_eq_iff, Option.some.injEq, reduceCtorEq, and_false, false_or] at h
      obtain ⟨-, rfl⟩ := h
      exact { hrefl with roles := List.subset_append_left _ _ }
  | createPermission id resource action =>
      simp only [exec, ite_eq_iff, Option.some.injEq, reduceCtorEq, and_false, false_or] at h
      obtain ⟨-, rfl⟩ := h
      exact { hrefl with permissions := List.subset_append_left _ _ }
  | createGroup id name parentGroupID =>
      simp only [exec, ite_eq_iff, Option.some.injEq, reduceCtorEq, and_false, false_or] at h
      obtain ⟨-, -, rfl⟩ := h
      exact { hrefl with groups := List.subset_append_left _ _ }
  | grantPermissionToRole roleID permissionID =>
      obtain ⟨rows, hrows, rfl⟩ := Option.map_eq_some_iff.mp h
      exact { hrefl with rolePermissions := subset_of_insertRow hrows }
  | assignRoleToUser u roleID =>
      obtain ⟨rows, hrows, rfl⟩ := Option.map_eq_some_iff.mp h
      exact { hrefl with userRoles := fun _ hr => subset_of_insertRow hrows hr }
  | assignRoleToGroup groupID roleID =>
      obtain ⟨rows, hrows, rfl⟩ := Option.map_eq_some_iff.mp h
      exact { hrefl with groupRoles := subset_of_insertRow hrows }
  | addUserToGroup u groupID =>
      obtain ⟨rows, hrows, rfl⟩ := Option.map_eq_some_iff.mp h
      exact { hrefl with userGroups := fun _ hr => subset_of_insertRow hrows hr }
  | deleteRole id => simp [Write.revokes] at hw
  | revokePermissionFromRole roleID permissionID => simp [Write.revokes] at hw
  | removeRoleFromUser u roleID => simp [Write.revokes] at hw
  | removeRoleFromGroup groupID roleID => simp [Write.revokes] at hw
  | removeUserFromGroup u groupID => simp [Write.revokes] at hw

/-- **A statement keeps the access of the users its invalidation does not cover.** -/
theorem keeps_of_exec_of_not_covers (h : exec driver t w = some t')
    (hw : w.invalidates.covers userID = false) : t.Keeps t' userID := by
  have hrefl := Tables.Keeps.refl t userID
  cases w with
  | removeRoleFromUser u roleID =>
      have hne : ¬ u = userID := by
        simpa [Write.invalidates, Invalidation.covers, eq_comm] using hw
      rw [exec, Option.some.injEq] at h
      subst h
      refine { hrefl with userRoles := fun r hr => ?_ }
      simp [hr, Ne.symm hne]
  | removeUserFromGroup u groupID =>
      have hne : ¬ u = userID := by
        simpa [Write.invalidates, Invalidation.covers, eq_comm] using hw
      rw [exec, Option.some.injEq] at h
      subst h
      refine { hrefl with userGroups := fun g hg => ?_ }
      simp [hg, Ne.symm hne]
  | deleteRole id => simp [Write.invalidates, Invalidation.covers] at hw
  | revokePermissionFromRole roleID permissionID =>
      simp [Write.invalidates, Invalidation.covers] at hw
  | removeRoleFromGroup groupID roleID => simp [Write.invalidates, Invalidation.covers] at hw
  | createRole id name => exact keeps_of_exec_of_not_revokes h rfl userID
  | createPermission id resource action => exact keeps_of_exec_of_not_revokes h rfl userID
  | createGroup id name parentGroupID => exact keeps_of_exec_of_not_revokes h rfl userID
  | grantPermissionToRole roleID permissionID => exact keeps_of_exec_of_not_revokes h rfl userID
  | assignRoleToUser u roleID => exact keeps_of_exec_of_not_revokes h rfl userID
  | assignRoleToGroup groupID roleID => exact keeps_of_exec_of_not_revokes h rfl userID
  | addUserToGroup u groupID => exact keeps_of_exec_of_not_revokes h rfl userID

/-- Deleting a role leaves no reference to it when the driver enforces the references. -/
theorem execDeleteRole_referring {id : String} (h : execDeleteRole driver t id = some t')
    (hdriver : driver.enforcesReferences = true) (href : t.Referring) : t'.Referring := by
  have hkept : ∀ r, r ≠ id → r ∈ t.roleIDs →
      r ∈ (t.roles.filter fun role => role.id ≠ id).map (·.id) := by
    intro r hne hr
    obtain ⟨role, hrole, rfl⟩ := List.mem_map.mp hr
    exact List.mem_map.mpr ⟨role, List.mem_filter.mpr ⟨hrole, by simpa using hne⟩, rfl⟩
  have hgrants : ∀ row ∈ t.rolePermissions.filter fun row => row.1 ≠ id,
      row.1 ∈ (t.roles.filter fun role => role.id ≠ id).map (·.id) ∧
        row.2 ∈ t.permissionIDs := by
    intro row hrow
    obtain ⟨hrow, hne⟩ := List.mem_filter.mp hrow
    obtain ⟨hrole, hperm⟩ := href.rolePermissions row hrow
    exact ⟨hkept _ (by simpa using hne) hrole, hperm⟩
  have hcascade : ∀ rows : List (String × String), ∀ keys : List String,
      (∀ row ∈ rows, row.1 ∈ keys ∧ row.2 ∈ t.roleIDs) →
        ∀ row ∈ rows.filter fun row => row.2 ≠ id,
          row.1 ∈ keys ∧ row.2 ∈ (t.roles.filter fun role => role.id ≠ id).map (·.id) := by
    intro rows keys hrows row hrow
    obtain ⟨hrow, hne⟩ := List.mem_filter.mp hrow
    obtain ⟨hkey, hrole⟩ := hrows row hrow
    exact ⟨hkey, hkept _ (by simpa using hne) hrole⟩
  cases driver with
  | sqlite => simp [DBDriver.enforcesReferences] at hdriver
  | mssql =>
      simp only [execDeleteRole, ite_eq_iff, reduceCtorEq, and_false, false_or,
        Option.some.injEq, Bool.or_eq_true, List.any_eq_true, decide_eq_true_eq] at h
      obtain ⟨hfree, rfl⟩ := h
      push Not at hfree
      exact {
        userGroups := href.userGroups
        parents := href.parents
        userRoles := fun row hrow =>
          ⟨(href.userRoles row hrow).1, hkept _ (hfree.2 row hrow) (href.userRoles row hrow).2⟩
        groupRoles := fun row hrow =>
          ⟨(href.groupRoles row hrow).1,
            hkept _ (hfree.1 row hrow) (href.groupRoles row hrow).2⟩
        rolePermissions := hgrants }
  | postgres | mysql =>
      rw [execDeleteRole, Option.some.injEq] at h
      subst h
      exact {
        userGroups := href.userGroups
        parents := href.parents
        userRoles := hcascade _ _ href.userRoles
        groupRoles := hcascade _ _ href.groupRoles
        rolePermissions := hgrants }

/-- A statement keeps the permissions of a user, unless it revokes and its invalidation covers the
user. -/
theorem keeps_or_covered (h : exec driver t w = some t') (userID : String) :
    t.Keeps t' userID ∨ (w.revokes = true ∧ w.invalidates.covers userID = true) := by
  rcases hcovers : w.invalidates.covers userID with _ | _
  · exact .inl (keeps_of_exec_of_not_covers h hcovers)
  · rcases hrevokes : w.revokes with _ | _
    · exact .inl (keeps_of_exec_of_not_revokes h hrevokes userID)
    · exact .inr ⟨rfl, rfl⟩

/-- **The references of the schema** survive every statement of a driver that enforces
them. -/
theorem exec_referring (h : exec driver t w = some t')
    (hdriver : driver.enforcesReferences = true) (href : t.Referring) : t'.Referring := by
  cases w with
  | createRole id name =>
      simp only [exec, ite_eq_iff, Option.some.injEq, reduceCtorEq, and_false, false_or] at h
      obtain ⟨-, rfl⟩ := h
      have hroles := keys_subset_append (·.id) t.roles ⟨id, name⟩
      exact { href with
        userRoles := references_of_subset href.userRoles (List.Subset.refl _) hroles
        groupRoles := references_of_subset href.groupRoles (List.Subset.refl _) hroles
        rolePermissions := references_of_subset href.rolePermissions hroles (List.Subset.refl _) }
  | deleteRole id => exact execDeleteRole_referring h hdriver href
  | createPermission id resource action =>
      simp only [exec, ite_eq_iff, Option.some.injEq, reduceCtorEq, and_false, false_or] at h
      obtain ⟨-, rfl⟩ := h
      have hpermissions := keys_subset_append (·.id) t.permissions ⟨id, resource, action⟩
      exact { href with
        rolePermissions :=
          references_of_subset href.rolePermissions (List.Subset.refl _) hpermissions }
  | createGroup id name parentGroupID =>
      simp only [exec, ite_eq_iff, Option.some.injEq, reduceCtorEq, and_false, false_or,
        hdriver, Bool.true_and, Option.any_eq_true, decide_eq_true_eq] at h
      obtain ⟨-, hparent, rfl⟩ := h
      have hgroups := keys_subset_append (·.id) t.groups ⟨id, name, parentGroupID⟩
      exact { href with
        userGroups := references_of_subset href.userGroups (List.Subset.refl _) hgroups
        groupRoles := references_of_subset href.groupRoles hgroups (List.Subset.refl _)
        parents := fun row hrow p hp => by
          rcases List.mem_append.mp hrow with hold | hnew
          · exact hgroups (href.parents row hold p hp)
          · rw [List.mem_singleton.mp hnew] at hp
            by_contra hout
            exact hparent ⟨p, hp, fun hin => hout (hgroups hin)⟩ }
  | grantPermissionToRole roleID permissionID =>
      obtain ⟨rows, hrows, rfl⟩ := Option.map_eq_some_iff.mp h
      exact { href with
        rolePermissions := references_of_insertRow hrows hdriver href.rolePermissions }
  | revokePermissionFromRole roleID permissionID =>
      rw [exec, Option.some.injEq] at h
      subst h
      exact { href with
        rolePermissions := fun row hrow => href.rolePermissions row (List.mem_of_mem_filter hrow) }
  | assignRoleToUser u roleID =>
      obtain ⟨rows, hrows, rfl⟩ := Option.map_eq_some_iff.mp h
      exact { href with
        userRoles := references_of_insertRow hrows hdriver href.userRoles }
  | removeRoleFromUser u roleID =>
      rw [exec, Option.some.injEq] at h
      subst h
      exact { href with
        userRoles := fun row hrow => href.userRoles row (List.mem_of_mem_filter hrow) }
  | assignRoleToGroup groupID roleID =>
      obtain ⟨rows, hrows, rfl⟩ := Option.map_eq_some_iff.mp h
      exact { href with
        groupRoles := references_of_insertRow hrows hdriver href.groupRoles }
  | removeRoleFromGroup groupID roleID =>
      rw [exec, Option.some.injEq] at h
      subst h
      exact { href with
        groupRoles := fun row hrow => href.groupRoles row (List.mem_of_mem_filter hrow) }
  | addUserToGroup u groupID =>
      obtain ⟨rows, hrows, rfl⟩ := Option.map_eq_some_iff.mp h
      exact { href with
        userGroups := references_of_insertRow hrows hdriver href.userGroups }
  | removeUserFromGroup u groupID =>
      rw [exec, Option.some.injEq] at h
      subst h
      exact { href with
        userGroups := fun row hrow => href.userGroups row (List.mem_of_mem_filter hrow) }

end Keeps

end IdpForge
