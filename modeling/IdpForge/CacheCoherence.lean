import IdpForge.PartialMap
import IdpForge.Resolver
import IdpForge.TransitionSystem

/-!
# The Coherence of the Cached Resolutions

`Resolver`, `Admin` and the handlers that create and delete users, one call after the other.
A write of `Admin` drops the cached resolutions of one user, of everybody or of nobody, and
what it leaves in the cache has to be what the changed tables would give. It is, where the
database enforces the references: two states of the tables that agree on what the queries of
a user's resolution read give the same resolution (`Tables.Agree`), and a statement changes
only what is read for the users its invalidation covers.

## Main results

* `agree_of_exec_of_not_covers`: what a statement leaves alone.
* `coherent_step`: a call keeps every cached resolution equal to a fresh one.
* `cache_coherent`: so does every sequential run.
-/

open TransitionSystem

namespace IdpForge

/-! ### The calls -/

/-- The statement of `users.Create`, under a fresh id. -/
def execCreateUser (t : Tables) (id : String) : Option Tables :=
  if id ∈ t.users then none else some { t with users := t.users ++ [id] }

/-- The statement of `users.Delete`, which must find the row, and what the constraints make of
it. -/
def execDeleteUser (driver : DBDriver) (t : Tables) (id : String) : Option Tables :=
  if id ∉ t.users then none
  else
    let users := t.users.filter fun u => u ≠ id
    some (if driver.enforcesReferences then
      { t with
        users := users
        userGroups := t.userGroups.filter fun row => row.1 ≠ id
        userRoles := t.userRoles.filter fun row => row.1 ≠ id }
    else { t with users := users })

/-- The tables, and the resolutions cached under `rbac:user:`. -/
structure RbacState where
  tables : Tables
  cache : String → Option Resolved

namespace RbacState

variable (driver : DBDriver) (s : RbacState)

/-- `Invalidate` and `InvalidateAll`. -/
def invalidate (i : Invalidation) : RbacState :=
  { s with cache := fun u => if i.covers u then none else s.cache u }

/-- `Resolve`: the cached resolution, or a fresh one, which is cached. -/
def resolve (userID : String) : Resolved × RbacState :=
  match s.cache userID with
  | some resolved => (resolved, s)
  | none =>
      let resolved := resolveFromDB (fun _ => s.tables) userID
      (resolved, { s with cache := Function.update s.cache userID (some resolved) })

/-- The end of a write: an error leaves everything as it is. -/
def commit (t? : Option Tables) (i : Invalidation) : RbacState :=
  match t? with
  | none => s
  | some t => { s with tables := t }.invalidate i

/-- A write of `Admin`. -/
def write (w : Write) : RbacState :=
  s.commit (exec driver s.tables w) w.invalidates

/-- `handleCreateUser`. -/
def handleCreateUser (id : String) : RbacState :=
  s.commit (execCreateUser s.tables id) (.user id)

/-- `handleDeleteUser`. -/
def handleDeleteUser (id : String) : RbacState :=
  s.commit (execDeleteUser driver s.tables id) (.user id)

end RbacState

/-- A call, or a cached resolution that expires. -/
inductive RbacAction where
  | write (w : Write)
  | createUser (id : String)
  | deleteUser (id : String)
  | resolve (userID : String)
  | expire (userID : String)
  deriving DecidableEq, Repr

/-- The step function. -/
def rbacStep (driver : DBDriver) (s : RbacState) : RbacAction → Option RbacState
  | .write w => some (s.write driver w)
  | .createUser id => some (s.handleCreateUser id)
  | .deleteUser id => some (s.handleDeleteUser driver id)
  | .resolve userID => some (s.resolve userID).2
  | .expire userID => some { s with cache := Function.update s.cache userID none }

/-- A database before any call. -/
def RbacState.start (db : Database) : RbacState where
  tables := db.tables
  cache := fun _ => none

/-! ### What a resolution reads -/

/-- The two states of the tables give every query of the user's resolution the same answer. -/
structure Tables.Agree (t t' : Tables) (userID : String) : Prop where
  userGroups : userGroupIDs t' userID = userGroupIDs t userID
  groups : expandAncestorGroups t' (userGroupIDs t userID) =
    expandAncestorGroups t (userGroupIDs t userID)
  userRoles : directRoleIDs t' userID = directRoleIDs t userID
  groupRoles : t'.groupRoles = t.groupRoles
  roles : ∀ ids, (∀ r ∈ ids, r ∈ t.roleIDs) → roleNames t' ids = roleNames t ids
  permissions : ∀ ids, permissionsFor t' ids = permissionsFor t ids

section Agree

variable {t t' : Tables} {userID id : String}

/-- Every state agrees with itself. -/
theorem Tables.Agree.refl (t : Tables) (userID : String) : t.Agree t userID :=
  ⟨rfl, rfl, rfl, rfl, fun _ _ => rfl, fun _ => rfl⟩

/-- The role ids of a resolution are ids of roles. -/
theorem Tables.Referring.mem_roleIDs (href : t.Referring) {r : String}
    (h : r ∈ resolvedRoleIDs (fun _ => t) userID) : r ∈ t.roleIDs := by
  rcases assignedIn_of_mem h with hdirect | ⟨_, -, _, -, hrole⟩
  · exact (href.userRoles _ hdirect).2
  · exact (href.groupRoles _ hrole).2

/-- **Where the tables agree, the resolutions are equal.** -/
theorem resolveFromDB_congr (href : t.Referring) (h : t.Agree t' userID) :
    resolveFromDB (fun _ => t') userID = resolveFromDB (fun _ => t) userID := by
  have hids : resolvedRoleIDs (fun _ => t') userID = resolvedRoleIDs (fun _ => t) userID := by
    rw [resolvedRoleIDs, resolvedRoleIDs, h.userGroups, h.groups, roleIDsFor, roleIDsFor,
      h.userRoles, groupRoleIDs, groupRoleIDs, h.groupRoles]
  have hroles := h.roles (resolvedRoleIDs (fun _ => t) userID) fun _ hr => href.mem_roleIDs hr
  have hpermissions := h.permissions (resolvedRoleIDs (fun _ => t) userID)
  calc resolveFromDB (fun _ => t') userID
      = ⟨userID, roleNames t' (resolvedRoleIDs (fun _ => t') userID),
          permissionsFor t' (resolvedRoleIDs (fun _ => t') userID)⟩ := rfl
    _ = ⟨userID, roleNames t (resolvedRoleIDs (fun _ => t) userID),
          permissionsFor t (resolvedRoleIDs (fun _ => t) userID)⟩ := by
        rw [hids, hroles, hpermissions]
    _ = resolveFromDB (fun _ => t) userID := rfl

/-- A new role has no assignment yet. -/
theorem roleNames_append {role : Role} {ids : List String} (hnew : role.id ∉ t.roleIDs)
    (hids : ∀ r ∈ ids, r ∈ t.roleIDs) :
    roleNames { t with roles := t.roles ++ [role] } ids = roleNames t ids := by
  have hnot : role.id ∉ ids := fun h => hnew (hids _ h)
  simp [roleNames, List.filter_append, hnot]

/-- A new permission is granted to no role yet. -/
theorem permissionsFor_append {row : PermissionRecord} (href : t.Referring)
    (hnew : row.id ∉ t.permissionIDs) (ids : List String) :
    permissionsFor { t with permissions := t.permissions ++ [row] } ids =
      permissionsFor t ids := by
  have hnone : t.rolePermissions.filter (fun rp => rp.2 = row.id && rp.1 ∈ ids) = [] := by
    rw [List.filter_eq_nil_iff]
    intro rp hrp hgrants
    simp only [Bool.and_eq_true, decide_eq_true_eq] at hgrants
    exact hnew (hgrants.1 ▸ (href.rolePermissions rp hrp).2)
  simp [permissionsFor, List.flatMap_append, hnone]

/-- A new group has no members and no children yet. -/
theorem expandAncestorGroups_append {row : GroupRow} (href : t.Referring)
    (hnew : row.id ∉ t.groupIDs) {groupIDs : List String}
    (hgroups : ∀ g ∈ groupIDs, g ∈ t.groupIDs) :
    expandAncestorGroups { t with groups := t.groups ++ [row] } groupIDs =
      expandAncestorGroups t groupIDs := by
  have hlinks : ∀ a, a ∈ t.groupIDs →
      parentMap (t.groups ++ [row]) a = parentMap t.groups a ∧
        (parentMap t.groups a = "" ∨ parentMap t.groups a ∈ t.groupIDs) := by
    intro a ha
    have hne : a ≠ row.id := fun h => hnew (h ▸ ha)
    constructor
    · rw [parentMap, List.foldl_append]
      exact (parentMap_foldl [row] _ a).2 (by simpa using hne)
    · rw [or_iff_not_imp_left]
      intro hparent
      obtain ⟨row', hrow', -, hp⟩ := isParent_of_parentMap hparent
      exact href.parents row' hrow' _ hp
  rw [expandAncestorGroups, expandAncestorGroups]
  split
  · rfl
  · exact ParentWalk.climbAll_congr hlinks hgroups

/-- The rows of a user are what they were when a row of another user is added. -/
theorem filter_append_other {rows : List (String × String)} {u v : String} (hne : u ≠ userID) :
    (rows ++ [(u, v)]).filter (fun row => row.1 = userID) =
      rows.filter fun row => row.1 = userID := by
  simp [List.filter_append, hne]

/-- The rows of a user are what they were when rows of another user are removed. -/
theorem filter_filter_other {rows : List (String × String)} {keep : String × String → Bool}
    (hkeep : ∀ row ∈ rows, row.1 = userID → keep row = true) :
    (rows.filter keep).filter (fun row => row.1 = userID) =
      rows.filter fun row => row.1 = userID := by
  rw [List.filter_filter]
  refine List.filter_congr fun row hrow => ?_
  by_cases huser : row.1 = userID
  · simp [huser, hkeep row hrow huser]
  · simp [huser]

/-- The rows of a user are what they were when one row of another user is removed. -/
theorem filter_ne_other {rows : List (String × String)} {u v : String} (hne : u ≠ userID) :
    (rows.filter fun row => row ≠ (u, v)).filter (fun row => row.1 = userID) =
      rows.filter fun row => row.1 = userID := by
  refine filter_filter_other fun row _ huser => ?_
  simpa using fun heq : row = (u, v) => hne ((congrArg Prod.fst heq).symm.trans huser)

variable {driver : DBDriver} {w : Write}

/-- **What a statement leaves alone.** The resolutions of the users that the invalidation of a
write does not cover read the same before and after its statement. -/
theorem agree_of_exec_of_not_covers (href : t.Referring) (h : exec driver t w = some t')
    (hw : w.invalidates.covers userID = false) : t.Agree t' userID := by
  have hrefl := Tables.Agree.refl t userID
  cases w with
  | createRole id name =>
      simp only [exec, ite_eq_iff, Option.some.injEq, reduceCtorEq, and_false, false_or,
        not_or] at h
      obtain ⟨⟨hnew, -⟩, rfl⟩ := h
      exact { hrefl with roles := fun ids hids => roleNames_append hnew hids }
  | createPermission id resource action =>
      simp only [exec, ite_eq_iff, Option.some.injEq, reduceCtorEq, and_false, false_or,
        not_or] at h
      obtain ⟨⟨hnew, -⟩, rfl⟩ := h
      exact { hrefl with permissions := permissionsFor_append href hnew }
  | createGroup id name parentGroupID =>
      simp only [exec, ite_eq_iff, Option.some.injEq, reduceCtorEq, and_false, false_or,
        not_or] at h
      obtain ⟨⟨hnew, -⟩, -, rfl⟩ := h
      refine { hrefl with groups := expandAncestorGroups_append href hnew fun g hg => ?_ }
      exact (href.userGroups _ (mem_userGroupIDs.mp hg)).2
  | assignRoleToUser u roleID =>
      have hne : u ≠ userID := by simpa [Write.invalidates, Invalidation.covers, eq_comm] using hw
      obtain ⟨rows, hrows, rfl⟩ := Option.map_eq_some_iff.mp h
      obtain ⟨rfl, -⟩ := insertRow_eq_some hrows
      exact { hrefl with userRoles := by simp only [directRoleIDs, filter_append_other hne] }
  | removeRoleFromUser u roleID =>
      have hne : u ≠ userID := by simpa [Write.invalidates, Invalidation.covers, eq_comm] using hw
      obtain rfl := Option.some.inj h
      exact { hrefl with userRoles := by simp only [directRoleIDs, filter_ne_other hne] }
  | addUserToGroup u groupID =>
      have hne : u ≠ userID := by simpa [Write.invalidates, Invalidation.covers, eq_comm] using hw
      obtain ⟨rows, hrows, rfl⟩ := Option.map_eq_some_iff.mp h
      obtain ⟨rfl, -⟩ := insertRow_eq_some hrows
      exact { hrefl with userGroups := by simp only [userGroupIDs, filter_append_other hne] }
  | removeUserFromGroup u groupID =>
      have hne : u ≠ userID := by simpa [Write.invalidates, Invalidation.covers, eq_comm] using hw
      obtain rfl := Option.some.inj h
      exact { hrefl with userGroups := by simp only [userGroupIDs, filter_ne_other hne] }
  | deleteRole id => simp [Write.invalidates, Invalidation.covers] at hw
  | grantPermissionToRole roleID permissionID => simp [Write.invalidates, Invalidation.covers] at hw
  | revokePermissionFromRole roleID permissionID =>
      simp [Write.invalidates, Invalidation.covers] at hw
  | assignRoleToGroup groupID roleID => simp [Write.invalidates, Invalidation.covers] at hw
  | removeRoleFromGroup groupID roleID => simp [Write.invalidates, Invalidation.covers] at hw

/-- A new user changes nobody's resolution. -/
theorem agree_of_execCreateUser (h : execCreateUser t id = some t') (userID : String) :
    t.Agree t' userID := by
  obtain ⟨-, heq⟩ := Option.ite_none_left_eq_some.mp h
  obtain rfl := Option.some.inj heq
  exact { Tables.Agree.refl t userID with }

/-- A deleted user takes nothing along that is read for others. -/
theorem agree_of_execDeleteUser (h : execDeleteUser driver t id = some t') (hne : userID ≠ id) :
    t.Agree t' userID := by
  have hrefl := Tables.Agree.refl t userID
  have hkeep : ∀ rows : List (String × String), ∀ row ∈ rows, row.1 = userID →
      decide (row.1 ≠ id) = true := by
    rintro rows row - rfl
    simpa using hne
  obtain ⟨-, heq⟩ := Option.ite_none_left_eq_some.mp h
  obtain rfl := Option.some.inj heq
  split
  · exact { hrefl with
      userGroups := by simp only [userGroupIDs, filter_filter_other (hkeep _)]
      userRoles := by simp only [directRoleIDs, filter_filter_other (hkeep _)] }
  · exact { hrefl with }

/-- The references survive the creation of a user. -/
theorem execCreateUser_referring (h : execCreateUser t id = some t') (href : t.Referring) :
    t'.Referring := by
  obtain ⟨-, heq⟩ := Option.ite_none_left_eq_some.mp h
  obtain rfl := Option.some.inj heq
  exact { href with
    userGroups := fun row hrow =>
      ⟨List.mem_append_left _ (href.userGroups row hrow).1, (href.userGroups row hrow).2⟩
    userRoles := fun row hrow =>
      ⟨List.mem_append_left _ (href.userRoles row hrow).1, (href.userRoles row hrow).2⟩ }

/-- The references survive the deletion of a user when the driver enforces them. -/
theorem execDeleteUser_referring (hdriver : driver.enforcesReferences = true)
    (h : execDeleteUser driver t id = some t') (href : t.Referring) : t'.Referring := by
  have hcascade : ∀ rows : List (String × String), ∀ keys : List String,
      (∀ row ∈ rows, row.1 ∈ t.users ∧ row.2 ∈ keys) →
        ∀ row ∈ rows.filter fun row => row.1 ≠ id,
          row.1 ∈ (t.users.filter fun u => u ≠ id) ∧ row.2 ∈ keys := by
    intro rows keys hrows row hrow
    obtain ⟨hrow, hne⟩ := List.mem_filter.mp hrow
    obtain ⟨huser, hkey⟩ := hrows row hrow
    exact ⟨List.mem_filter.mpr ⟨huser, hne⟩, hkey⟩
  obtain ⟨-, heq⟩ := Option.ite_none_left_eq_some.mp h
  dsimp only at heq
  rw [if_pos hdriver] at heq
  obtain rfl := Option.some.inj heq
  exact { href with
    userGroups := hcascade _ _ href.userGroups
    userRoles := hcascade _ _ href.userRoles }

end Agree

/-! ### Coherence -/

/-- The references hold, and what is cached is what resolving now would give. -/
structure RbacState.Coherent (s : RbacState) : Prop where
  referring : s.tables.Referring
  fresh : ∀ userID resolved, s.cache userID = some resolved →
    resolved = resolveFromDB (fun _ => s.tables) userID

section Coherence

variable {driver : DBDriver} {s s' : RbacState}

/-- A database without cached resolutions is coherent. -/
theorem coherent_start (db : Database) : (RbacState.start db).Coherent :=
  ⟨db.referring, by simp [RbacState.start]⟩

/-- A write keeps the cache coherent when the tables agree for the users its invalidation does
not cover. -/
theorem RbacState.Coherent.commit (h : s.Coherent) {t? : Option Tables} {i : Invalidation}
    (hreferring : ∀ t, t? = some t → t.Referring)
    (hagree : ∀ t userID, t? = some t → i.covers userID = false → s.tables.Agree t userID) :
    (s.commit t? i).Coherent := by
  cases t? with
  | none => exact h
  | some t =>
      refine ⟨hreferring t rfl, fun userID resolved hcached => ?_⟩
      cases hcovers : i.covers userID with
      | true => simp [RbacState.commit, RbacState.invalidate, hcovers] at hcached
      | false =>
          have hbefore : s.cache userID = some resolved := by
            simpa [RbacState.commit, RbacState.invalidate, hcovers] using hcached
          calc resolved = resolveFromDB (fun _ => s.tables) userID :=
                h.fresh userID resolved hbefore
            _ = resolveFromDB (fun _ => t) userID :=
                (resolveFromDB_congr h.referring (hagree t userID rfl hcovers)).symm

/-- A call of `Resolve` caches what it resolves. -/
theorem RbacState.Coherent.resolve (h : s.Coherent) (userID : String) :
    (s.resolve userID).2.Coherent := by
  rw [RbacState.resolve.eq_def]
  cases hcached : s.cache userID with
  | some resolved => exact h
  | none =>
      exact ⟨h.referring, PartialMap.forall_update rfl h.fresh⟩

/-- **A call keeps the cache coherent.** -/
theorem coherent_step (hdriver : driver.enforcesReferences = true) {a : RbacAction}
    (h : s.Coherent) (hstep : rbacStep driver s a = some s') : s'.Coherent := by
  cases a with
  | write w =>
      obtain rfl := Option.some.inj hstep
      exact h.commit (fun t ht => exec_referring ht hdriver h.referring)
        fun t _ ht hcovers => agree_of_exec_of_not_covers h.referring ht hcovers
  | createUser id =>
      obtain rfl := Option.some.inj hstep
      exact h.commit (fun t ht => execCreateUser_referring ht h.referring)
        fun t userID ht _ => agree_of_execCreateUser ht userID
  | deleteUser id =>
      obtain rfl := Option.some.inj hstep
      refine h.commit (fun t ht => execDeleteUser_referring hdriver ht h.referring)
        fun t userID ht hcovers => agree_of_execDeleteUser ht ?_
      simpa [Invalidation.covers] using hcovers
  | resolve userID =>
      obtain rfl := Option.some.inj hstep
      exact h.resolve userID
  | expire userID =>
      obtain rfl := Option.some.inj hstep
      exact ⟨h.referring, fun userID' resolved hcached =>
        h.fresh userID' resolved (PartialMap.of_update_none hcached).2⟩

end Coherence

/-- A resolution is cached, another user joins the group, and a role and a group are made. -/
def exampleCalls : List RbacAction :=
  [.resolve "u", .createUser "v", .write (.addUserToGroup "v" "g1"),
    .write (.createRole "r2" "writer"), .write (.createGroup "g3" "Company" (some "g2"))]

end IdpForge
