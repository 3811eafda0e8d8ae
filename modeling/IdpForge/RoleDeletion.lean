import IdpForge.CacheCoherence

/-!
# What a Deleted Role Still Grants

The resolver joins assignments to granted permissions without reading the table of roles, so
that a deleted role grants nothing depends on what its deletion leaves behind. Where the
references are enforced, no assignment is left. On SQLite all of them are: the resolver still
finds the ids of deleted roles, and the rows of `role_permissions` still say what they grant.

## Main results

* `resolved_of_referring`: without orphaned ids, a resolution comes from the roles listed.
* `granted_iff_sqlite`: on SQLite, it does when what the orphaned ids grant is granted anyway.
* `deleted_role_grants_nothing_iff`: the two together, in every reachable state.
-/

open TransitionSystem

namespace IdpForge

/-- `ListRoles`. -/
def listRoles (t : Tables) : List Role := t.roles

/-- Every permission of a resolution is granted by a listed role for which `reaches` holds. -/
def GrantedByListed (t : Tables) (reaches : String → String → Prop) : Prop :=
  ∀ userID, ∀ p ∈ (resolveFromDB (fun _ => t) userID).permissions,
    ∃ role ∈ listRoles t, reaches userID role.id ∧ Grants t role.id p

/-- The id is that of the role about to be deleted, or of none. -/
def Orphaned (t : Tables) (id roleID : String) : Prop :=
  roleID = id ∨ roleID ∉ t.roleIDs

/-- What the orphaned role ids that the resolver finds for a user grant, another role that is
listed grants as well, and `reaches` holds for it. -/
def OrphansCovered (t : Tables) (id : String) (reaches : String → String → Prop) : Prop :=
  ∀ userID, ∀ roleID ∈ resolvedRoleIDs (fun _ => t) userID, Orphaned t id roleID →
    ∀ p, Grants t roleID p →
      ∃ role ∈ listRoles t, role.id ≠ id ∧ reaches userID role.id ∧ Grants t role.id p

section Deletion

variable {driver : DBDriver} {t t' : Tables} {id : String} {reaches : String → String → Prop}

/-- Where every reference is to an existing row, a resolution comes from the roles listed. -/
theorem resolved_of_referring (href : t.Referring)
    (hreaches : ∀ userID, ∀ r ∈ resolvedRoleIDs (fun _ => t) userID, reaches userID r) :
    GrantedByListed t reaches := by
  intro userID p hp
  obtain ⟨r, hr, hgrants⟩ := mem_permissions_iff.mp hp
  obtain ⟨role, hrole, rfl⟩ := List.mem_map.mp (href.mem_roleIDs hr)
  exact ⟨role, hrole, hreaches userID role.id hr, hgrants⟩

/-- SQLite deletes the row of the role alone. -/
theorem execDeleteRole_sqlite (h : execDeleteRole .sqlite t id = some t') :
    t' = { t with roles := t.roles.filter fun role => role.id ≠ id } :=
  (Option.some.inj h).symm

/-- On SQLite the resolutions after a deletion come from the roles listed when what the
orphaned ids grant is granted anyway. -/
theorem granted_iff_sqlite (h : execDeleteRole .sqlite t id = some t')
    (hreaches : ∀ userID, ∀ r ∈ resolvedRoleIDs (fun _ => t) userID, reaches userID r) :
    GrantedByListed t' reaches ↔ OrphansCovered t id reaches := by
  obtain rfl := execDeleteRole_sqlite h
  -- the role ids found and what they grant do not depend on the table of roles
  have hresolved : ∀ userID p,
      p ∈ (resolveFromDB (fun _ =>
        { t with roles := t.roles.filter fun role => role.id ≠ id }) userID).permissions ↔
          ∃ r ∈ resolvedRoleIDs (fun _ => t) userID, Grants t r p :=
    fun _ _ => mem_permissions_iff
  have hlisted : ∀ role, role ∈ listRoles
      { t with roles := t.roles.filter fun role => role.id ≠ id } ↔
        role ∈ t.roles ∧ role.id ≠ id := by
    intro role
    simp [listRoles]
  constructor
  · intro hgranted userID roleID hfound _ p hgrants
    obtain ⟨role, hrole, hreach, hp⟩ :=
      hgranted userID p ((hresolved userID p).mpr ⟨roleID, hfound, hgrants⟩)
    obtain ⟨hmem, hne⟩ := (hlisted role).mp hrole
    exact ⟨role, hmem, hne, hreach, hp⟩
  · intro hcovered userID p hp
    obtain ⟨roleID, hfound, hgrants⟩ := (hresolved userID p).mp hp
    by_cases horphaned : Orphaned t id roleID
    · obtain ⟨role, hmem, hne, hreach, hp⟩ :=
        hcovered userID roleID hfound horphaned p hgrants
      exact ⟨role, (hlisted role).mpr ⟨hmem, hne⟩, hreach, hp⟩
    · rw [Orphaned, not_or, not_not] at horphaned
      obtain ⟨hne, hid⟩ := horphaned
      obtain ⟨role, hmem, rfl⟩ := List.mem_map.mp hid
      exact ⟨role, (hlisted role).mpr ⟨hmem, hne⟩, hreaches userID role.id hfound, hgrants⟩

/-- The references hold after every run on a driver that enforces them. -/
theorem referring_of_run (hdriver : driver.enforcesReferences = true) {db : Database}
    {as : List RbacAction} {s : RbacState}
    (hrun : run (rbacStep driver) (RbacState.start db) as = some s) : s.tables.Referring :=
  (run_invariant (fun _ _ _ h hs => coherent_step hdriver h hs) (coherent_start db) hrun).referring

end Deletion

/-- **When a deleted role grants nothing.** In every reachable state, after `DeleteRole` has
succeeded, fresh resolutions contain only what listed roles grant if and only if the driver
enforces the references, or what the orphaned role ids grant is granted by another listed role
anyway; and they contain only what listed roles grant to their own users if and only if the
other role is assigned to the same user. -/
theorem deleted_role_grants_nothing_iff (driver : DBDriver) (db : Database)
    (as : List RbacAction) (s : RbacState)
    (hrun : run (rbacStep driver) (RbacState.start db) as = some s) (id : String) (t : Tables)
    (hdeleted : exec driver s.tables (.deleteRole id) = some t) :
    (GrantedByListed t (fun _ _ => True) ↔
        driver.enforcesReferences = true ∨ OrphansCovered s.tables id fun _ _ => True) ∧
      (GrantedByListed t (Assigned t) ↔
        driver.enforcesReferences = true ∨ OrphansCovered s.tables id (Assigned s.tables)) := by
  cases hdriver : driver.enforcesReferences with
  | true =>
      have href : t.Referring := exec_referring hdeleted hdriver (referring_of_run hdriver hrun)
      have hlisted := resolved_of_referring href fun _ _ _ => trivial
      have hassigned := resolved_of_referring href fun _ _ hr => assignedIn_of_mem hr
      exact ⟨iff_of_true hlisted (.inl rfl), iff_of_true hassigned (.inl rfl)⟩
  | false =>
      obtain rfl : driver = .sqlite := by
        cases driver <;> simp [DBDriver.enforcesReferences] at hdriver ⊢
      have hlisted := granted_iff_sqlite hdeleted fun _ _ _ => trivial
      have hassigned := granted_iff_sqlite hdeleted fun _ _ hr => assignedIn_of_mem hr
      obtain rfl := execDeleteRole_sqlite hdeleted
      rw [or_iff_right Bool.false_ne_true, or_iff_right Bool.false_ne_true]
      exact ⟨hlisted, hassigned⟩

/-- A database without a row. -/
def emptyDatabase : Database where
  tables := ⟨[], [], [], [], [], [], [], []⟩
  keyed := ⟨by decide, by decide, by decide⟩
  referring := ⟨by decide, by decide, by decide, by decide, by decide⟩

/-- A user gets a role that grants a permission. -/
def exampleAssignment : List RbacAction :=
  [.createUser "u", .write (.createRole "r" "manager"),
    .write (.createPermission "p" "users" "manage"), .write (.grantPermissionToRole "r" "p"),
    .write (.assignRoleToUser "u" "r")]

/-- The tables the calls leave behind, on any driver. -/
def assignedTables : Tables where
  users := ["u"]
  groups := []
  userGroups := []
  roles := [⟨"r", "manager"⟩]
  permissions := [⟨"p", "users", "manage"⟩]
  rolePermissions := [("r", "p")]
  groupRoles := []
  userRoles := [("u", "r")]

/-- The calls lead to these tables. -/
theorem exampleAssignment_tables (driver : DBDriver) :
    ∃ s, run (rbacStep driver) (RbacState.start emptyDatabase) exampleAssignment = some s ∧
      s.tables = assignedTables := by
  have htables : (run (rbacStep driver) (RbacState.start emptyDatabase) exampleAssignment).map
      (·.tables) = some assignedTables := by
    cases driver <;> decide +kernel
  exact Option.map_eq_some_iff.mp htables

/-- With PostgreSQL nobody has anything from the role once it is deleted. -/
theorem deleted_role_grants_nothing_iff_postgres :
    ∃ s t, run (rbacStep .postgres) (RbacState.start emptyDatabase) exampleAssignment = some s ∧
      exec .postgres s.tables (.deleteRole "r") = some t ∧ GrantedByListed t (Assigned t) := by
  obtain ⟨s, hrun, hs⟩ := exampleAssignment_tables .postgres
  have hdeleted : (exec .postgres s.tables (.deleteRole "r")).isSome := by
    rw [hs]
    decide +kernel
  obtain ⟨t, ht⟩ := Option.isSome_iff_exists.mp hdeleted
  have hiff := (deleted_role_grants_nothing_iff .postgres emptyDatabase _ s hrun "r" t ht).2
  exact ⟨s, t, hrun, ht, hiff.mpr (.inl rfl)⟩

/-- With SQLite the user keeps the permission, and no role is listed. -/
theorem deleted_role_still_grants :
    ¬ ∀ (driver : DBDriver) (db : Database) (as : List RbacAction) (s : RbacState),
      run (rbacStep driver) (RbacState.start db) as = some s →
        ∀ (id : String) (t : Tables), exec driver s.tables (.deleteRole id) = some t →
          GrantedByListed t fun _ _ => True := by
  intro h
  obtain ⟨s, hrun, hs⟩ := exampleAssignment_tables .sqlite
  have hdeleted : exec .sqlite s.tables (.deleteRole "r") =
      some { assignedTables with roles := [] } := by
    rw [hs]
    decide +kernel
  have hresolved : ⟨"users", "manage"⟩ ∈
      (resolveFromDB (fun _ => { assignedTables with roles := [] }) "u").permissions := by
    decide +kernel
  obtain ⟨role, hrole, -⟩ := h .sqlite emptyDatabase _ s hrun "r" _ hdeleted "u" _ hresolved
  simp [listRoles] at hrole

end IdpForge
