import Mathlib.Data.List.Dedup
import Mathlib.Data.List.Perm.Subperm
import Mathlib.Logic.Function.Basic
import IdpForge.ParentWalk
import IdpForge.RbacTables

/-!
# Resolving a User's Permissions

`resolveFromDB`, the six queries that flatten users, groups, roles and permissions into one
list. The queries run one after the other outside any transaction, so the resolution is a
function of a *view*: for each query, the tables as that query finds them. A resolution in a
state at rest has the constant view.

The rows of a query come in the order of the table here. No theorem of this module depends on
it; what the order of a user's groups changes is the subject of a module of its own.

## Main results

* `backed_of_mem_permissions`: whatever the view, a returned permission is backed by a row
  in each query's own state.
* `resolveFromDB_eq_declared`: at rest the resolution is the declared model of `Holds` and
  `Assigned`, as long as no chain of parents exceeds the walk's hundred steps.
-/

open ParentWalk

namespace IdpForge

/-- The queries of `resolveFromDB`, in the order they run in. -/
inductive Query where
  | userGroups | groups | userRoles | groupRoles | roles | rolePermissions
  deriving DecidableEq, Repr

/-- The tables each query finds. -/
abbrev View := Query → Tables

/-! ### The queries -/

/-- `userGroupIDs`. -/
def userGroupIDs (t : Tables) (userID : String) : List String :=
  (t.userGroups.filter fun row => row.1 = userID).map (·.2)

/-- The map `parent` of `expandAncestorGroups`; a group without an entry reads as `""`. -/
def parentMap (rows : List GroupRow) : String → String :=
  rows.foldl
    (fun parent row =>
      match row.parentGroupID with
      | some parentID => Function.update parent row.id parentID
      | none => parent)
    fun _ => ""

/-- `expandAncestorGroups`. The set `seen` holds what `result` lists. -/
def expandAncestorGroups (t : Tables) (groupIDs : List String) : List String :=
  if groupIDs = [] then [] else climbAll (parentMap t.groups) "" 100 groupIDs

/-- The roles assigned to the user directly. -/
def directRoleIDs (t : Tables) (userID : String) : List String :=
  (t.userRoles.filter fun row => row.1 = userID).map (·.2)

/-- The roles assigned to one of the groups. -/
def groupRoleIDs (t : Tables) (groupIDs : List String) : List String :=
  if groupIDs = [] then [] else (t.groupRoles.filter fun row => row.1 ∈ groupIDs).map (·.2)

/-- The set of role ids `roleIDsFor` collects. -/
def roleIDSet (direct viaGroups : List String) : List String :=
  (direct ++ viaGroups).dedup

/-- The names of the roles. -/
def roleNames (t : Tables) (roleIDs : List String) : List String :=
  if roleIDs = [] then [] else (t.roles.filter fun role => role.id ∈ roleIDs).map (·.name)

/-- `permissionsFor`: the join of `permissions` and `role_permissions`, without
duplicates. -/
def permissionsFor (t : Tables) (roleIDs : List String) : List Permission :=
  if roleIDs = [] then []
  else
    (t.permissions.flatMap fun p =>
      (t.rolePermissions.filter fun rp => rp.2 = p.id && rp.1 ∈ roleIDs).map
        fun _ => p.permission).dedup

/-- `roleIDsFor`. -/
def roleIDsFor (view : View) (userID : String) (groupIDs : List String) :
    List String × List String :=
  let direct := directRoleIDs (view .userRoles) userID
  let viaGroups := groupRoleIDs (view .groupRoles) groupIDs
  let roleIDs := roleIDSet direct viaGroups
  (roleIDs, roleNames (view .roles) roleIDs)

/-- `resolveFromDB`. -/
def resolveFromDB (view : View) (userID : String) : Resolved :=
  let groupIDs := userGroupIDs (view .userGroups) userID
  let allGroupIDs := expandAncestorGroups (view .groups) groupIDs
  let (roleIDs, names) := roleIDsFor view userID allGroupIDs
  let permissions := permissionsFor (view .rolePermissions) roleIDs
  ⟨userID, names, permissions⟩

/-! ### What the queries return -/

section Queries

variable {t : Tables} {userID : String}

@[simp] theorem mem_userGroupIDs {g : String} :
    g ∈ userGroupIDs t userID ↔ (userID, g) ∈ t.userGroups := by
  simp [userGroupIDs]

@[simp] theorem mem_directRoleIDs {r : String} :
    r ∈ directRoleIDs t userID ↔ (userID, r) ∈ t.userRoles := by
  simp [directRoleIDs]

@[simp] theorem mem_groupRoleIDs {groupIDs : List String} {r : String} :
    r ∈ groupRoleIDs t groupIDs ↔ ∃ g ∈ groupIDs, (g, r) ∈ t.groupRoles := by
  rw [groupRoleIDs]
  split
  · next h => simp [h]
  · simp [and_comm]

@[simp] theorem mem_roleIDSet {direct viaGroups : List String} {r : String} :
    r ∈ roleIDSet direct viaGroups ↔ r ∈ direct ∨ r ∈ viaGroups := by
  simp [roleIDSet]

@[simp] theorem mem_roleNames {roleIDs : List String} {name : String} :
    name ∈ roleNames t roleIDs ↔ ∃ role ∈ t.roles, role.name = name ∧ role.id ∈ roleIDs := by
  rw [roleNames]
  split
  · next h => simp [h]
  · simp only [List.mem_map, List.mem_filter, decide_eq_true_eq]
    exact exists_congr fun role => by tauto

@[simp] theorem mem_permissionsFor {roleIDs : List String} {p : Permission} :
    p ∈ permissionsFor t roleIDs ↔ ∃ r ∈ roleIDs, Grants t r p := by
  rw [permissionsFor]
  split
  · next h => simp [h]
  · simp only [List.mem_dedup, List.mem_flatMap, List.mem_map, List.mem_filter,
      Bool.and_eq_true, decide_eq_true_eq, Grants]
    constructor
    · rintro ⟨row, hrow, ⟨r, pid⟩, ⟨hlink, rfl, hr⟩, rfl⟩
      exact ⟨r, hr, row, hrow, rfl, hlink⟩
    · rintro ⟨r, hr, row, hrow, rfl, hlink⟩
      exact ⟨row, hrow, (r, row.id), ⟨hlink, rfl, hr⟩, rfl⟩

end Queries

/-! ### The parent map -/

/-- The parent map after further rows: an entry is an old one or comes from a row. -/
theorem parentMap_foldl (rows : List GroupRow) (parent : String → String) (g : String) :
    let parent' := rows.foldl
      (fun parent row =>
        match row.parentGroupID with
        | some parentID => Function.update parent row.id parentID
        | none => parent) parent
    (parent' g = parent g ∨ ∃ row ∈ rows, row.id = g ∧ row.parentGroupID = some (parent' g)) ∧
      (g ∉ rows.map (·.id) → parent' g = parent g) := by
  induction rows generalizing parent with
  | nil => exact ⟨Or.inl rfl, fun _ => rfl⟩
  | cons row rows ih =>
      simp only [List.foldl_cons, List.map_cons, List.mem_cons, not_or]
      cases hp : row.parentGroupID with
      | none =>
          obtain ⟨hfrom, hkeep⟩ := ih parent
          refine ⟨hfrom.imp_right ?_, fun h => hkeep h.2⟩
          rintro ⟨row', hrow', hid, hpar⟩
          exact ⟨row', Or.inr hrow', hid, hpar⟩
      | some parentID =>
          obtain ⟨hfrom, hkeep⟩ := ih (Function.update parent row.id parentID)
          constructor
          · rcases hfrom with hsame | ⟨row', hrow', hid, hpar⟩
            · by_cases hg : g = row.id
              · refine Or.inr ⟨row, Or.inl rfl, hg.symm, ?_⟩
                rw [hsame, hg, Function.update_self, hp]
              · rw [Function.update_of_ne hg] at hsame
                exact Or.inl hsame
            · exact Or.inr ⟨row', Or.inr hrow', hid, hpar⟩
          · rintro ⟨hne, hrest⟩
            rw [hkeep hrest, Function.update_of_ne hne]

/-- An entry of the parent map is a parent. -/
theorem isParent_of_parentMap {t : Tables} {g : String} (h : parentMap t.groups g ≠ "") :
    IsParent t g (parentMap t.groups g) := by
  obtain ⟨hsame | ⟨row, hrow, hid, hp⟩, -⟩ :=
    parentMap_foldl t.groups (fun _ => "") g
  · exact absurd hsame h
  · exact ⟨row, hrow, hid, hp⟩

/-- A parent is the entry of the parent map when group ids are unique. -/
theorem parentMap_eq_of_isParent {t : Tables} (hnodup : t.groupIDs.Nodup) {g g' : String}
    (h : IsParent t g g') : parentMap t.groups g = g' := by
  obtain ⟨row, hrow, hid, hp⟩ := h
  obtain ⟨before, after, heq⟩ := List.append_of_mem hrow
  rw [Tables.groupIDs, heq, List.map_append, List.map_cons] at hnodup
  have hafter : g ∉ after.map (·.id) := by
    have hcons := (List.nodup_append.mp hnodup).2.1
    rw [← hid]
    exact (List.nodup_cons.mp hcons).1
  rw [parentMap, heq, List.foldl_append, List.foldl_cons, hp,
    (parentMap_foldl after _ g).2 hafter, ← hid]
  exact Function.update_self ..

/-! ### Group membership -/

/-- The links the walk follows lead to ancestors. -/
theorem inGroup_of_ancestor {t : Tables} {g a : String}
    (h : Ancestor (parentMap t.groups) "" g a) : InGroup t g a := by
  obtain ⟨-, hlinks⟩ := h
  induction hlinks with
  | refl => exact .refl
  | tail _ hlink ih =>
      obtain ⟨-, rfl, hne⟩ := hlink
      exact ih.tail (isParent_of_parentMap hne)

/-- What the walk collects lies above one of its starts. -/
theorem inGroup_of_mem_expand {t : Tables} {groupIDs : List String} {a : String}
    (h : a ∈ expandAncestorGroups t groupIDs) : ∃ g ∈ groupIDs, InGroup t g a := by
  rw [expandAncestorGroups] at h
  split at h
  · simp at h
  · obtain ⟨g, hg, hanc⟩ := ancestor_of_mem_climbAll h
    exact ⟨g, hg, inGroup_of_ancestor hanc⟩

/-- No chain of parents that starts at a group of the user has more than `n` distinct
groups. -/
def ChainsWithin (t : Tables) (userID : String) (n : Nat) : Prop :=
  ∀ g, (userID, g) ∈ t.userGroups → ∀ l : List String, l.Nodup → (∀ a ∈ l, InGroup t g a) →
    l.length ≤ n

/-- Within the depth, no start has more ancestors than there are steps. -/
theorem ChainsWithin.within {t : Tables} {userID g : String} {n : Nat}
    (hdepth : ChainsWithin t userID n) (hg : g ∈ userGroupIDs t userID) :
    Within (parentMap t.groups) "" n g [] := fun l hl hall =>
  hdepth g (mem_userGroupIDs.mp hg) l hl fun b hb => inGroup_of_ancestor (hall b hb).1

/-- The groups of a database are linked as the walk sees them. -/
theorem Database.link_of_isParent (db : Database) {g g' : String}
    (h : IsParent db.tables g g') : Link (parentMap db.tables.groups) "" g g' := by
  have hparent := parentMap_eq_of_isParent db.keyed.groupIDs_nodup h
  obtain ⟨row, hrow, rfl, hp⟩ := h
  have hid : row.id ∈ db.tables.groupIDs := List.mem_map.mpr ⟨row, hrow, rfl⟩
  refine ⟨fun he => db.keyed.groupIDs_ne_empty (he ▸ hid), hparent, fun he => ?_⟩
  exact db.keyed.groupIDs_ne_empty (he ▸ db.referring.parents row hrow g' hp)

/-- The walk collects the ancestors of the user's groups. -/
theorem Database.mem_expand_iff (db : Database) {userID : String}
    (hdepth : ChainsWithin db.tables userID 100) {a : String} :
    a ∈ expandAncestorGroups db.tables (userGroupIDs db.tables userID) ↔
      ∃ g, (userID, g) ∈ db.tables.userGroups ∧ InGroup db.tables g a := by
  constructor
  · intro h
    obtain ⟨g, hg, hin⟩ := inGroup_of_mem_expand h
    exact ⟨g, mem_userGroupIDs.mp hg, hin⟩
  · rintro ⟨g, hg, hin⟩
    have hmem : g ∈ userGroupIDs db.tables userID := mem_userGroupIDs.mpr hg
    have hne : g ≠ "" := fun he =>
      db.keyed.groupIDs_ne_empty (he ▸ (db.referring.userGroups _ hg).2)
    rw [expandAncestorGroups, if_neg (List.ne_nil_of_mem hmem)]
    refine mem_climbAll_of_ancestor (fun _ => hdepth.within) hmem ⟨hne, ?_⟩
    clear hmem
    induction hin with
    | refl => exact .refl
    | tail _ hparent ih => exact ih.tail (db.link_of_isParent hparent)

/-! ### Whatever the view -/

/-- The role is assigned to the user through rows the queries find. -/
def AssignedIn (view : View) (userID roleID : String) : Prop :=
  (userID, roleID) ∈ (view .userRoles).userRoles ∨
    ∃ g, (userID, g) ∈ (view .userGroups).userGroups ∧
      ∃ g', InGroup (view .groups) g g' ∧ (g', roleID) ∈ (view .groupRoles).groupRoles

/-- The role ids of a resolution. -/
def resolvedRoleIDs (view : View) (userID : String) : List String :=
  (roleIDsFor view userID
    (expandAncestorGroups (view .groups) (userGroupIDs (view .userGroups) userID))).1

/-- The role ids of a resolution are assigned through rows the queries find. -/
theorem assignedIn_of_mem {view : View} {userID roleID : String}
    (h : roleID ∈ resolvedRoleIDs view userID) : AssignedIn view userID roleID := by
  rw [resolvedRoleIDs, roleIDsFor, mem_roleIDSet, mem_directRoleIDs, mem_groupRoleIDs] at h
  refine h.imp_right ?_
  rintro ⟨g', hg', hrole⟩
  obtain ⟨g, hg, hin⟩ := inGroup_of_mem_expand hg'
  exact ⟨g, mem_userGroupIDs.mp hg, g', hin, hrole⟩

/-- The permissions of a resolution are those its roles grant in the last query's state. -/
theorem mem_permissions_iff {view : View} {userID : String} {p : Permission} :
    p ∈ (resolveFromDB view userID).permissions ↔
      ∃ r ∈ resolvedRoleIDs view userID, Grants (view .rolePermissions) r p :=
  mem_permissionsFor

/-- **A returned permission is backed**, for each query, by rows that query finds. -/
theorem backed_of_mem_permissions {view : View} {userID : String} {p : Permission}
    (h : p ∈ (resolveFromDB view userID).permissions) :
    ∃ r, AssignedIn view userID r ∧ Grants (view .rolePermissions) r p := by
  obtain ⟨r, hr, hgrants⟩ := mem_permissions_iff.mp h
  exact ⟨r, assignedIn_of_mem hr, hgrants⟩

/-! ### At rest -/

/-- At rest and within the walk's depth, the role ids are the assigned ones. -/
theorem Database.mem_resolvedRoleIDs_iff (db : Database) {userID : String}
    (hdepth : ChainsWithin db.tables userID 100) {r : String} :
    r ∈ resolvedRoleIDs (fun _ => db.tables) userID ↔ Assigned db.tables userID r := by
  refine ⟨assignedIn_of_mem, fun h => ?_⟩
  rw [resolvedRoleIDs, roleIDsFor, mem_roleIDSet, mem_directRoleIDs, mem_groupRoleIDs]
  refine h.imp_right ?_
  rintro ⟨g, hg, g', hin, hrole⟩
  exact ⟨g', (db.mem_expand_iff hdepth).mpr ⟨g, hg, hin⟩, hrole⟩

/-- An assigned role exists. -/
theorem Database.exists_role_of_assigned (db : Database) {userID r : String}
    (h : Assigned db.tables userID r) : ∃ role ∈ db.tables.roles, role.id = r := by
  refine List.mem_map.mp (?_ : r ∈ db.tables.roleIDs)
  rcases h with hdirect | ⟨_, -, _, -, hrole⟩
  · exact (db.referring.userRoles _ hdirect).2
  · exact (db.referring.groupRoles _ hrole).2

/-- **Effective permissions equal the declared model.** -/
theorem resolveFromDB_eq_declared (db : Database) (userID : String)
    (hdepth : ChainsWithin db.tables userID 100) :
    (∀ p, p ∈ (resolveFromDB (fun _ => db.tables) userID).permissions ↔
        Holds db.tables userID p) ∧
      (resolveFromDB (fun _ => db.tables) userID).permissions.Nodup ∧
      (∀ name, name ∈ (resolveFromDB (fun _ => db.tables) userID).roleNames ↔
        ∃ role ∈ db.tables.roles, role.name = name ∧ Assigned db.tables userID role.id) ∧
      (resolveFromDB (fun _ => db.tables) userID).roleNames.Nodup := by
  refine ⟨fun p => ?_, ?_, fun name => ?_, ?_⟩
  · rw [mem_permissions_iff]
    constructor
    · rintro ⟨r, hr, hgrants⟩
      have hassigned := (db.mem_resolvedRoleIDs_iff hdepth).mp hr
      obtain ⟨role, hrole, rfl⟩ := db.exists_role_of_assigned hassigned
      exact ⟨role, hrole, hassigned, hgrants⟩
    · rintro ⟨role, -, hassigned, hgrants⟩
      exact ⟨role.id, (db.mem_resolvedRoleIDs_iff hdepth).mpr hassigned, hgrants⟩
  · change (permissionsFor db.tables (resolvedRoleIDs (fun _ => db.tables) userID)).Nodup
    rw [permissionsFor]
    split
    · exact List.nodup_nil
    · exact List.nodup_dedup _
  · change name ∈ roleNames db.tables (resolvedRoleIDs (fun _ => db.tables) userID) ↔ _
    rw [mem_roleNames]
    simp only [db.mem_resolvedRoleIDs_iff hdepth]
  · change (roleNames db.tables (resolvedRoleIDs (fun _ => db.tables) userID)).Nodup
    rw [roleNames]
    split
    · exact List.nodup_nil
    · exact (db.keyed.roleNames_nodup).sublist ((List.filter_sublist).map _)

/-- With no more than `n` groups, no chain of parents has more than `n` distinct groups. -/
theorem Database.chainsWithin (db : Database) (userID : String) {n : Nat}
    (h : db.tables.groups.length ≤ n) : ChainsWithin db.tables userID n := by
  intro g hg l hl hall
  have hsub : l ⊆ db.tables.groupIDs := by
    intro a ha
    rcases (hall a ha).cases_tail with rfl | ⟨b, -, row, hrow, -, hp⟩
    · exact (db.referring.userGroups _ hg).2
    · exact db.referring.parents row hrow a hp
  calc l.length ≤ db.tables.groupIDs.length := (hl.subperm hsub).length_le
    _ = db.tables.groups.length := List.length_map _
    _ ≤ n := h

/-- A database in which a user is a member of the first of two groups that are each other's
parent, and the second has a role. -/
def cyclicTables : Tables where
  users := ["u"]
  groups := [⟨"g1", "Team", some "g2"⟩, ⟨"g2", "Division", some "g1"⟩]
  userGroups := [("u", "g1")]
  roles := [⟨"r", "reader"⟩]
  permissions := [⟨"p", "reports/*", "read"⟩]
  rolePermissions := [("r", "p")]
  groupRoles := [("g2", "r")]
  userRoles := [("u", "r")]

/-- Those tables meet the constraints. -/
def cyclicDatabase : Database where
  tables := cyclicTables
  keyed := ⟨by decide, by decide, by decide⟩
  referring := ⟨by decide, by decide, by decide, by decide, by decide⟩

/-- The role reached twice, through the cycle and directly, is resolved once. -/
theorem resolveFromDB_eq_declared_cyclic :
    (∀ p, p ∈ (resolveFromDB (fun _ => cyclicDatabase.tables) "u").permissions ↔
        Holds cyclicDatabase.tables "u" p) ∧
      (resolveFromDB (fun _ => cyclicDatabase.tables) "u").permissions.Nodup ∧
      (∀ name, name ∈ (resolveFromDB (fun _ => cyclicDatabase.tables) "u").roleNames ↔
        ∃ role ∈ cyclicDatabase.tables.roles,
          role.name = name ∧ Assigned cyclicDatabase.tables "u" role.id) ∧
      (resolveFromDB (fun _ => cyclicDatabase.tables) "u").roleNames.Nodup :=
  resolveFromDB_eq_declared cyclicDatabase "u" (cyclicDatabase.chainsWithin "u" (by decide))

end IdpForge
