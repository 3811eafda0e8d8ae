import IdpForge.ClimbOrder
import IdpForge.Resolver

/-!
# The Order of a User's Groups

The query for a user's groups has no `ORDER BY`, so a database may return its rows in any order,
and `expandAncestorGroups` climbs from them one after the other. Each climb ends after a hundred
steps, a guard against cyclic data, and at a group that was collected before. A climb the guard
has ended leaves groups behind which later climbs take for expanded; what they would have
collected above is missing then.

## Main results

* `resolution_order_iff`: the groups, and with them the user's permissions, are the same in every
  order exactly when each group in reach of the guard is safe from that.
* `resolution_depends_on_order`: a user of a hierarchy of 120 groups holds a permission in the one
  order and not in the other.
-/

open ParentWalk

namespace IdpForge

/-- The view in which the query for the user's groups finds these rows instead. -/
def View.withUserGroups (view : View) (rows : List (String × String)) : View :=
  Function.update view .userGroups { view .userGroups with userGroups := rows }

/-- The other queries find what they found. -/
theorem View.withUserGroups_of_ne (view : View) (rows : List (String × String)) {q : Query}
    (hq : q ≠ .userGroups) : view.withUserGroups rows q = view q :=
  Function.update_of_ne hq _ _

/-! ### The groups -/

/-- Without starts there is nothing to climb. -/
theorem expandAncestorGroups_eq (t : Tables) (groupIDs : List String) :
    expandAncestorGroups t groupIDs = climbAll (parentMap t.groups) "" 100 groupIDs := by
  rw [expandAncestorGroups]
  split
  · next hnil => rw [hnil]; rfl
  · rfl

/-- The user's groups in another order of the rows. -/
theorem userGroupIDs_perm {t : Tables} {rows : List (String × String)} (userID : String)
    (hperm : rows.Perm t.userGroups) :
    (userGroupIDs { t with userGroups := rows } userID).Perm (userGroupIDs t userID) :=
  (hperm.filter _).map _

/-- The roles of a resolution depend on the rows of `user_groups` only through the groups they
expand to. -/
theorem mem_resolvedRoleIDs_withUserGroups {view : View} {userID r : String}
    {rows : List (String × String)}
    (hsame : ∀ g,
      g ∈ expandAncestorGroups (view .groups)
          (userGroupIDs { view .userGroups with userGroups := rows } userID) ↔
        g ∈ expandAncestorGroups (view .groups) (userGroupIDs (view .userGroups) userID)) :
    r ∈ resolvedRoleIDs (view.withUserGroups rows) userID ↔ r ∈ resolvedRoleIDs view userID := by
  have hother {q : Query} (hq : q ≠ .userGroups) := view.withUserGroups_of_ne rows hq
  have hown : view.withUserGroups rows .userGroups =
      { view .userGroups with userGroups := rows } := Function.update_self ..
  simp only [resolvedRoleIDs, roleIDsFor, mem_roleIDSet, mem_directRoleIDs, mem_groupRoleIDs,
    hother (q := .userRoles) (by simp), hother (q := .groupRoles) (by simp),
    hother (q := .groups) (by simp), hown, hsame]

/-- So do its permissions. -/
theorem mem_permissions_withUserGroups {view : View} {userID : String} {p : Permission}
    {rows : List (String × String)}
    (hsame : ∀ g,
      g ∈ expandAncestorGroups (view .groups)
          (userGroupIDs { view .userGroups with userGroups := rows } userID) ↔
        g ∈ expandAncestorGroups (view .groups) (userGroupIDs (view .userGroups) userID)) :
    p ∈ (resolveFromDB (view.withUserGroups rows) userID).permissions ↔
      p ∈ (resolveFromDB view userID).permissions := by
  have hlast : view.withUserGroups rows .rolePermissions = view .rolePermissions :=
    view.withUserGroups_of_ne rows (by simp)
  simp only [mem_permissions_iff, mem_resolvedRoleIDs_withUserGroups hsame, hlast]

/-- **Resolution does not depend on row order** exactly when each group that a starting group gets
to in fewer than a hundred steps is got to along some path such that every starting group which
gets onto the path in that many steps gets to the group in that many, too. -/
theorem resolution_order_iff (t : Tables) (groupIDs : List String) :
    ((∀ groupIDs' : List String, groupIDs'.Perm groupIDs → ∀ g,
        g ∈ expandAncestorGroups t groupIDs' ↔ g ∈ expandAncestorGroups t groupIDs) ∧
      ∀ (view : View) (userID : String), view .groups = t →
        userGroupIDs (view .userGroups) userID = groupIDs →
        ∀ rows : List (String × String), rows.Perm (view .userGroups).userGroups → ∀ p,
          p ∈ (resolveFromDB (view.withUserGroups rows) userID).permissions ↔
            p ∈ (resolveFromDB view userID).permissions) ↔
      ∀ g, (∃ start ∈ groupIDs, Near (parentMap t.groups) "" 100 start g) →
        Covered (parentMap t.groups) "" 100 groupIDs g := by
  rw [← climbAll_perm_iff]
  simp only [← expandAncestorGroups_eq]
  refine ⟨And.left, fun hsame => ⟨hsame, ?_⟩⟩
  rintro view userID rfl rfl rows hperm p
  exact mem_permissions_withUserGroups (hsame _ (userGroupIDs_perm userID hperm))

/-- Where no chain of parents has more than a hundred groups, the order does not matter. -/
theorem expandAncestorGroups_perm {t : Tables} {userID : String}
    (hdepth : ChainsWithin t userID 100) {groupIDs' : List String}
    (hperm : groupIDs'.Perm (userGroupIDs t userID)) {g : String} :
    g ∈ expandAncestorGroups t groupIDs' ↔
      g ∈ expandAncestorGroups t (userGroupIDs t userID) := by
  rw [expandAncestorGroups_eq, expandAncestorGroups_eq]
  exact climbAll_perm_iff.mpr (fun _ => covered_of_within fun _ => hdepth.within) _ hperm g

/-! ### A tower of groups -/

/-- The ids of the groups of a tower, from the bottom. -/
def floorID (n : Nat) : String := String.ofList (List.replicate (n + 1) 'g')

/-- A hundred and twenty groups, each the parent of the one before. -/
def tower : List GroupRow :=
  (List.range 120).map fun n =>
    ⟨floorID n, floorID n, if n < 119 then some (floorID (n + 1)) else none⟩

/-- A user in the lowest group of the tower and in one in the middle, and a role for a group near
the top. -/
def towerTables : Tables where
  users := ["u"]
  groups := tower
  userGroups := [("u", floorID 0), ("u", floorID 50)]
  roles := [⟨"r", "reader"⟩]
  permissions := [⟨"p", "reports/*", "read"⟩]
  rolePermissions := [("r", "p")]
  groupRoles := [(floorID 110, "r")]
  userRoles := []

/-- Groups of a tower are told by their ids. -/
theorem floorID_inj {m n : Nat} : floorID m = floorID n ↔ m = n := by
  refine ⟨fun h => ?_, fun h => by rw [h]⟩
  have hlength := congrArg (fun s => s.toList.length) h
  simpa [floorID] using hlength

/-- No group of a tower has the empty id. -/
theorem floorID_ne_empty (n : Nat) : floorID n ≠ "" := by
  intro h
  have hlength := congrArg (fun s => s.toList.length) h
  simp [floorID] at hlength

/-- The ids of the tower's groups. -/
theorem groupIDs_towerTables : towerTables.groupIDs = (List.range 120).map floorID := by
  rw [Tables.groupIDs, towerTables, tower, List.map_map]
  rfl

/-- They are distinct. -/
theorem groupIDs_towerTables_nodup : towerTables.groupIDs.Nodup := by
  rw [groupIDs_towerTables]
  exact List.nodup_range.map fun _ _ => floorID_inj.mp

/-- The tower's groups, by their ids. -/
theorem mem_groupIDs_towerTables {n : Nat} (hn : n < 120) :
    floorID n ∈ towerTables.groupIDs := by
  rw [groupIDs_towerTables]
  exact List.mem_map_of_mem (List.mem_range.mpr hn)

/-- The tables of the tower meet the constraints. -/
def towerDatabase : Database where
  tables := towerTables
  keyed := by
    refine ⟨groupIDs_towerTables_nodup, List.nodup_singleton _, fun hmem => ?_⟩
    rw [groupIDs_towerTables] at hmem
    obtain ⟨n, -, hn⟩ := List.mem_map.mp hmem
    exact floorID_ne_empty n hn
  referring := by
    have hfloor : ∀ n, n < 120 → floorID n ∈ towerTables.groupIDs := fun n =>
      mem_groupIDs_towerTables
    refine ⟨?_, ?_, nofun, ?_, by decide⟩
    · intro row hrow
      rcases List.mem_pair.mp hrow with rfl | rfl
      · exact ⟨List.mem_singleton_self _, hfloor 0 (by omega)⟩
      · exact ⟨List.mem_singleton_self _, hfloor 50 (by omega)⟩
    · intro row hrow p hp
      obtain ⟨n, -, rfl⟩ := List.mem_map.mp hrow
      obtain ⟨hn, rfl⟩ := Option.ite_some_none_eq_some.mp hp
      exact hfloor (n + 1) (by omega)
    · intro row hrow
      rw [List.mem_singleton.mp hrow]
      exact ⟨hfloor 110 (by omega), List.mem_singleton_self _⟩

/-- A climb in the tower is a number of floors up. -/
theorem reaches_tower {n i : Nat} (htop : n + i < 120) :
    Reaches (parentMap tower) "" i (floorID n) (floorID (n + i)) := by
  have hparent : ∀ m, m < 119 → parentMap tower (floorID m) = floorID (m + 1) := fun m hm =>
    parentMap_eq_of_isParent groupIDs_towerTables_nodup
      ⟨_, List.mem_map_of_mem (List.mem_range.mpr (by omega)), rfl, if_pos hm⟩
  have hclimb : ∀ j ≤ i, (parentMap tower)^[j] (floorID n) = floorID (n + j) := by
    intro j
    induction j with
    | zero => exact fun _ => rfl
    | succ j ih =>
        intro hj
        rw [Function.iterate_succ_apply', ih (by omega), hparent _ (by omega), Nat.add_assoc]
  exact ⟨hclimb i le_rfl, fun j hj => by rw [hclimb j hj]; exact floorID_ne_empty _⟩

/-- From the middle first, the climb gets to the group near the top. -/
theorem floorID_mem_expand :
    floorID 110 ∈ expandAncestorGroups towerTables [floorID 50, floorID 0] := by
  rw [expandAncestorGroups_eq]
  exact mem_climbAll_cons ⟨60, by omega, reaches_tower (n := 50) (by omega)⟩

/-- From the bottom first, the guard ends the climb below that group, and the climb from the
middle ends where it starts. -/
theorem floorID_not_mem_expand :
    floorID 110 ∉ expandAncestorGroups towerTables [floorID 0, floorID 50] := by
  have hgroups : towerTables.groups = tower := rfl
  rw [expandAncestorGroups_eq, hgroups, climbAll, List.foldl_cons, List.foldl_cons, List.foldl_nil]
  intro hmem
  have hmiddle : floorID 50 ∈ climb (parentMap tower) "" 100 (floorID 0) [] :=
    mem_climb_of_reaches (by omega) (reaches_tower (n := 0) (i := 50) (by omega))
      fun _ _ => List.not_mem_nil
  rcases mem_climb_iff.mp hmem with hfirst | ⟨i, -, -, hclear⟩
  · obtain ⟨i, hi, hreach, -⟩ := (mem_climb_iff.mp hfirst).resolve_left List.not_mem_nil
    have hfloor := hreach.1.symm.trans (reaches_tower (n := 0) (i := i) (by omega)).1
    have := floorID_inj.mp hfloor
    omega
  · exact hclear 0 (Nat.zero_le i) hmiddle

/-- The one permission of the tower is held through the group near the top. -/
theorem mem_permissions_tower {view : View} {groupIDs : List String}
    (hview : ∀ q, q ≠ .userGroups → view q = towerTables)
    (hgroups : userGroupIDs (view .userGroups) "u" = groupIDs) :
    ⟨"reports/*", "read"⟩ ∈ (resolveFromDB view "u").permissions ↔
      floorID 110 ∈ expandAncestorGroups towerTables groupIDs := by
  have hgrants : ∀ r, Grants towerTables r ⟨"reports/*", "read"⟩ ↔ r = "r" := by
    simp [Grants, towerTables, PermissionRecord.permission]
  simp only [mem_permissions_iff, hview .rolePermissions (by simp), hgrants, exists_eq_right,
    resolvedRoleIDs, roleIDsFor, mem_roleIDSet, mem_directRoleIDs, mem_groupRoleIDs,
    hview .userRoles (by simp), hview .groupRoles (by simp), hview .groups (by simp), hgroups]
  simp [towerTables]

/-- **One user, two answers.** A user is in the lowest group of the tower and in one in the middle.
With the row of the middle group first, the group near the top is expanded to and its permission
held; with the other row first, neither. -/
theorem resolution_depends_on_order :
    [("u", floorID 50), ("u", floorID 0)].Perm towerDatabase.tables.userGroups ∧
      (floorID 110 ∈ expandAncestorGroups towerDatabase.tables [floorID 50, floorID 0] ∧
        floorID 110 ∉ expandAncestorGroups towerDatabase.tables [floorID 0, floorID 50]) ∧
      ⟨"reports/*", "read"⟩ ∈ (resolveFromDB
        (View.withUserGroups (fun _ => towerDatabase.tables)
          [("u", floorID 50), ("u", floorID 0)]) "u").permissions ∧
      ⟨"reports/*", "read"⟩ ∉
        (resolveFromDB (fun _ => towerDatabase.tables) "u").permissions := by
  have hrows : userGroupIDs towerTables "u" = [floorID 0, floorID 50] := by
    simp [userGroupIDs, towerTables]
  have hswapped : userGroupIDs (View.withUserGroups (fun _ => towerTables)
      [("u", floorID 50), ("u", floorID 0)] .userGroups) "u" = [floorID 50, floorID 0] := by
    simp [userGroupIDs, View.withUserGroups]
  refine ⟨.swap .., ⟨floorID_mem_expand, floorID_not_mem_expand⟩, ?_, fun h => ?_⟩
  · refine (mem_permissions_tower (fun q hq => ?_) hswapped).mpr floorID_mem_expand
    exact View.withUserGroups_of_ne _ _ hq
  · exact floorID_not_mem_expand ((mem_permissions_tower (fun _ _ => rfl) hrows).mp h)

end IdpForge
