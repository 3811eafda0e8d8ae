import IdpForge.CacheCoherence
import IdpForge.ParentPath

/-!
# The Hierarchy of Groups

Groups are created under a parent that is never changed. So a new group is above nothing, and
no run of the calls makes a cycle of parents out of a hierarchy without one. The walk of
`expandAncestorGroups` has tests for nodes met before and for a hundred steps "against cyclic
data"; from one group they leave what the walk is for, its path to the top.

A driver that enforces the references refuses a parent that does not exist. On SQLite a group
can be given any parent, and only that ids are drawn at random keeps a new group from being the
parent of an old one.

## Main results

* `acyclic_append`: a row that is nobody's parent adds no cycle.
* `hierarchy_step`: a call keeps the hierarchy.
* `group_hierarchy`: in every reachable state the groups form no cycle, and the walk from a
  group collects its path to the top, or the first hundred groups of it.
-/

open ParentWalk Relation TransitionSystem

namespace IdpForge

/-- No group is above itself. -/
def AcyclicGroups (t : Tables) : Prop := ∀ g, ¬ TransGen (IsParent t) g g

/-- A group that is created is not the parent of a group that exists, nor its own. -/
def FreshGroup (s : RbacState) : RbacAction → Prop
  | .write (.createGroup id _ parentGroupID) =>
      parentGroupID ≠ some id ∧ ∀ row ∈ s.tables.groups, row.parentGroupID ≠ some id
  | _ => True

/-- Groups with ids of their own and without a cycle. -/
structure Hierarchy (t : Tables) : Prop where
  nodup : t.groupIDs.Nodup
  acyclic : AcyclicGroups t

section Statements

variable {t t' : Tables} {row : GroupRow}

/-- **A row that is nobody's parent** adds no cycle. -/
theorem acyclic_append (h : AcyclicGroups t) (hgroups : t'.groups = t.groups ++ [row])
    (hnew : ∀ r ∈ t'.groups, r.parentGroupID ≠ some row.id) : AcyclicGroups t' := by
  have htarget : ∀ a b, IsParent t' a b → b ≠ row.id := by
    rintro a b ⟨r, hr, -, hp⟩ rfl
    exact hnew r hr hp
  have hold : ∀ a b, a ≠ row.id → IsParent t' a b → IsParent t a b := by
    rintro a b ha ⟨r, hr, rfl, hp⟩
    rw [hgroups] at hr
    rcases List.mem_append.mp hr with hr | hr
    · exact ⟨r, hr, rfl, hp⟩
    · exact absurd (congrArg GroupRow.id (List.mem_singleton.mp hr)) ha
  -- whoever is above somebody is not the new group, and its parents are what they were
  have hpath : ∀ a b, a ≠ row.id → TransGen (IsParent t') a b → TransGen (IsParent t) a b := by
    intro a b ha hab
    induction hab with
    | single hstep => exact .single (hold _ _ ha hstep)
    | tail hac hstep ih =>
        obtain ⟨_, -, hlast⟩ := TransGen.tail'_iff.mp hac
        exact ih.tail (hold _ _ (htarget _ _ hlast) hstep)
  intro g hcycle
  obtain ⟨_, -, hlast⟩ := TransGen.tail'_iff.mp hcycle
  exact h g (hpath g g (htarget _ _ hlast) hcycle)

/-- The hierarchy is read from the groups only. -/
theorem Hierarchy.congr (h : Hierarchy t) (hgroups : t'.groups = t.groups) : Hierarchy t' := by
  have hids : t'.groupIDs = t.groupIDs := by rw [Tables.groupIDs, Tables.groupIDs, hgroups]
  have hparent : IsParent t' = IsParent t := by
    funext g g'
    rw [IsParent, IsParent, hgroups]
  exact ⟨hids ▸ h.nodup, fun g => hparent ▸ h.acyclic g⟩

/-- A new group whose id nobody refers to keeps the hierarchy. -/
theorem Hierarchy.append (h : Hierarchy t) (hgroups : t'.groups = t.groups ++ [row])
    (hid : row.id ∉ t.groupIDs) (hnew : ∀ r ∈ t'.groups, r.parentGroupID ≠ some row.id) :
    Hierarchy t' := by
  refine ⟨?_, acyclic_append h.acyclic hgroups hnew⟩
  have hids : t'.groupIDs = t.groupIDs ++ [row.id] := by
    rw [Tables.groupIDs, hgroups, List.map_append]
    rfl
  rw [hids]
  exact List.nodup_append.mpr ⟨h.nodup, List.nodup_singleton _, by
    intro a ha b hb heq
    exact hid (List.mem_singleton.mp hb ▸ heq ▸ ha)⟩

/-- The groups after a statement: those before it, and a new one after `CreateGroup`, which
has refused an id that is taken and, where references are enforced, a parent that is missing. -/
theorem groups_of_exec {driver : DBDriver} {w : Write} (h : exec driver t w = some t') :
    t'.groups = t.groups ∨ ∃ id name parentGroupID,
      w = .createGroup id name parentGroupID ∧ id ∉ t.groupIDs ∧
        (driver.enforcesReferences = true → ∀ p, parentGroupID = some p → p ∈ t.groupIDs) ∧
        t'.groups = t.groups ++ [⟨id, name, parentGroupID⟩] := by
  cases w with
  | createGroup id name parentGroupID =>
      simp only [exec, ite_eq_iff, Option.some.injEq, reduceCtorEq, and_false, false_or] at h
      obtain ⟨htaken, hparent, rfl⟩ := h
      refine .inr ⟨id, name, parentGroupID, rfl, fun hid => htaken (.inl hid), ?_, rfl⟩
      intro hdriver p hp
      by_contra hout
      exact hparent (by simp [hdriver, hp, hout])
  | createRole id name =>
      simp only [exec, ite_eq_iff, Option.some.injEq, reduceCtorEq, and_false, false_or] at h
      obtain ⟨-, rfl⟩ := h
      exact .inl rfl
  | createPermission id resource action =>
      simp only [exec, ite_eq_iff, Option.some.injEq, reduceCtorEq, and_false, false_or] at h
      obtain ⟨-, rfl⟩ := h
      exact .inl rfl
  | deleteRole id =>
      left
      cases driver with
      | mssql =>
          simp only [exec, execDeleteRole, ite_eq_iff, Option.some.injEq, reduceCtorEq, and_false,
            false_or] at h
          obtain ⟨-, rfl⟩ := h
          rfl
      | _ =>
          obtain rfl := Option.some.inj h
          rfl
  | revokePermissionFromRole roleID permissionID =>
      obtain rfl := Option.some.inj h
      exact .inl rfl
  | removeRoleFromUser u roleID =>
      obtain rfl := Option.some.inj h
      exact .inl rfl
  | removeRoleFromGroup groupID roleID =>
      obtain rfl := Option.some.inj h
      exact .inl rfl
  | removeUserFromGroup u groupID =>
      obtain rfl := Option.some.inj h
      exact .inl rfl
  | grantPermissionToRole roleID permissionID =>
      obtain ⟨rows, -, rfl⟩ := Option.map_eq_some_iff.mp h
      exact .inl rfl
  | assignRoleToUser u roleID =>
      obtain ⟨rows, -, rfl⟩ := Option.map_eq_some_iff.mp h
      exact .inl rfl
  | assignRoleToGroup groupID roleID =>
      obtain ⟨rows, -, rfl⟩ := Option.map_eq_some_iff.mp h
      exact .inl rfl
  | addUserToGroup u groupID =>
      obtain ⟨rows, -, rfl⟩ := Option.map_eq_some_iff.mp h
      exact .inl rfl

end Statements

/-! ### Calls -/

section Calls

variable {driver : DBDriver} {s s' : RbacState}

/-- The tables after a call whose statement went through or did not. -/
theorem tables_commit (t? : Option Tables) (i : Invalidation) :
    (s.commit t? i).tables = t?.getD s.tables := by
  cases t? with
  | none => rfl
  | some t => rfl

/-- **A call keeps the hierarchy**, where references are enforced or ids are fresh. -/
theorem hierarchy_step {a : RbacAction} (h : Hierarchy s.tables)
    (hfresh : (driver.enforcesReferences = true ∧ s.tables.Referring) ∨ FreshGroup s a)
    (hstep : rbacStep driver s a = some s') : Hierarchy s'.tables := by
  cases a with
  | write w =>
      obtain rfl := Option.some.inj hstep
      rw [RbacState.write, tables_commit]
      cases hexec : exec driver s.tables w with
      | none => exact h
      | some t =>
          rcases groups_of_exec hexec with hgroups | ⟨id, name, p, rfl, hid, hparent, hgroups⟩
          · exact h.congr hgroups
          · refine h.append hgroups hid ?_
            intro r hr heq
            change t.groups = _ at hgroups
            rw [Option.getD_some, hgroups] at hr
            rcases hfresh with ⟨hdriver, href⟩ | ⟨hself, hothers⟩
            · rcases List.mem_append.mp hr with hold | hrow
              · exact hid (href.parents r hold id heq)
              · rw [List.mem_singleton.mp hrow] at heq
                exact hid (hparent hdriver id heq)
            · rcases List.mem_append.mp hr with hold | hrow
              · exact hothers r hold heq
              · rw [List.mem_singleton.mp hrow] at heq
                exact hself heq
  | createUser id =>
      obtain rfl := Option.some.inj hstep
      rw [RbacState.handleCreateUser, tables_commit, execCreateUser]
      split
      · exact h
      · exact h.congr rfl
  | deleteUser id =>
      obtain rfl := Option.some.inj hstep
      rw [RbacState.handleDeleteUser, tables_commit, execDeleteUser]
      split
      · exact h
      · refine h.congr ?_
        rw [Option.getD_some]
        split <;> rfl
  | resolve userID =>
      obtain rfl := Option.some.inj hstep
      rw [RbacState.resolve]
      split <;> exact h
  | expire userID =>
      obtain rfl := Option.some.inj hstep
      exact h

/-- A run keeps the hierarchy. -/
theorem hierarchy_of_run {db : Database} (hacyclic : AcyclicGroups db.tables)
    {as : List RbacAction}
    (hfresh : driver.enforcesReferences = true ∨
      Guarded (rbacStep driver) FreshGroup (RbacState.start db) as)
    (hrun : run (rbacStep driver) (RbacState.start db) as = some s) : Hierarchy s.tables := by
  have hstart : Hierarchy (RbacState.start db).tables := ⟨db.keyed.groupIDs_nodup, hacyclic⟩
  rcases hfresh with hdriver | hfresh
  · exact (run_invariant (P := fun s => s.Coherent ∧ Hierarchy s.tables)
      (fun _ _ _ h hs => ⟨coherent_step hdriver h.1 hs,
        hierarchy_step h.2 (.inl ⟨hdriver, h.1.referring⟩) hs⟩)
      ⟨coherent_start db, hstart⟩ hrun).2
  · exact guarded_run_invariant (fun _ _ _ h hg hs => hierarchy_step h (.inr hg) hs) hstart
      hfresh hrun

end Calls

/-! ### Paths -/

section Paths

variable {t : Tables}

/-- The walk follows no cycle. -/
theorem AcyclicGroups.links (h : AcyclicGroups t) : Acyclic (parentMap t.groups) "" := by
  have hle : Link (parentMap t.groups) "" ≤ IsParent t := by
    rintro a b ⟨-, rfl, hne⟩
    exact isParent_of_parentMap hne
  exact fun g hcycle => h g (TransGen.mono hle g g hcycle)

/-- The groups of a path are rows, up to the last one. -/
theorem mem_groupIDs_of_mem_dropLast {l : List String}
    (hl : l.IsChain (Link (parentMap t.groups) "")) : ∀ a ∈ l.dropLast, a ∈ t.groupIDs := by
  induction l with
  | nil => simp
  | cons a l ih =>
      cases l with
      | nil => simp
      | cons b l =>
          rw [List.isChain_cons_cons] at hl
          obtain ⟨⟨-, hparent, hne⟩, hrest⟩ := hl
          rw [List.dropLast_cons_cons, List.forall_mem_cons]
          obtain ⟨r, hr, hid, -⟩ := isParent_of_parentMap (hparent ▸ hne)
          exact ⟨List.mem_map.mpr ⟨r, hr, hid⟩, ih hrest⟩

/-- A path has at most one group more than there are rows. -/
theorem length_path_le (h : AcyclicGroups t) (n : Nat) (g : String) :
    (path (parentMap t.groups) "" n g).length ≤ t.groups.length + 1 := by
  have hnodup := (nodup_path h.links n g).sublist (List.dropLast_sublist _)
  have hsub : (path (parentMap t.groups) "" n g).dropLast ⊆ t.groupIDs :=
    mem_groupIDs_of_mem_dropLast (isChain_path n g)
  have hlength := (hnodup.subperm hsub).length_le
  rw [List.length_dropLast, Tables.groupIDs, List.length_map] at hlength
  omega

/-- The walk from one group collects the beginning of its path. -/
theorem expandAncestorGroups_singleton (h : AcyclicGroups t) (g : String) :
    expandAncestorGroups t [g] =
      (path (parentMap t.groups) "" (t.groups.length + 2) g).take 100 := by
  have hwalk : expandAncestorGroups t [g] = path (parentMap t.groups) "" 100 g :=
    climb_eq_append_path h.links 100 fun _ _ => List.not_mem_nil
  rw [hwalk]
  rcases Nat.le_total 100 (t.groups.length + 2) with hle | hle
  · exact (take_path hle g).symm
  · have hlength := length_path_le h (t.groups.length + 2) g
    rw [path_eq_of_length_lt (by omega) hle, List.take_of_length_le (by omega)]

end Paths

/-- **The hierarchy of groups.** In every reachable state no group is above itself, and from
every group there is one path of distinct groups to a group without a parent, of which the walk
collects the first hundred. -/
theorem group_hierarchy (driver : DBDriver) (db : Database) (hacyclic : AcyclicGroups db.tables)
    (as : List RbacAction) (s : RbacState)
    (hrun : run (rbacStep driver) (RbacState.start db) as = some s)
    (hfresh : driver.enforcesReferences = true ∨
      Guarded (rbacStep driver) FreshGroup (RbacState.start db) as) :
    AcyclicGroups s.tables ∧
      ∀ g, g ≠ "" → ∃ up : List String,
        up.head? = some g ∧ up.Nodup ∧ up.IsChain (IsParent s.tables) ∧
          (∀ top ∈ up.getLast?, ∀ p, IsParent s.tables top p → p = "") ∧
          up.length ≤ s.tables.groups.length + 1 ∧
          expandAncestorGroups s.tables [g] = up.take 100 := by
  obtain ⟨hnodup, hgroups⟩ := hierarchy_of_run hacyclic hfresh hrun
  refine ⟨hgroups, fun g hg => ?_⟩
  have hlength := length_path_le hgroups (s.tables.groups.length + 2) g
  refine ⟨path (parentMap s.tables.groups) "" (s.tables.groups.length + 2) g, head_path hg,
    nodup_path hgroups.links _ g, ?_, ?_, hlength, expandAncestorGroups_singleton hgroups g⟩
  · refine (isChain_path _ g).imp ?_
    rintro a b ⟨-, hparent, hne⟩
    exact hparent ▸ isParent_of_parentMap (hparent ▸ hne)
  · intro top htop p hp
    rw [← parentMap_eq_of_isParent hnodup hp]
    exact getLast_path (by omega) top htop

/-- A database without groups. -/
def groupless : Database where
  tables := ⟨["u"], [], [], [], [], [], [], []⟩
  keyed := ⟨by decide, by decide, by decide⟩
  referring := ⟨by decide, by decide, by decide, by decide, by decide⟩

/-- A company, a division of it and a team of that. -/
def exampleGroups : List RbacAction :=
  [.write (.createGroup "g1" "Company" none), .write (.createGroup "g2" "Division" (some "g1")),
    .write (.createGroup "g3" "Team" (some "g2"))]

/-- The team's path leads to the company. -/
theorem group_hierarchy_example :
    ∃ s, run (rbacStep .sqlite) (RbacState.start groupless) exampleGroups = some s ∧
      expandAncestorGroups s.tables ["g3"] = ["g3", "g2", "g1"] ∧
      AcyclicGroups s.tables := by
  refine ⟨_, rfl, by decide, (group_hierarchy .sqlite groupless ?_ exampleGroups _ rfl
    (.inr ?_)).1⟩
  · intro g hcycle
    obtain ⟨_, -, _, hrow, -⟩ := TransGen.tail'_iff.mp hcycle
    exact absurd hrow List.not_mem_nil
  · simp [exampleGroups, Guarded, FreshGroup, rbacStep, RbacState.start, RbacState.write,
      RbacState.commit, RbacState.invalidate, exec, groupless, Tables.groupIDs,
      DBDriver.enforcesReferences]

end IdpForge
