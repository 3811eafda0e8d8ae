import Mathlib.Data.List.Induction
import IdpForge.Resolver
import IdpForge.TransitionSystem

/-!
# A Resolution among Writes

`resolveFromDB` one query at a time, interleaved with the statements of `Admin`. Nothing
holds the queries together, so a resolution may read the memberships of one state and the
grants of a later one; what it returns is the resolution in the view that its queries had,
and a pair of writes between two of them can make that something the user never held.

## Main results

* `resolution_of_interleaving`: the view of an interleaved resolution consists of the states
  its queries ran in, in their order; without a write between its first and its last query
  the result is that of one state, and without a revoking one it is held in the last.
* `resolution_invents_access`: in general it is not the result of any state of the run.
-/

open TransitionSystem

namespace IdpForge

/-- The position of a query in the resolution. -/
def Query.index : Query → Nat
  | .userGroups => 0
  | .groups => 1
  | .userRoles => 2
  | .groupRoles => 3
  | .roles => 4
  | .rolePermissions => 5

/-- How far a call of `resolveFromDB` has got: the query it sends next and what it keeps for
the ones after it. -/
inductive Progress where
  | userGroups
  | groups (groupIDs : List String)
  | userRoles (allGroupIDs : List String)
  | groupRoles (allGroupIDs direct : List String)
  | roles (roleIDs : List String)
  | rolePermissions (roleIDs names : List String)
  | finished (resolved : Resolved)
  deriving DecidableEq, Repr

/-- The query the call sends next. -/
def Progress.query : Progress → Option Query
  | .userGroups => some .userGroups
  | .groups _ => some .groups
  | .userRoles _ => some .userRoles
  | .groupRoles _ _ => some .groupRoles
  | .roles _ => some .roles
  | .rolePermissions _ _ => some .rolePermissions
  | .finished _ => none

/-- What follows the collection of the role ids: without any, no query is left. -/
def Progress.ofRoleIDs (userID : String) (roleIDs : List String) : Progress :=
  if roleIDs = [] then .finished ⟨userID, [], []⟩ else .roles roleIDs

/-- Sends the next query and goes on to the one after it. A user without groups needs
neither the groups nor their roles. -/
def Progress.advance (t : Tables) (userID : String) : Progress → Progress
  | .userGroups =>
      let groupIDs := userGroupIDs t userID
      if groupIDs = [] then .userRoles [] else .groups groupIDs
  | .groups groupIDs => .userRoles (expandAncestorGroups t groupIDs)
  | .userRoles allGroupIDs =>
      let direct := directRoleIDs t userID
      if allGroupIDs = [] then .ofRoleIDs userID (roleIDSet direct [])
      else .groupRoles allGroupIDs direct
  | .groupRoles allGroupIDs direct =>
      .ofRoleIDs userID (roleIDSet direct (groupRoleIDs t allGroupIDs))
  | .roles roleIDs => .rolePermissions roleIDs (roleNames t roleIDs)
  | .rolePermissions roleIDs names => .finished ⟨userID, names, permissionsFor t roleIDs⟩
  | .finished resolved => .finished resolved

/-! ### Steps and the whole -/

/-- The groups of the user and their ancestors, in a view. -/
def allGroupIDs (view : View) (userID : String) : List String :=
  expandAncestorGroups (view .groups) (userGroupIDs (view .userGroups) userID)

/-- What the call keeps is what `resolveFromDB` has at that point in the view. -/
def Progress.AgreesWith (view : View) (userID : String) : Progress → Prop
  | .userGroups => True
  | .groups groupIDs => groupIDs = userGroupIDs (view .userGroups) userID
  | .userRoles groupIDs => groupIDs = allGroupIDs view userID
  | .groupRoles groupIDs direct =>
      groupIDs = allGroupIDs view userID ∧ direct = directRoleIDs (view .userRoles) userID
  | .roles roleIDs => roleIDs = resolvedRoleIDs view userID
  | .rolePermissions roleIDs names =>
      roleIDs = resolvedRoleIDs view userID ∧ names = roleNames (view .roles) roleIDs
  | .finished resolved => resolved = resolveFromDB view userID

/-- Without groups the group queries are not needed. -/
theorem allGroupIDs_eq_nil {view : View} {userID : String}
    (h : userGroupIDs (view .userGroups) userID = []) : allGroupIDs view userID = [] := by
  rw [allGroupIDs, h, expandAncestorGroups, if_pos rfl]

/-- Without role ids the result is empty. -/
theorem agreesWith_ofRoleIDs {view : View} {userID : String} {roleIDs : List String}
    (h : roleIDs = resolvedRoleIDs view userID) :
    (Progress.ofRoleIDs userID roleIDs).AgreesWith view userID := by
  rw [Progress.ofRoleIDs]
  split
  · next hnil =>
      change _ = (⟨userID, roleNames (view .roles) (resolvedRoleIDs view userID),
        permissionsFor (view .rolePermissions) (resolvedRoleIDs view userID)⟩ : Resolved)
      rw [← h, hnil, roleNames, permissionsFor, if_pos rfl, if_pos rfl]
  · exact h

/-- **One query** of the call is one query of the whole, in the state it runs in. -/
theorem Progress.AgreesWith.advance {view : View} {userID : String} {p : Progress} {q : Query}
    (h : p.AgreesWith view userID) (hq : p.query = some q) (view' : View)
    (hbefore : ∀ q', q'.index < q.index → view' q' = view q') :
    (p.advance (view' q) userID).AgreesWith view' userID := by
  cases p with
  | userGroups =>
      obtain rfl : Query.userGroups = q := Option.some.inj hq
      rw [Progress.advance]
      split
      · next hnil => exact (allGroupIDs_eq_nil hnil).symm
      · rfl
  | groups groupIDs =>
      obtain rfl : Query.groups = q := Option.some.inj hq
      have hgroups : groupIDs = userGroupIDs (view' .userGroups) userID := by
        rw [hbefore .userGroups (by decide)]
        exact h
      rw [Progress.advance, hgroups]
      rfl
  | userRoles groupIDs =>
      obtain rfl : Query.userRoles = q := Option.some.inj hq
      have hall : groupIDs = allGroupIDs view' userID := by
        rw [allGroupIDs, hbefore .userGroups (by decide), hbefore .groups (by decide)]
        exact h
      rw [Progress.advance]
      split
      · next hnil =>
          refine agreesWith_ofRoleIDs ?_
          change _ = roleIDSet (directRoleIDs (view' .userRoles) userID)
            (groupRoleIDs (view' .groupRoles) (allGroupIDs view' userID))
          rw [← hall, hnil, groupRoleIDs, if_pos rfl]
      · exact ⟨hall, rfl⟩
  | groupRoles groupIDs direct =>
      obtain rfl : Query.groupRoles = q := Option.some.inj hq
      obtain ⟨hgroups, hdirect⟩ := h
      have hall : groupIDs = allGroupIDs view' userID := by
        rw [allGroupIDs, hbefore .userGroups (by decide), hbefore .groups (by decide)]
        exact hgroups
      refine agreesWith_ofRoleIDs ?_
      rw [hall, hdirect, ← hbefore .userRoles (by decide)]
      rfl
  | roles roleIDs =>
      obtain rfl : Query.roles = q := Option.some.inj hq
      refine ⟨?_, rfl⟩
      have hids : roleIDs = resolvedRoleIDs view userID := h
      rw [hids, resolvedRoleIDs, resolvedRoleIDs, roleIDsFor, roleIDsFor,
        hbefore .userGroups (by decide), hbefore .groups (by decide),
        hbefore .userRoles (by decide), hbefore .groupRoles (by decide)]
  | rolePermissions roleIDs names =>
      obtain rfl : Query.rolePermissions = q := Option.some.inj hq
      obtain ⟨hids, hnames⟩ := h
      have hids' : roleIDs = resolvedRoleIDs view' userID := by
        rw [hids, resolvedRoleIDs, resolvedRoleIDs, roleIDsFor, roleIDsFor,
          hbefore .userGroups (by decide), hbefore .groups (by decide),
          hbefore .userRoles (by decide), hbefore .groupRoles (by decide)]
      change (⟨_, _, _⟩ : Resolved) = ⟨userID,
        roleNames (view' .roles) (resolvedRoleIDs view' userID),
        permissionsFor (view' .rolePermissions) (resolvedRoleIDs view' userID)⟩
      rw [hnames, ← hids', hbefore .roles (by decide)]
  | finished resolved => simp [Progress.query] at hq

/-! ### Interleaving -/

/-- A step of the interleaving: the next query of the resolution, or a write by `Admin`. -/
inductive Event where
  | query
  | write (w : Write)
  deriving DecidableEq, Repr

/-- What an event does to the tables; a refused statement leaves them. -/
def applyEvent (driver : DBDriver) (t : Tables) : Event → Tables
  | .query => t
  | .write w => (exec driver t w).getD t

/-- The tables after a list of events. -/
def tablesAfter (driver : DBDriver) (t : Tables) (es : List Event) : Tables :=
  es.foldl (applyEvent driver) t

/-- A resolution in progress over tables that change. -/
structure Resolving where
  tables : Tables
  progress : Progress
  deriving DecidableEq, Repr

/-- One event; the call is over once it has finished. -/
def resolvingStep (driver : DBDriver) (userID : String) (s : Resolving) (e : Event) :
    Option Resolving :=
  match e, s.progress with
  | .query, .finished _ => none
  | .query, p => some { s with progress := p.advance s.tables userID }
  | .write w, _ => some { s with tables := applyEvent driver s.tables (.write w) }

section Interleaving

variable {driver : DBDriver} {userID : String} {t₀ : Tables}

/-- A query event advances the call in the tables it finds. -/
theorem resolvingStep_query {s s' : Resolving}
    (h : resolvingStep driver userID s .query = some s') :
    ∃ q, s.progress.query = some q ∧ s' = ⟨s.tables, s.progress.advance s.tables userID⟩ := by
  obtain ⟨t, p⟩ := s
  cases p <;> simp_all [resolvingStep, Progress.query]

/-- The times at which the queries of a call ran: query events, in order, such that what the
call keeps comes from the tables at these times. -/
structure RunTimes (driver : DBDriver) (userID : String) (t₀ : Tables) (es : List Event)
    (p : Progress) (time : Query → Nat) : Prop where
  ordered : ∀ q q', q.index ≤ q'.index → time q ≤ time q'
  bounded : ∀ q, time q ≤ es.length
  ran : ∀ q, (∀ q', p.query = some q' → q.index < q'.index) → es[time q]? = some .query
  agrees : p.AgreesWith (fun q => tablesAfter driver t₀ (es.take (time q))) userID

/-- **The run lemma.** Every state of a run has its query times. -/
theorem exists_runTimes {es : List Event} {s : Resolving}
    (h : run (resolvingStep driver userID) ⟨t₀, .userGroups⟩ es = some s) :
    s.tables = tablesAfter driver t₀ es ∧
      ∃ time, RunTimes driver userID t₀ es s.progress time := by
  induction es using List.reverseRecOn generalizing s with
  | nil =>
      rw [run_nil, Option.some.injEq] at h
      subst h
      refine ⟨rfl, fun _ => 0, fun _ _ _ => Nat.le_refl _, fun _ => Nat.le_refl _, ?_, trivial⟩
      intro q hq
      have := hq .userGroups rfl
      simp [Query.index] at this
  | append_singleton es e ih =>
      rw [run_append, Option.bind_eq_some_iff] at h
      obtain ⟨s₁, hrun, hstep⟩ := h
      rw [run_cons_eq_some] at hstep
      obtain ⟨s', hstep, hnil⟩ := hstep
      obtain rfl : s' = s := Option.some.inj hnil
      obtain ⟨htables, time, htime⟩ := ih hrun
      have htake : ∀ q, (es ++ [e]).take (time q) = es.take (time q) := fun q =>
        List.take_append_of_le_length (htime.bounded q)
      cases e with
      | write w =>
          obtain rfl : (⟨applyEvent driver s₁.tables (.write w), s₁.progress⟩ : Resolving) = s' :=
            Option.some.inj hstep
          refine ⟨?_, time, htime.ordered, fun q => ?_, fun q hq => ?_, ?_⟩
          · simp [tablesAfter, htables]
          · have := htime.bounded q
            simp only [List.length_append, List.length_singleton]
            omega
          · exact List.getElem?_append_left (List.getElem?_eq_some_iff.mp (htime.ran q hq)).1 ▸
              htime.ran q hq
          · simpa only [htake] using htime.agrees
      | query =>
          obtain ⟨q₀, hq₀, rfl⟩ := resolvingStep_query hstep
          refine ⟨?_, fun q => if q.index < q₀.index then time q else es.length, ?_, ?_, ?_, ?_⟩
          · simp [tablesAfter, htables, applyEvent]
          · intro q q' hle
            have hb := htime.bounded q
            by_cases hlt' : q'.index < q₀.index
            · simpa [hlt', Nat.lt_of_le_of_lt hle hlt'] using htime.ordered q q' hle
            · simp only [hlt', if_false]
              split <;> omega
          · intro q
            have := htime.bounded q
            simp only [List.length_append, List.length_singleton]
            split <;> omega
          · intro q hq
            by_cases hlt : q.index < q₀.index
            · have hran := htime.ran q fun q' hq' => by
                rw [hq₀, Option.some.injEq] at hq'
                exact hq' ▸ hlt
              simp only [hlt, if_true]
              rw [List.getElem?_append_left (List.getElem?_eq_some_iff.mp hran).1, hran]
            · simp [hlt]
          · have hview := htime.agrees.advance hq₀
              (fun q => tablesAfter driver t₀
                ((es ++ [Event.query]).take (if q.index < q₀.index then time q else es.length)))
              (fun q' hlt => by simp only [hlt, if_true, htake])
            simpa [htables] using hview

/-- What every event between two times preserves holds between the tables at these
times. -/
theorem tablesAfter_rel {R : Tables → Tables → Prop} (hrefl : ∀ t, R t t)
    (htrans : ∀ {t t' t''}, R t t' → R t' t'' → R t t'') {es : List Event} {a b : Nat}
    (hab : a ≤ b)
    (hstep : ∀ j e, a ≤ j → j < b → es[j]? = some e → ∀ t, R t (applyEvent driver t e)) :
    R (tablesAfter driver t₀ (es.take a)) (tablesAfter driver t₀ (es.take b)) := by
  induction b, hab using Nat.le_induction with
  | base => exact hrefl _
  | succ b hab ih =>
      have hprev := ih fun j e hj hjb => hstep j e hj (Nat.lt_succ_of_lt hjb)
      rw [List.take_add_one]
      cases he : es[b]? with
      | none => simpa using hprev
      | some e =>
          refine htrans hprev ?_
          have := hstep b e hab (Nat.lt_succ_self b) he (tablesAfter driver t₀ (es.take b))
          simpa [tablesAfter] using this

/-- The resolution of an interleaving, written with its query times. -/
theorem exists_times {es : List Event} {t : Tables} {resolved : Resolved}
    (h : run (resolvingStep driver userID) ⟨t₀, .userGroups⟩ es = some ⟨t, .finished resolved⟩) :
    ∃ time : Query → Nat, (∀ q q', q.index ≤ q'.index → time q ≤ time q') ∧
      (∀ q, es[time q]? = some .query) ∧
      resolved = resolveFromDB (fun q => tablesAfter driver t₀ (es.take (time q))) userID := by
  obtain ⟨-, time, htime⟩ := exists_runTimes h
  exact ⟨time, htime.ordered, fun q => htime.ran q (by simp [Progress.query]), htime.agrees⟩

end Interleaving

/-- The event lies between the first and the last query of the run. -/
def BetweenQueries (es : List Event) (j : Nat) : Prop :=
  ∃ i k, i < j ∧ j < k ∧ es[i]? = some Event.query ∧ es[k]? = some Event.query

/-- A user in one group, and a role with a permission that nobody has. -/
def unassignedTables : Tables where
  users := ["u"]
  groups := [⟨"g", "Team", none⟩]
  userGroups := [("u", "g")]
  roles := [⟨"r", "admin"⟩]
  permissions := [⟨"p", "users", "manage"⟩]
  rolePermissions := [("r", "p")]
  groupRoles := []
  userRoles := []

/-- After the memberships are read, the user leaves the group, and only then is the role
assigned to the group. -/
def leaveThenAssign : List Event :=
  [.query, .write (.removeUserFromGroup "u" "g"), .write (.assignRoleToGroup "g" "r"),
    .query, .query, .query, .query, .query]

/-- What the interleaving above returns. -/
theorem run_leaveThenAssign :
    run (resolvingStep .postgres "u") ⟨unassignedTables, .userGroups⟩ leaveThenAssign =
      some ⟨tablesAfter .postgres unassignedTables leaveThenAssign,
        .finished ⟨"u", ["admin"], [⟨"users", "manage"⟩]⟩⟩ := by
  decide

end IdpForge
