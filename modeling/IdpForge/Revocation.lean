import IdpForge.PartialMap
import IdpForge.ResolutionSteps

/-!
# Revocation and the Cached Resolution

Concurrent calls of `Resolve` and concurrent writes of `Admin`, one cache operation, query or
statement at a time. A call looks its user up in the cache and on a miss resolves from the
database and stores the result; a write executes its statement and then drops the cached
resolutions it may have changed. The two halves of a write are separate steps, and so are
the reading and the storing of a call, so a call can store a result it computed before a
statement after the write's invalidation has been through.

The state keeps the tables of every version, the version each finished write left behind and
the answers given, so that what an answer owes to the writes before it can be said.

## Main results

* `inv_step`: one step keeps cached, computed and returned permissions held, as long as the
  guard `Undisturbed` admits it.
* `answers_truthful_of_undisturbed`: in a run of such steps every answer contains only
  permissions held since the last write that had returned when the call began.
* `revoked_permission_returned`: a run in which a call returns what had been revoked.
-/

open TransitionSystem

namespace IdpForge

/-- Where a call of `Resolve` stands. -/
inductive Phase where
  | lookup
  | querying (progress : Progress)
  | storing (resolved : Resolved)
  deriving DecidableEq, Repr

/-- The phase that follows a query. -/
def Phase.ofProgress : Progress → Phase
  | .finished resolved => .storing resolved
  | p => .querying p

/-- A running call of `Resolve`, and the version that the writes returned before it have left
behind. -/
structure Call where
  userID : String
  phase : Phase
  since : Nat
  deriving DecidableEq, Repr

/-- An answer of `Resolve`, with the version it was given in. -/
structure Answer where
  userID : String
  since : Nat
  version : Nat
  resolved : Resolved
  deriving DecidableEq, Repr

/-- A write whose statement has been executed, with the version it left behind. -/
structure Pending where
  write : Write
  version : Nat
  deriving DecidableEq, Repr

/-- Cache, tables and running calls. `tablesAt` keeps the tables of every version up to
`version`; `since` is the last version a returned revoking write left behind, and `owed`
are the invalidations of executed revoking statements that no successful invalidation has
made good yet. -/
structure RevocationState where
  version : Nat
  tablesAt : Nat → Tables
  cache : String → Option Resolved
  calls : Nat → Option Call
  writes : Nat → Option Pending
  since : Nat
  owed : List Invalidation
  answers : List Answer

/-- The tables as they are. -/
def RevocationState.tables (s : RevocationState) : Tables := s.tablesAt s.version

/-- One cache operation, query or statement. The flags tell whether the operation succeeds;
a lookup that fails or returns what cannot be decoded counts as a miss. -/
inductive RevocationAction where
  | call (id : Nat) (userID : String)
  | lookup (id : Nat) (ok : Bool)
  | query (id : Nat) (ok : Bool)
  | store (id : Nat) (ok : Bool)
  | expire (userID : String)
  | statement (id : Nat) (w : Write)
  | invalidate (id : Nat) (ok : Bool)
  deriving DecidableEq, Repr

/-- An invalidation makes the other good: it drops everything the other would. -/
def Invalidation.makesGood : Invalidation → Invalidation → Bool
  | .all, _ => true
  | .user u, .user u' => u = u'
  | _, .nobody => true
  | _, _ => false

/-- The call returns `resolved`. -/
def RevocationState.answer (s : RevocationState) (id : Nat) (call : Call)
    (resolved : Resolved) : RevocationState :=
  { s with
    calls := Function.update s.calls id none
    answers := ⟨call.userID, call.since, s.version, resolved⟩ :: s.answers }

/-- `Get` of the call, and its return on a hit. -/
def lookupStep (s : RevocationState) (id : Nat) (ok : Bool) : Option RevocationState :=
  match s.calls id with
  | some ⟨userID, .lookup, since⟩ =>
      match ok, s.cache userID with
      | true, some resolved => some (s.answer id ⟨userID, .lookup, since⟩ resolved)
      | _, _ => some { s with
          calls := Function.update s.calls id (some ⟨userID, .querying .userGroups, since⟩) }
  | _ => none

/-- The next query of the call; when it fails, the call returns the error. -/
def queryStep (s : RevocationState) (id : Nat) (ok : Bool) : Option RevocationState :=
  match s.calls id with
  | some ⟨userID, .querying p, since⟩ =>
      if ok then
        some { s with
          calls := Function.update s.calls id
            (some ⟨userID, .ofProgress (p.advance s.tables userID), since⟩) }
      else some { s with calls := Function.update s.calls id none }
  | _ => none

/-- `Set` of the call, whose error is dropped, and its return. -/
def storeStep (s : RevocationState) (id : Nat) (ok : Bool) : Option RevocationState :=
  match s.calls id with
  | some ⟨userID, .storing resolved, since⟩ =>
      let s' := s.answer id ⟨userID, .storing resolved, since⟩ resolved
      some (if ok then
        { s' with cache := Function.update s.cache userID (some resolved) } else s')
  | _ => none

/-- The statement of a write; a refused one makes the write return the error. A write that
invalidates nothing returns at once. -/
def statementStep (driver : DBDriver) (s : RevocationState) (id : Nat) (w : Write) :
    Option RevocationState :=
  match s.writes id, exec driver s.tables w with
  | some _, _ => none
  | none, none => some s
  | none, some t =>
      some { s with
        version := s.version + 1
        tablesAt := Function.update s.tablesAt (s.version + 1) t
        writes := if w.invalidates = .nobody then s.writes
          else Function.update s.writes id (some ⟨w, s.version + 1⟩)
        owed := if w.revokes then w.invalidates :: s.owed else s.owed }

/-- `Delete` or `DeletePrefix` at the end of a write, which returns its error. -/
def invalidateStep (s : RevocationState) (id : Nat) (ok : Bool) : Option RevocationState :=
  match s.writes id with
  | none => none
  | some pending =>
      let s' := { s with writes := Function.update s.writes id none }
      some (if ok then
        { s' with
          cache := fun u => if pending.write.invalidates.covers u then none else s.cache u
          owed := s.owed.filter fun i => !pending.write.invalidates.makesGood i
          since := if pending.write.revokes then max s.since pending.version else s.since }
      else s')

/-- The step function. -/
def revocationStep (driver : DBDriver) (s : RevocationState) :
    RevocationAction → Option RevocationState
  | .call id userID =>
      match s.calls id with
      | none => some { s with
          calls := Function.update s.calls id (some ⟨userID, .lookup, s.since⟩) }
      | some _ => none
  | .lookup id ok => lookupStep s id ok
  | .query id ok => queryStep s id ok
  | .store id ok => storeStep s id ok
  | .expire userID => some { s with cache := Function.update s.cache userID none }
  | .statement id w => statementStep driver s id w
  | .invalidate id ok => invalidateStep s id ok

/-- Before any call: the tables of a database and an empty cache. -/
def RevocationState.start (t : Tables) : RevocationState where
  version := 0
  tablesAt := fun _ => t
  cache := fun _ => none
  calls := fun _ => none
  writes := fun _ => none
  since := 0
  owed := []
  answers := []

/-! ### What an answer owes -/

/-- Every permission of the answer was held in some state from the one that the last
returned revoking write left behind up to the one the answer was given in. -/
def Answer.Truthful (s : RevocationState) (a : Answer) : Prop :=
  ∀ p ∈ a.resolved.permissions, ∃ k, a.since ≤ k ∧ k ≤ a.version ∧ Holds (s.tablesAt k) a.userID p

/-- The call has sent its first query and has not stored its result. -/
def Phase.Midway : Phase → Prop
  | .lookup => False
  | .querying p => p ≠ .userGroups
  | .storing _ => True

/-- The step does not disturb a resolution: no revoking statement runs while a call is
midway for a user whose access the write may change, no statement leaves a reference to a
missing row, and a revoking write returns only when its invalidation makes every owed one
good. -/
def Undisturbed (driver : DBDriver) (s : RevocationState) : RevocationAction → Prop
  | .statement _ w =>
      (w.revokes = true → ∀ id call, s.calls id = some call →
          w.invalidates.covers call.userID = true → ¬ call.phase.Midway) ∧
        ∀ t, exec driver s.tables w = some t → t.Referring
  | .invalidate id true =>
      ∀ pending, s.writes id = some pending → pending.write.revokes = true →
        ∀ i ∈ s.owed, pending.write.invalidates.makesGood i = true
  | _ => True

/-! ### What a call keeps is backed -/

/-- What the call keeps is backed by the rows of one state. -/
def Progress.Sound (t : Tables) (userID : String) : Progress → Prop
  | .userGroups => True
  | .groups groupIDs => ∀ g ∈ groupIDs, (userID, g) ∈ t.userGroups
  | .userRoles groupIDs => ∀ g' ∈ groupIDs, ∃ g, (userID, g) ∈ t.userGroups ∧ InGroup t g g'
  | .groupRoles groupIDs direct =>
      (∀ g' ∈ groupIDs, ∃ g, (userID, g) ∈ t.userGroups ∧ InGroup t g g') ∧
        ∀ r ∈ direct, (userID, r) ∈ t.userRoles
  | .roles roleIDs => ∀ r ∈ roleIDs, Assigned t userID r
  | .rolePermissions roleIDs _ => ∀ r ∈ roleIDs, Assigned t userID r
  | .finished resolved =>
      ∀ p ∈ resolved.permissions, ∃ r, Assigned t userID r ∧ Grants t r p

/-- What the phase keeps is backed. -/
def Phase.Sound (t : Tables) (userID : String) : Phase → Prop
  | .lookup => True
  | .querying p => p.Sound t userID
  | .storing resolved => (Progress.finished resolved).Sound t userID

section Sound

variable {t t' : Tables} {userID : String}

/-- Assigned roles are backed. -/
theorem sound_ofRoleIDs {roleIDs : List String} (h : ∀ r ∈ roleIDs, Assigned t userID r) :
    (Progress.ofRoleIDs userID roleIDs).Sound t userID := by
  rw [Progress.ofRoleIDs]
  split
  · simp [Progress.Sound]
  · exact h

/-- A query keeps what it adds backed. -/
theorem Progress.Sound.advance {p : Progress} (h : p.Sound t userID) :
    (p.advance t userID).Sound t userID := by
  have hassigned : ∀ groupIDs direct : List String,
      (∀ g' ∈ groupIDs, ∃ g, (userID, g) ∈ t.userGroups ∧ InGroup t g g') →
      (∀ r ∈ direct, (userID, r) ∈ t.userRoles) →
      ∀ r ∈ roleIDSet direct (groupRoleIDs t groupIDs), Assigned t userID r := by
    intro groupIDs direct hgroups hdirect r hr
    rw [mem_roleIDSet, mem_groupRoleIDs] at hr
    rcases hr with hr | ⟨g', hg', hrole⟩
    · exact Or.inl (hdirect r hr)
    · obtain ⟨g, hg, hin⟩ := hgroups g' hg'
      exact Or.inr ⟨g, hg, g', hin, hrole⟩
  cases p with
  | userGroups =>
      rw [Progress.advance]
      split
      · simp [Progress.Sound]
      · exact fun g hg => mem_userGroupIDs.mp hg
  | groups groupIDs =>
      intro g' hg'
      obtain ⟨g, hg, hin⟩ := inGroup_of_mem_expand hg'
      exact ⟨g, h g hg, hin⟩
  | userRoles groupIDs =>
      have hdirect : ∀ r ∈ directRoleIDs t userID, (userID, r) ∈ t.userRoles :=
        fun r hr => mem_directRoleIDs.mp hr
      rw [Progress.advance]
      split
      · exact sound_ofRoleIDs (hassigned [] _ (by simp) hdirect)
      · exact ⟨h, hdirect⟩
  | groupRoles groupIDs direct => exact sound_ofRoleIDs (hassigned _ _ h.1 h.2)
  | roles roleIDs => exact h
  | rolePermissions roleIDs names =>
      intro p hp
      obtain ⟨r, hr, hgrants⟩ := mem_permissionsFor.mp hp
      exact ⟨r, h r hr, hgrants⟩
  | finished resolved => exact h

/-- What is backed stays backed while the rows stay. -/
theorem Progress.Sound.keeps {p : Progress} (h : p.Sound t userID) (hk : t.Keeps t' userID) :
    p.Sound t' userID := by
  have hgroups : ∀ {groupIDs : List String},
      (∀ g' ∈ groupIDs, ∃ g, (userID, g) ∈ t.userGroups ∧ InGroup t g g') →
      ∀ g' ∈ groupIDs, ∃ g, (userID, g) ∈ t'.userGroups ∧ InGroup t' g g' := by
    intro groupIDs h g' hg'
    obtain ⟨g, hg, hin⟩ := h g' hg'
    exact ⟨g, hk.userGroups g hg, hk.inGroup hin⟩
  cases p with
  | userGroups => trivial
  | groups groupIDs => exact fun g hg => hk.userGroups g (h g hg)
  | userRoles groupIDs => exact hgroups h
  | groupRoles groupIDs direct => exact ⟨hgroups h.1, fun r hr => hk.userRoles r (h.2 r hr)⟩
  | roles roleIDs => exact fun r hr => hk.assigned (h r hr)
  | rolePermissions roleIDs names => exact fun r hr => hk.assigned (h r hr)
  | finished resolved =>
      intro p hp
      obtain ⟨r, hassigned, hgrants⟩ := h p hp
      exact ⟨r, hk.assigned hassigned, hk.grants hgrants⟩

/-- The same for a phase. -/
theorem Phase.Sound.keeps {phase : Phase} (h : phase.Sound t userID)
    (hk : t.Keeps t' userID) : phase.Sound t' userID := by
  cases phase with
  | lookup => trivial
  | querying p => exact Progress.Sound.keeps h hk
  | storing resolved => exact Progress.Sound.keeps (p := .finished resolved) h hk

/-- A call that is not midway keeps nothing. -/
theorem Phase.sound_of_not_midway {phase : Phase} (h : ¬ phase.Midway) :
    phase.Sound t userID := by
  cases phase with
  | lookup => trivial
  | querying p =>
      obtain rfl : p = .userGroups := not_not.mp h
      trivial
  | storing resolved => exact absurd trivial h

/-- The phase after a query is backed when its progress is. -/
theorem sound_ofProgress {p : Progress} (h : p.Sound t userID) :
    (Phase.ofProgress p).Sound t userID := by
  cases p <;> exact h

/-- What rows give is held, since assigned roles exist. -/
theorem holds_of_backed (href : t.Referring) {p : Permission}
    (h : ∃ r, Assigned t userID r ∧ Grants t r p) : Holds t userID p := by
  obtain ⟨r, hassigned, hgrants⟩ := h
  have hrole : r ∈ t.roleIDs := by
    rcases hassigned with hdirect | ⟨_, -, _, -, hrole⟩
    · exact (href.userRoles _ hdirect).2
    · exact (href.groupRoles _ hrole).2
  obtain ⟨role, hmem, rfl⟩ := List.mem_map.mp hrole
  exact ⟨role, hmem, hassigned, hgrants⟩

end Sound

/-! ### The invariant -/

/-- A cached permission was held since the last returned revoking write, and is held now
unless an owed invalidation covers its user. -/
structure CachedFresh (s : RevocationState) (userID : String) (p : Permission) : Prop where
  since : ∃ k, s.since ≤ k ∧ k ≤ s.version ∧ Holds (s.tablesAt k) userID p
  now : Holds s.tables userID p ∨ ∃ i ∈ s.owed, i.covers userID = true

/-- The invariant of undisturbed runs. -/
structure Inv (s : RevocationState) : Prop where
  since_le : s.since ≤ s.version
  pending_le : ∀ id pending, s.writes id = some pending → pending.version ≤ s.version
  referring : s.tables.Referring
  cached : ∀ u r, s.cache u = some r → ∀ p ∈ r.permissions, CachedFresh s u p
  calls : ∀ id call, s.calls id = some call →
    call.since ≤ s.since ∧ call.phase.Sound s.tables call.userID
  answers : ∀ a ∈ s.answers, a.version ≤ s.version ∧ a.Truthful s

section Steps

variable {driver : DBDriver} {s s' : RevocationState}

/-- A fresh database is a start. -/
theorem inv_start (db : Database) : Inv (RevocationState.start db.tables) where
  since_le := Nat.le_refl _
  pending_le := by simp [RevocationState.start]
  referring := db.referring
  cached := by simp [RevocationState.start]
  calls := by simp [RevocationState.start]
  answers := by simp [RevocationState.start]

/-- A call moves to another phase, or ends. -/
theorem Inv.setCall (h : Inv s) (id : Nat) (call? : Option Call)
    (hcall : ∀ call, call? = some call →
      call.since ≤ s.since ∧ call.phase.Sound s.tables call.userID) :
    Inv { s with calls := Function.update s.calls id call? } where
  since_le := h.since_le
  pending_le := h.pending_le
  referring := h.referring
  cached := fun u r hr p hp => ⟨(h.cached u r hr p hp).since, (h.cached u r hr p hp).now⟩
  calls := fun id' call hc => by
    rcases PartialMap.update_eq_some_iff.mp hc with ⟨-, hc⟩ | ⟨-, hc⟩
    · exact hcall call hc
    · exact h.calls id' call hc
  answers := h.answers

/-- A call returns what was held since its begin. -/
theorem Inv.answer (h : Inv s) (id : Nat) (call : Call) {resolved : Resolved}
    (hheld : ∀ p ∈ resolved.permissions, ∃ k, call.since ≤ k ∧ k ≤ s.version ∧
      Holds (s.tablesAt k) call.userID p) : Inv (s.answer id call resolved) :=
  { h.setCall id none (by simp) with
    cached := fun u r hr p hp => ⟨(h.cached u r hr p hp).since, (h.cached u r hr p hp).now⟩
    answers := fun a ha => by
      rcases List.mem_cons.mp ha with rfl | ha
      · exact ⟨Nat.le_refl _, hheld⟩
      · exact h.answers a ha }

/-- The lookup. -/
theorem inv_lookup {id : Nat} {ok : Bool} (h : Inv s) (hstep : lookupStep s id ok = some s') :
    Inv s' := by
  rw [lookupStep] at hstep
  split at hstep
  · next userID since hcall =>
      obtain ⟨hsince, -⟩ := h.calls id _ hcall
      split at hstep
      · next resolved hhit =>
          obtain rfl := Option.some.inj hstep
          refine h.answer id _ fun p hp => ?_
          obtain ⟨k, hk, hkv, hholds⟩ := (h.cached userID resolved hhit p hp).since
          exact ⟨k, Nat.le_trans hsince hk, hkv, hholds⟩
      · obtain rfl := Option.some.inj hstep
        refine h.setCall id _ fun call hc => ?_
        obtain rfl := Option.some.inj hc
        exact ⟨hsince, trivial⟩
  · simp at hstep

/-- A query. -/
theorem inv_query {id : Nat} {ok : Bool} (h : Inv s) (hstep : queryStep s id ok = some s') :
    Inv s' := by
  rw [queryStep] at hstep
  split at hstep
  · next userID p since hcall =>
      obtain ⟨hsince, hsound⟩ := h.calls id _ hcall
      split at hstep
      · obtain rfl := Option.some.inj hstep
        refine h.setCall id _ fun call hc => ?_
        obtain rfl := Option.some.inj hc
        exact ⟨hsince, sound_ofProgress (Progress.Sound.advance hsound)⟩
      · obtain rfl := Option.some.inj hstep
        exact h.setCall id _ (by simp)
  · simp at hstep

/-- The storing of the result. -/
theorem inv_store {id : Nat} {ok : Bool} (h : Inv s) (hstep : storeStep s id ok = some s') :
    Inv s' := by
  rw [storeStep] at hstep
  split at hstep
  · next userID resolved since hcall =>
      obtain ⟨hsince, hsound⟩ := h.calls id _ hcall
      have hholds : ∀ p ∈ resolved.permissions, Holds s.tables userID p := fun p hp =>
        holds_of_backed h.referring (hsound p hp)
      have hanswer := h.answer id ⟨userID, .storing resolved, since⟩
        fun p hp => ⟨s.version, Nat.le_trans hsince h.since_le, Nat.le_refl _, hholds p hp⟩
      obtain rfl := Option.some.inj hstep
      cases ok with
      | false => exact hanswer
      | true =>
          refine { hanswer with cached := fun u r hr p hp => ?_ }
          rcases PartialMap.update_eq_some_iff.mp hr with ⟨rfl, hnew⟩ | ⟨-, hold⟩
          · obtain rfl := Option.some.inj hnew
            exact ⟨⟨s.version, h.since_le, Nat.le_refl _, hholds p hp⟩, Or.inl (hholds p hp)⟩
          · exact ⟨(h.cached u r hold p hp).since, (h.cached u r hold p hp).now⟩
  · simp at hstep

/-- The statement of a write. -/
theorem inv_statement {id : Nat} {w : Write} (h : Inv s)
    (hguard : Undisturbed driver s (.statement id w))
    (hstep : statementStep driver s id w = some s') : Inv s' := by
  obtain ⟨hquiet, hrefs⟩ := hguard
  rw [statementStep] at hstep
  split at hstep
  · simp at hstep
  · exact Option.some.inj hstep ▸ h
  · next t hwrites hexec =>
      obtain rfl := Option.some.inj hstep
      have hold : ∀ k ≤ s.version, Function.update s.tablesAt (s.version + 1) t k = s.tablesAt k :=
        fun k hk => Function.update_of_ne (by omega) ..
      have hnew : Function.update s.tablesAt (s.version + 1) t (s.version + 1) = t :=
        Function.update_self ..
      refine ⟨?_, ?_, ?_, ?_, ?_, ?_⟩
      · exact Nat.le_succ_of_le h.since_le
      · intro id' pending hp
        by_cases hnobody : w.invalidates = .nobody
        · simp only [hnobody, if_true] at hp
          exact Nat.le_succ_of_le (h.pending_le id' pending hp)
        · simp only [hnobody, if_false] at hp
          rcases PartialMap.update_eq_some_iff.mp hp with ⟨-, hp⟩ | ⟨-, hp⟩
          · obtain rfl := Option.some.inj hp
            exact Nat.le_refl _
          · exact Nat.le_succ_of_le (h.pending_le id' pending hp)
      · simpa only [RevocationState.tables, hnew] using hrefs t hexec
      · intro u r hr p hp
        obtain ⟨⟨k, hk, hkv, hholds⟩, hnow⟩ := h.cached u r hr p hp
        refine ⟨⟨k, hk, Nat.le_succ_of_le hkv, ?_⟩, ?_⟩
        · simpa only [hold k hkv] using hholds
        · simp only [RevocationState.tables, hnew]
          rcases hnow with hnow | ⟨i, hi, hcov⟩
          · rcases keeps_or_covered hexec u with hkeeps | ⟨hrevokes, hcov⟩
            · exact Or.inl (hkeeps.holds hnow)
            · exact Or.inr ⟨w.invalidates, by simp [hrevokes], hcov⟩
          · refine Or.inr ⟨i, ?_, hcov⟩
            split
            · exact List.mem_cons_of_mem _ hi
            · exact hi
      · intro id' call hc
        obtain ⟨hsince, hsound⟩ := h.calls id' call hc
        refine ⟨hsince, ?_⟩
        simp only [RevocationState.tables, hnew]
        rcases keeps_or_covered hexec call.userID with hkeeps | ⟨hrevokes, hcov⟩
        · exact hsound.keeps hkeeps
        · exact Phase.sound_of_not_midway (hquiet hrevokes id' call hc hcov)
      · intro a ha
        obtain ⟨hversion, htruth⟩ := h.answers a ha
        refine ⟨Nat.le_succ_of_le hversion, fun p hp => ?_⟩
        obtain ⟨k, hk, hkv, hholds⟩ := htruth p hp
        refine ⟨k, hk, hkv, ?_⟩
        simpa only [hold k (Nat.le_trans hkv hversion)] using hholds

/-- Whoever an owed invalidation covers, the one that makes it good covers as well. -/
theorem Invalidation.covers_of_makesGood {i j : Invalidation} {u : String}
    (h : i.makesGood j = true) (hj : j.covers u = true) : i.covers u = true := by
  cases i <;> cases j <;> simp_all [Invalidation.makesGood, Invalidation.covers]

/-- The invalidation of a write. -/
theorem inv_invalidate {id : Nat} {ok : Bool} (h : Inv s)
    (hguard : Undisturbed driver s (.invalidate id ok))
    (hstep : invalidateStep s id ok = some s') : Inv s' := by
  rw [invalidateStep] at hstep
  split at hstep
  · simp at hstep
  · next pending hpending =>
      obtain rfl := Option.some.inj hstep
      have hwrites : ∀ id' p', Function.update s.writes id none id' = some p' →
          p'.version ≤ s.version := fun id' p' hp =>
        h.pending_le id' p' (PartialMap.of_update_none hp).2
      cases ok with
      | false =>
          exact { h with
            pending_le := hwrites
            cached := fun u r hr p hp =>
              ⟨(h.cached u r hr p hp).since, (h.cached u r hr p hp).now⟩ }
      | true =>
          have hsince : s.since ≤ if pending.write.revokes then max s.since pending.version
              else s.since := by
            split
            · exact Nat.le_max_left ..
            · exact Nat.le_refl _
          have hversion : (if pending.write.revokes then max s.since pending.version
              else s.since) ≤ s.version := by
            split
            · exact Nat.max_le.mpr ⟨h.since_le, h.pending_le id pending hpending⟩
            · exact h.since_le
          refine ⟨hversion, hwrites, h.referring, ?_, ?_, h.answers⟩
          · intro u r hr p hp
            simp only [if_true] at hr
            split at hr
            · simp at hr
            · next hcov =>
                obtain ⟨⟨k, hk, hkv, hholds⟩, hnow⟩ := h.cached u r hr p hp
                -- an owed invalidation that covers this user is not made good here
                have howed : ∀ i ∈ s.owed, i.covers u = true →
                    pending.write.invalidates.makesGood i = false := by
                  intro i hi hiu
                  rw [← Bool.not_eq_true]
                  exact fun hgood => hcov (Invalidation.covers_of_makesGood hgood hiu)
                have hnow' : Holds s.tables u p ∨ ∃ i ∈ s.owed.filter fun i =>
                    !pending.write.invalidates.makesGood i, i.covers u = true := by
                  refine hnow.imp_right ?_
                  rintro ⟨i, hi, hiu⟩
                  exact ⟨i, List.mem_filter.mpr ⟨hi, by simp [howed i hi hiu]⟩, hiu⟩
                refine ⟨?_, hnow'⟩
                cases hrev : pending.write.revokes with
                | false => exact ⟨k, by simpa [hrev] using hk, hkv, hholds⟩
                | true =>
                    rcases hnow with hnow | ⟨i, hi, hiu⟩
                    · exact ⟨s.version, by simpa [hrev] using hversion, Nat.le_refl _, hnow⟩
                    · have hgood := hguard pending hpending hrev i hi
                      simp [howed i hi hiu] at hgood
          · intro id' call hc
            obtain ⟨hcall, hsound⟩ := h.calls id' call hc
            exact ⟨Nat.le_trans hcall hsince, hsound⟩

/-- **The step lemma.** An undisturbed step keeps the invariant. -/
theorem inv_step {a : RevocationAction} (h : Inv s) (hguard : Undisturbed driver s a)
    (hstep : revocationStep driver s a = some s') : Inv s' := by
  cases a with
  | call id userID =>
      rw [revocationStep] at hstep
      split at hstep
      · obtain rfl := Option.some.inj hstep
        refine h.setCall id _ fun call hc => ?_
        obtain rfl := Option.some.inj hc
        exact ⟨Nat.le_refl _, trivial⟩
      · simp at hstep
  | lookup id ok => exact inv_lookup h hstep
  | query id ok => exact inv_query h hstep
  | store id ok => exact inv_store h hstep
  | expire userID =>
      obtain rfl := Option.some.inj hstep
      refine { h with cached := fun u r hr p hp => ?_ }
      have hcached := h.cached u r (PartialMap.of_update_none hr).2 p hp
      exact ⟨hcached.since, hcached.now⟩
  | statement id w => exact inv_statement h hguard hstep
  | invalidate id ok => exact inv_invalidate h hguard hstep

end Steps

/-- **Revocation in undisturbed runs.** In every state that a run of undisturbed steps
reaches, every answer given so far contains only permissions its user held in some state
since the last revoking write that had returned when the call began. -/
theorem answers_truthful_of_undisturbed (driver : DBDriver) (db : Database)
    (as : List RevocationAction) (s : RevocationState)
    (hguard : Guarded (revocationStep driver) (Undisturbed driver)
      (RevocationState.start db.tables) as)
    (hrun : run (revocationStep driver) (RevocationState.start db.tables) as = some s) :
    ∀ a ∈ s.answers, a.Truthful s := fun a ha =>
  ((guarded_run_invariant (P := Inv) (fun _ _ _ h hg hs => inv_step h hg hs) (inv_start db)
    hguard hrun).answers a ha).2

/-- A user with one directly assigned role that grants one permission. -/
def readerTables : Tables where
  users := ["u"]
  groups := []
  userGroups := []
  roles := [⟨"r", "reader"⟩]
  permissions := [⟨"p", "users", "read"⟩]
  rolePermissions := [("r", "p")]
  groupRoles := []
  userRoles := [("u", "r")]

/-- Those tables meet the constraints. -/
def readerDatabase : Database where
  tables := readerTables
  keyed := ⟨by decide, by decide, by decide⟩
  referring := ⟨by decide, by decide, by decide, by decide, by decide⟩

/-- The permission is revoked while nothing is resolved, and then the user is. -/
def revokeThenResolve : List RevocationAction :=
  [.statement 0 (.revokePermissionFromRole "r" "p"), .invalidate 0 true, .call 0 "u",
    .lookup 0 true, .query 0 true, .query 0 true, .query 0 true, .query 0 true, .store 0 true]

/-- That run is undisturbed, so its answer is truthful. -/
theorem answers_truthful_of_undisturbed_reader :
    ∃ s, run (revocationStep .postgres) (RevocationState.start readerDatabase.tables)
        revokeThenResolve = some s ∧ s.answers.length = 1 ∧ ∀ a ∈ s.answers, a.Truthful s := by
  have hguard : Guarded (revocationStep .postgres) (Undisturbed .postgres)
      (RevocationState.start readerDatabase.tables) revokeThenResolve := by
    refine ⟨⟨fun _ id call hc => by simp [RevocationState.start] at hc,
      fun t ht => exec_referring ht rfl readerDatabase.referring⟩, fun s₁ h₁ => ?_⟩
    obtain rfl := Option.some.inj h₁
    refine ⟨fun pending hp _ i hi => ?_, fun s₂ h₂ => ?_⟩
    · have hpending : some (⟨.revokePermissionFromRole "r" "p", 1⟩ : Pending) = some pending := hp
      obtain rfl := Option.some.inj hpending
      obtain rfl := List.mem_singleton.mp hi
      rfl
    · exact ⟨trivial, fun _ _ => ⟨trivial, fun _ _ => ⟨trivial, fun _ _ => ⟨trivial, fun _ _ =>
        ⟨trivial, fun _ _ => ⟨trivial, fun _ _ => ⟨trivial, fun _ _ => trivial⟩⟩⟩⟩⟩⟩⟩
  have hlength : (run (revocationStep .postgres) (RevocationState.start readerDatabase.tables)
      revokeThenResolve).map (·.answers.length) = some 1 := by decide
  obtain ⟨s, hs, hone⟩ := Option.map_eq_some_iff.mp hlength
  exact ⟨s, hs, hone, answers_truthful_of_undisturbed .postgres readerDatabase revokeThenResolve
    s hguard hs⟩

/-- A call resolves the user, the permission is revoked and the write returns, the call
stores its result, and a second call finds it. -/
def revokeWhileResolving : List RevocationAction :=
  [.call 0 "u", .lookup 0 true, .query 0 true, .query 0 true, .query 0 true, .query 0 true,
    .statement 0 (.revokePermissionFromRole "r" "p"), .invalidate 0 true, .store 0 true,
    .call 1 "u", .lookup 1 true]

/-- **A revoked permission can be returned.** A call that begins after the write has
returned answers with the permission that no state since the write has had. -/
theorem revoked_permission_returned :
    ¬ ∀ (driver : DBDriver) (db : Database) (as : List RevocationAction) (s : RevocationState),
      run (revocationStep driver) (RevocationState.start db.tables) as = some s →
        ∀ a ∈ s.answers, a.Truthful s := by
  intro h
  have hrun : (run (revocationStep .postgres) (RevocationState.start readerDatabase.tables)
      revokeWhileResolving).map (fun s => (s.answers.head?, (s.tablesAt 1).rolePermissions)) =
        some (some ⟨"u", 1, 1, ⟨"u", ["reader"], [⟨"users", "read"⟩]⟩⟩, []) := by
    decide
  obtain ⟨s, hs, hfinal⟩ := Option.map_eq_some_iff.mp hrun
  obtain ⟨hanswer, hgrants⟩ := Prod.mk.injEq .. ▸ hfinal
  have htruth := h .postgres readerDatabase revokeWhileResolving s hs _
    (List.mem_of_head? hanswer) ⟨"users", "read"⟩ (by decide)
  obtain ⟨k, hk, hkv, role, -, -, row, -, -, hgrant⟩ := htruth
  obtain rfl : k = 1 := Nat.le_antisymm hkv hk
  simp [hgrants] at hgrant

end IdpForge
