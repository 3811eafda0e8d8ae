import IdpForge.PartialMap
import IdpForge.TransitionSystem

/-!
# Leader Leases

`TryAcquire` claims a job with three statements and no transaction: it deletes the row of the
job if its lease is past the caller's reading of the clock, inserts a row of its own, whose
failure is ignored, and renews the row if it is its own. Any number of processes run any
number of calls, statement by statement in any order; a process has one call for a job at a
time, with a fixed duration for each job. A statement may fail, or execute and lose its
answer, and a process may stop in the middle of a call.

The row of a job bounds every lease granted for it: those of its holder end no later than the
row, and those of all others have ended by now.

## Main results

* `tryAcquire_alone_iff`: a call that runs alone gets the lease when it is free, its own or
  expired.
* `leaseInv_step`: the invariant about the rows.
* `leases_exclude`: no two holders have leases at one instant.
-/

open PartialMap TransitionSystem

namespace IdpForge

/-- A row of `leader_leases`, under its primary key `job_name`. -/
structure LeaseRow where
  holderID : String
  expiresAt : Int
  deriving DecidableEq, Repr

/-- The table `leader_leases`. -/
abbrev Leases := String → Option LeaseRow

/-- `DELETE ... WHERE job_name = job AND expires_at < now`. -/
def deleteExpired (leases : Leases) (job : String) (now : Int) : Leases :=
  match leases job with
  | some row => if row.expiresAt < now then Function.update leases job none else leases
  | none => leases

/-- `INSERT`, which the primary key rejects when the job has a row. -/
def insertLease (leases : Leases) (job : String) (row : LeaseRow) : Leases :=
  match leases job with
  | some _ => leases
  | none => Function.update leases job (some row)

/-- `UPDATE ... WHERE job_name = job AND holder_id = holder`. -/
def renewLease (leases : Leases) (job holder : String) (expiresAt : Int) : Leases :=
  match leases job with
  | some row =>
      if row.holderID = holder then Function.update leases job (some ⟨holder, expiresAt⟩)
      else leases
  | none => leases

/-- The rows the `UPDATE` affects; some databases do not count a row it leaves as it was. -/
def renewedRows (countsUnchanged : Bool) (leases : Leases) (job holder : String)
    (expiresAt : Int) : Nat :=
  match leases job with
  | some row =>
      if row.holderID = holder ∧ (countsUnchanged = true ∨ row.expiresAt ≠ expiresAt) then 1
      else 0
  | none => 0

/-- The durations the processes ask for, and the database. -/
structure LeaseConfig where
  duration : String → String → Int
  countsUnchanged : Bool

/-- Where a call of `TryAcquire` stands, with its reading of the clock. -/
inductive LeaseStage where
  | deleting (now : Int)
  | inserting (now : Int)
  | updating (now : Int)
  deriving DecidableEq, Repr

/-- The reading of the clock. -/
def LeaseStage.now : LeaseStage → Int
  | .deleting now => now
  | .inserting now => now
  | .updating now => now

/-- How a statement ends. -/
inductive StatementEnd where
  | done
  | failed
  /-- The statement is executed and its answer lost. -/
  | lost
  deriving DecidableEq, Repr

/-- The statement takes effect. -/
def StatementEnd.executes : StatementEnd → Bool
  | .failed => false
  | _ => true

/-- A call of `TryAcquire` that returned true, and when its last statement was executed. -/
structure GrantedLease where
  job : String
  holder : String
  expiresAt : Int
  grantedAt : Int
  deriving DecidableEq, Repr

/-- The clock, the table, the running calls by holder and job, and the calls that returned
true. -/
structure LeaseState where
  clock : Int
  leases : Leases
  calls : String × String → Option LeaseStage
  granted : List GrantedLease

/-- A call reads the clock, executes one of its statements or stops, or time passes. -/
inductive LeaseAction where
  | tryAcquire (holder job : String)
  | delete (holder job : String) (ending : StatementEnd)
  | insert (holder job : String) (ending : StatementEnd)
  | update (holder job : String) (ending : StatementEnd)
  | stop (holder job : String)
  | tick (d : Nat)
  deriving DecidableEq, Repr

/-- The call goes on, or returns. -/
def LeaseState.setCall (s : LeaseState) (holder job : String) (stage? : Option LeaseStage) :
    LeaseState :=
  { s with calls := Function.update s.calls (holder, job) stage? }

section Steps

variable (cfg : LeaseConfig) (s : LeaseState) (holder job : String)

/-- The reading of the clock at the beginning of a call. -/
def beginCall : Option LeaseState :=
  match s.calls (holder, job) with
  | some _ => none
  | none => some (s.setCall holder job (some (.deleting s.clock)))

/-- The `DELETE`; a call returns with its error. -/
def deleteStatement (ending : StatementEnd) : Option LeaseState :=
  match s.calls (holder, job) with
  | some (.deleting now) =>
      let s' := { s with
        leases := if ending.executes then deleteExpired s.leases job now else s.leases }
      let next := if ending = StatementEnd.done then some (LeaseStage.inserting now) else none
      some (s'.setCall holder job next)
  | _ => none

/-- The `INSERT`, whose error is ignored. -/
def insertStatement (ending : StatementEnd) : Option LeaseState :=
  match s.calls (holder, job) with
  | some (.inserting now) =>
      let row := ⟨holder, now + cfg.duration holder job⟩
      let s' := { s with
        leases := if ending.executes then insertLease s.leases job row else s.leases }
      some (s'.setCall holder job (some (.updating now)))
  | _ => none

/-- The `UPDATE`, and the return of the call. -/
def updateStatement (ending : StatementEnd) : Option LeaseState :=
  match s.calls (holder, job) with
  | some (.updating now) =>
      let expiresAt := now + cfg.duration holder job
      let s' := { s with
        leases := if ending.executes then renewLease s.leases job holder expiresAt else s.leases
        granted :=
          if ending = StatementEnd.done ∧
              0 < renewedRows cfg.countsUnchanged s.leases job holder expiresAt then
            ⟨job, holder, expiresAt, s.clock⟩ :: s.granted
          else s.granted }
      some (s'.setCall holder job none)
  | _ => none

/-- The step function. -/
def leaseStep : LeaseAction → Option LeaseState
  | .tryAcquire holder job => beginCall s holder job
  | .delete holder job ending => deleteStatement s holder job ending
  | .insert holder job ending => insertStatement cfg s holder job ending
  | .update holder job ending => updateStatement cfg s holder job ending
  | .stop holder job => some (s.setCall holder job none)
  | .tick d => some { s with clock := s.clock + d }

end Steps

/-- A table of leases before any call. -/
def LeaseState.start (clock : Int) (leases : Leases) : LeaseState where
  clock := clock
  leases := leases
  calls := fun _ => none
  granted := []

/-! ### The statements -/

section Statements

variable {leases : Leases} {job job' holder : String} {now expiresAt : Int} {row : LeaseRow}

/-- The `DELETE` keeps a row or finds it expired. -/
theorem deleteExpired_cases (job : String) (now : Int) (h : leases job' = some row) :
    deleteExpired leases job now job' = some row ∨ (job' = job ∧ row.expiresAt < now) := by
  rw [deleteExpired]
  cases hold : leases job with
  | none => exact .inl h
  | some old =>
      dsimp only
      by_cases hexpired : old.expiresAt < now
      · rw [if_pos hexpired]
        by_cases hjob : job' = job
        · subst hjob
          obtain rfl := Option.some.inj (hold.symm.trans h)
          exact .inr ⟨rfl, hexpired⟩
        · exact .inl (by rw [Function.update_of_ne hjob, h])
      · exact .inl (by rw [if_neg hexpired, h])

/-- The `INSERT` keeps a row. -/
theorem insertLease_keeps (job : String) (new : LeaseRow) (h : leases job' = some row) :
    insertLease leases job new job' = some row := by
  rw [insertLease]
  cases hold : leases job with
  | some old => exact h
  | none =>
      have hjob : job' ≠ job := by
        rintro rfl
        simp [h] at hold
      dsimp only
      rw [Function.update_of_ne hjob, h]

/-- The `UPDATE` keeps a row, or finds it the holder's own and gives it the new end. -/
theorem renewLease_cases (job holder : String) (expiresAt : Int) (h : leases job' = some row) :
    renewLease leases job holder expiresAt job' = some row ∨
      (job' = job ∧ row.holderID = holder ∧
        renewLease leases job holder expiresAt job' = some ⟨holder, expiresAt⟩) := by
  rw [renewLease]
  cases hold : leases job with
  | none => exact .inl h
  | some old =>
      dsimp only
      by_cases hholder : old.holderID = holder
      · rw [if_pos hholder]
        by_cases hjob : job' = job
        · subst hjob
          obtain rfl := Option.some.inj (hold.symm.trans h)
          exact .inr ⟨rfl, hholder, Function.update_self ..⟩
        · exact .inl (by rw [Function.update_of_ne hjob, h])
      · exact .inl (by rw [if_neg hholder, h])

/-- An `UPDATE` that affects a row leaves the holder with its row. -/
theorem renewLease_of_renewedRows {countsUnchanged : Bool}
    (h : 0 < renewedRows countsUnchanged leases job holder expiresAt) :
    renewLease leases job holder expiresAt job = some ⟨holder, expiresAt⟩ := by
  rw [renewedRows] at h
  rw [renewLease]
  cases hrow : leases job with
  | none => simp [hrow] at h
  | some row =>
      have hholder : row.holderID = holder := by
        by_contra hne
        simp [hrow, hne] at h
      simp [hholder]

end Statements

/-! ### The invariant -/

/-- The lease is over, or the row of its job is its holder's and lasts as long. -/
def LeaseState.Covers (s : LeaseState) (g : GrantedLease) : Prop :=
  g.expiresAt < s.clock ∨
    ∃ row, s.leases g.job = some row ∧ row.holderID = g.holder ∧ g.expiresAt ≤ row.expiresAt

/-- The invariant. Every lease granted is covered, and none is longer than its holder would
get by reading the clock now, or has read it to in a running call. Of two leases for one job
and different holders, one was over when the other was granted. -/
structure LeaseInv (cfg : LeaseConfig) (s : LeaseState) : Prop where
  covers : ∀ g ∈ s.granted, s.Covers g
  past : ∀ g ∈ s.granted, g.expiresAt ≤ s.clock + cfg.duration g.holder g.job
  calls : ∀ holder job stage, s.calls (holder, job) = some stage → stage.now ≤ s.clock ∧
    ∀ g ∈ s.granted, g.holder = holder → g.job = job →
      g.expiresAt ≤ stage.now + cfg.duration holder job
  apart : ∀ g ∈ s.granted, ∀ g' ∈ s.granted, g.job = g'.job → g.holder ≠ g'.holder →
    g.expiresAt < g'.grantedAt ∨ g'.expiresAt < g.grantedAt

section Invariant

variable {cfg : LeaseConfig} {s s' : LeaseState} {holder job : String}

/-- A call goes on with its reading of the clock, or returns. -/
theorem LeaseInv.setCall (h : LeaseInv cfg s) (holder job : String) {stage? : Option LeaseStage}
    (hstage : ∀ stage, stage? = some stage → stage.now ≤ s.clock ∧
      ∀ g ∈ s.granted, g.holder = holder → g.job = job →
        g.expiresAt ≤ stage.now + cfg.duration holder job) :
    LeaseInv cfg (s.setCall holder job stage?) where
  covers := h.covers
  past := h.past
  calls := fun holder' job' stage hcall => by
    rcases update_eq_some_iff.mp hcall with ⟨heq, hnew⟩ | ⟨-, hold⟩
    · obtain ⟨rfl, rfl⟩ := Prod.mk.inj heq
      exact hstage stage hnew
    · exact h.calls holder' job' stage hold
  apart := h.apart

/-- The table changes, and what was covered is. -/
theorem LeaseInv.setLeases (h : LeaseInv cfg s) {leases : Leases}
    (hcovers : ∀ g ∈ s.granted, s.Covers g → { s with leases := leases }.Covers g) :
    LeaseInv cfg { s with leases := leases } where
  covers := fun g hg => hcovers g hg (h.covers g hg)
  past := h.past
  calls := h.calls
  apart := h.apart

/-- The `DELETE` removes the row of leases that are over. -/
theorem LeaseInv.delete (h : LeaseInv cfg s) {now : Int} (hnow : now ≤ s.clock) :
    LeaseInv cfg { s with leases := deleteExpired s.leases job now } := by
  refine h.setLeases fun g _ hcovers => ?_
  rcases hcovers with hover | ⟨row, hrow, hholder, hends⟩
  · exact .inl hover
  · rcases deleteExpired_cases job now hrow with hkept | ⟨-, hexpired⟩
    · exact .inr ⟨row, hkept, hholder, hends⟩
    · refine .inl ?_
      dsimp only
      omega

/-- The `INSERT` takes no row away. -/
theorem LeaseInv.insert (h : LeaseInv cfg s) (row : LeaseRow) :
    LeaseInv cfg { s with leases := insertLease s.leases job row } := by
  refine h.setLeases fun g _ hcovers => ?_
  rcases hcovers with hover | ⟨row', hrow', hholder, hends⟩
  · exact .inl hover
  · exact .inr ⟨row', insertLease_keeps job row hrow', hholder, hends⟩

/-- The `UPDATE` of a call does not shorten a lease: the leases of its holder end no later
than the new one. -/
theorem LeaseInv.update (h : LeaseInv cfg s) {stage : LeaseStage}
    (hcall : s.calls (holder, job) = some stage) :
    LeaseInv cfg { s with
      leases := renewLease s.leases job holder (stage.now + cfg.duration holder job) } := by
  refine h.setLeases fun g hg hcovers => ?_
  rcases hcovers with hover | ⟨row, hrow, hholder, hends⟩
  · exact .inl hover
  · rcases renewLease_cases job holder (stage.now + cfg.duration holder job) hrow with
      hkept | ⟨hjob, hown, hnew⟩
    · exact .inr ⟨row, hkept, hholder, hends⟩
    · exact .inr ⟨_, hnew, hown.symm.trans hholder,
        (h.calls holder job stage hcall).2 g hg (hholder.symm.trans hown) hjob⟩

/-- A lease is granted to the holder of the row of its job. -/
theorem LeaseInv.grant (h : LeaseInv cfg s) {stage : LeaseStage}
    (hcall : s.calls (holder, job) = some stage)
    (hrow : s.leases job = some ⟨holder, stage.now + cfg.duration holder job⟩) :
    LeaseInv cfg { s with
      granted :=
        ⟨job, holder, stage.now + cfg.duration holder job, s.clock⟩ :: s.granted } := by
  obtain ⟨hnow, -⟩ := h.calls holder job stage hcall
  have hothers : ∀ g ∈ s.granted, g.job = job → g.holder ≠ holder → g.expiresAt < s.clock := by
    intro g hg hjob hne
    rcases h.covers g hg with hover | ⟨row, hgrow, hholder, -⟩
    · exact hover
    · rw [hjob, hrow] at hgrow
      obtain rfl := Option.some.inj hgrow
      exact absurd hholder.symm hne
  refine ⟨fun g hg => ?_, fun g hg => ?_, fun holder' job' stage' hcall' => ?_,
    fun g hg g' hg' => ?_⟩
  · rcases List.mem_cons.mp hg with rfl | hold
    · exact .inr ⟨_, hrow, rfl, Int.le_refl _⟩
    · exact h.covers g hold
  · rcases List.mem_cons.mp hg with rfl | hold
    · dsimp only
      omega
    · exact h.past g hold
  · obtain ⟨hnow', hbefore⟩ := h.calls holder' job' stage' hcall'
    refine ⟨hnow', fun g hg hholder hjob => ?_⟩
    rcases List.mem_cons.mp hg with rfl | hold
    · dsimp only at hholder hjob
      subst hholder hjob
      obtain rfl := Option.some.inj (hcall.symm.trans hcall')
      exact Int.le_refl _
    · exact hbefore g hold hholder hjob
  · rcases List.mem_cons.mp hg with rfl | hold <;> rcases List.mem_cons.mp hg' with rfl | hold'
    · exact fun _ hne => absurd rfl hne
    · exact fun hjob hne => .inr (hothers g' hold' hjob.symm hne.symm)
    · exact fun hjob hne => .inl (hothers g hold hjob hne)
    · exact h.apart g hold g' hold'

/-- Time passes. -/
theorem LeaseInv.tick (h : LeaseInv cfg s) (d : Nat) :
    LeaseInv cfg { s with clock := s.clock + d } where
  covers := fun g hg => by
    rcases h.covers g hg with hover | hrow
    · refine .inl ?_
      dsimp only
      omega
    · exact .inr hrow
  past := fun g hg => by
    have := h.past g hg
    dsimp only
    omega
  calls := fun holder job stage hcall => by
    obtain ⟨hnow, hbefore⟩ := h.calls holder job stage hcall
    refine ⟨?_, hbefore⟩
    dsimp only
    omega
  apart := h.apart

/-- A call begins no earlier than the leases of its holder were granted. -/
theorem leaseInv_beginCall (h : LeaseInv cfg s) (hstep : beginCall s holder job = some s') :
    LeaseInv cfg s' := by
  rw [beginCall] at hstep
  split at hstep
  · simp at hstep
  · obtain rfl := Option.some.inj hstep
    refine h.setCall holder job fun stage hstage => ?_
    obtain rfl := Option.some.inj hstage
    refine ⟨Int.le_refl _, fun g hg hholder hjob => ?_⟩
    have := h.past g hg
    rwa [hholder, hjob] at this

/-- The `DELETE` of a call. -/
theorem leaseInv_deleteStatement {ending : StatementEnd} (h : LeaseInv cfg s)
    (hstep : deleteStatement s holder job ending = some s') : LeaseInv cfg s' := by
  rw [deleteStatement.eq_def] at hstep
  split at hstep
  · next now hcall =>
      obtain rfl := Option.some.inj hstep
      have hcalls := h.calls holder job _ hcall
      have hdeleted : LeaseInv cfg { s with
          leases := if ending.executes then deleteExpired s.leases job now else s.leases } := by
        split
        · exact h.delete hcalls.1
        · exact h
      refine hdeleted.setCall holder job fun stage hstage => ?_
      split at hstage
      · obtain rfl := Option.some.inj hstage
        exact hcalls
      · simp at hstage
  · simp at hstep

/-- The `INSERT` of a call. -/
theorem leaseInv_insertStatement {ending : StatementEnd} (h : LeaseInv cfg s)
    (hstep : insertStatement cfg s holder job ending = some s') : LeaseInv cfg s' := by
  rw [insertStatement.eq_def] at hstep
  split at hstep
  · next now hcall =>
      obtain rfl := Option.some.inj hstep
      have hcalls := h.calls holder job _ hcall
      have hinserted : LeaseInv cfg { s with
          leases := if ending.executes then
            insertLease s.leases job ⟨holder, now + cfg.duration holder job⟩
          else s.leases } := by
        split
        · exact h.insert _
        · exact h
      refine hinserted.setCall holder job fun stage hstage => ?_
      obtain rfl := Option.some.inj hstage
      exact hcalls
  · simp at hstep

/-- The `UPDATE` of a call, which grants a lease when it affects a row. -/
theorem leaseInv_updateStatement {ending : StatementEnd} (h : LeaseInv cfg s)
    (hstep : updateStatement cfg s holder job ending = some s') : LeaseInv cfg s' := by
  rw [updateStatement.eq_def] at hstep
  split at hstep
  · next now hcall =>
      obtain rfl := Option.some.inj hstep
      refine LeaseInv.setCall ?_ holder job fun stage hstage => by simp at hstage
      by_cases hgrant : ending = StatementEnd.done ∧ 0 < renewedRows cfg.countsUnchanged
          s.leases job holder (now + cfg.duration holder job)
      · obtain ⟨rfl, hrows⟩ := hgrant
        have hrenewed : LeaseInv cfg { s with
            leases := renewLease s.leases job holder (now + cfg.duration holder job) } :=
          h.update hcall
        simp only [hrows, and_self, if_true]
        exact hrenewed.grant hcall (renewLease_of_renewedRows hrows)
      · simp only [hgrant, if_false]
        split
        · exact h.update hcall
        · exact h
  · simp at hstep

/-- **The step lemma.** -/
theorem leaseInv_step {a : LeaseAction} (h : LeaseInv cfg s)
    (hstep : leaseStep cfg s a = some s') : LeaseInv cfg s' := by
  cases a with
  | tryAcquire holder job => exact leaseInv_beginCall h hstep
  | delete holder job ending => exact leaseInv_deleteStatement h hstep
  | insert holder job ending => exact leaseInv_insertStatement h hstep
  | update holder job ending => exact leaseInv_updateStatement h hstep
  | stop holder job =>
      exact Option.some.inj hstep ▸ h.setCall holder job fun stage hstage => by simp at hstage
  | tick d => exact Option.some.inj hstep ▸ h.tick d

/-- Before any call nothing is granted. -/
theorem leaseInv_start (clock : Int) (leases : Leases) :
    LeaseInv cfg (LeaseState.start clock leases) where
  covers := by simp [LeaseState.start]
  past := by simp [LeaseState.start]
  calls := by simp [LeaseState.start]
  apart := by simp [LeaseState.start]

end Invariant

/-! ### Calls -/

/-- The steps of a call whose statements are all answered. -/
def callActions (holder job : String) : List LeaseAction :=
  [.tryAcquire holder job, .delete holder job .done, .insert holder job .done,
    .update holder job .done]

/-- **A call that runs alone gets the lease when it is free, its own or expired**, on a
database that counts every row an `UPDATE` finds. -/
theorem tryAcquire_alone_iff (cfg : LeaseConfig) (s : LeaseState) (holder job : String)
    (hidle : s.calls (holder, job) = none) (hcounts : cfg.countsUnchanged = true) :
    ∃ s', run (leaseStep cfg) s (callActions holder job) = some s' ∧
      (s'.granted =
          ⟨job, holder, s.clock + cfg.duration holder job, s.clock⟩ :: s.granted ↔
        ∀ row, s.leases job = some row → row.holderID = holder ∨ row.expiresAt < s.clock) := by
  have hlonger : ∀ g : GrantedLease, s.granted ≠ g :: s.granted := fun g h => by
    have := congrArg List.length h
    simp at this
  have hrun : ∀ leases, leases = insertLease (deleteExpired s.leases job s.clock) job
      ⟨holder, s.clock + cfg.duration holder job⟩ →
      ∃ s', run (leaseStep cfg) s (callActions holder job) = some s' ∧
        s'.granted = if 0 < renewedRows true leases job holder
            (s.clock + cfg.duration holder job) then
          ⟨job, holder, s.clock + cfg.duration holder job, s.clock⟩ :: s.granted
        else s.granted := by
    rintro leases rfl
    simp [callActions, leaseStep, beginCall, deleteStatement, insertStatement, updateStatement,
      LeaseState.setCall, StatementEnd.executes, hidle, hcounts]
  obtain ⟨s', hs', hgranted⟩ := hrun _ rfl
  refine ⟨s', hs', ?_⟩
  rw [hgranted]
  cases hrow : s.leases job with
  | none => simp [insertLease, deleteExpired, renewedRows, hrow]
  | some row =>
      by_cases hexpired : row.expiresAt < s.clock
      · simp [insertLease, deleteExpired, renewedRows, hrow, hexpired]
      · by_cases hholder : row.holderID = holder
        · simp [insertLease, deleteExpired, renewedRows, hrow, hexpired, hholder]
        · simp [insertLease, deleteExpired, renewedRows, hrow, hexpired, hholder, hlonger]

/-- **Leases exclude each other.** In every run of any number of processes, statement by
statement in any order, from any table, two holders are never granted a job by calls of
`TryAcquire` whose leases both last to an instant at which both have been granted. -/
theorem leases_exclude (cfg : LeaseConfig) (clock : Int) (leases : Leases)
    (as : List LeaseAction) (s : LeaseState)
    (hrun : run (leaseStep cfg) (LeaseState.start clock leases) as = some s)
    (g g' : GrantedLease) (hg : g ∈ s.granted) (hg' : g' ∈ s.granted) (hjob : g.job = g'.job)
    (hholder : g.holder ≠ g'.holder) :
    ¬ ∃ t, g.grantedAt ≤ t ∧ g'.grantedAt ≤ t ∧ t ≤ g.expiresAt ∧ t ≤ g'.expiresAt := by
  have hinv : LeaseInv cfg s :=
    run_invariant (fun _ _ _ h hs => leaseInv_step h hs) (leaseInv_start clock leases) hrun
  rintro ⟨t, hafter, hafter', hends, hends'⟩
  have := hinv.apart g hg g' hg' hjob hholder
  omega

/-- Leases of a minute. -/
def exampleLeases : LeaseConfig where
  duration := fun _ _ => 60
  countsUnchanged := true

/-- Two processes get the job one after the other, a minute and a second apart. -/
theorem leases_exclude_example :
    ∃ s, run (leaseStep exampleLeases) (LeaseState.start 0 fun _ => none)
        (callActions "a" "job" ++ .tick 61 :: callActions "b" "job") = some s ∧
      s.granted = [⟨"job", "b", 121, 61⟩, ⟨"job", "a", 60, 0⟩] ∧
        ¬ ∃ t : Int, 0 ≤ t ∧ 61 ≤ t ∧ t ≤ 60 ∧ t ≤ 121 := by
  have hgranted : (run (leaseStep exampleLeases) (LeaseState.start 0 fun _ => none)
      (callActions "a" "job" ++ .tick 61 :: callActions "b" "job")).map (·.granted) =
        some [⟨"job", "b", 121, 61⟩, ⟨"job", "a", 60, 0⟩] := by
    decide +kernel
  obtain ⟨s, hrun, hs⟩ := Option.map_eq_some_iff.mp hgranted
  exact ⟨s, hrun, hs, leases_exclude exampleLeases 0 _ _ s hrun ⟨"job", "a", 60, 0⟩
    ⟨"job", "b", 121, 61⟩ (hs ▸ by simp) (hs ▸ by simp) rfl (by decide)⟩

end IdpForge
