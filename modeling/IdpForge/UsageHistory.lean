import IdpForge.GoStrconv
import IdpForge.LeaderLease
import IdpForge.Paging
import IdpForge.Readings
import IdpForge.TransitionSystem

/-!
# The History of Usage

Every process counts its requests, logins and rejections from its start on. A sampler reads the
four counters one after another, if the process leads, and inserts them into a table with the time
of the insertion. The usage page gets the rows of the last days and draws, for each row but the
first, what a counter has grown by since the row before, or nothing where it has fallen.

With each row goes, as a ghost, the process that wrote it and what all processes together had
counted when it read each of its counters.

## Main results

* `counted_eq_countP`: the ghost is the number of the events of the run.
* `usageInv_step`: what the rows and the counters have in common.
* `usage_chart`: where one process runs at a time, no bar shows more than was counted between its
  two rows, and one between two rows of the same process shows exactly that.
-/

open Paging Readings TransitionSystem

namespace IdpForge

/-! ### Counters -/

/-- The counters. -/
inductive Measure where
  | httpRequests
  | loginSuccess
  | loginFailure
  | rateLimitRejections
  deriving DecidableEq, Repr

/-- `Totals`: a number for each counter. -/
abbrev Totals := Measure → Nat

/-- The calls that count something. -/
inductive MetricCall where
  /-- `RecordHTTPRequest`. -/
  | httpRequest (method route status : String)
  /-- `RecordLoginAttempt`. -/
  | loginAttempt (outcome : String)
  /-- `RecordRateLimitRejection`. -/
  | rateLimitRejection (route : String)
  deriving DecidableEq, Repr

/-- The counter that a call adds one to. -/
def MetricCall.measure : MetricCall → Measure
  | .httpRequest .. => .httpRequests
  | .loginAttempt outcome => if outcome = "success" then .loginSuccess else .loginFailure
  | .rateLimitRejection _ => .rateLimitRejections

/-- `Add(1)`. -/
def addOne (totals : Totals) (m : Measure) : Totals := Function.update totals m (totals m + 1)

/-- The order in which `CurrentTotals` loads the counters. -/
def loadOrder : List Measure :=
  [.httpRequests, .loginSuccess, .loginFailure, .rateLimitRejections]

/-! ### The sampler -/

/-- A row of `metrics_snapshots`. -/
structure Snapshot where
  timestamp : Int
  totals : Totals
  storageBytes : Int

/-- A row with the process that wrote it and what was counted in all when it read its counters. -/
structure SampleRow extends Snapshot where
  process : Nat
  counted : Totals

/-- A sampler between its measurement of the storage and its insertion: the counters that
`CurrentTotals` has still to load, those it has loaded, and what was counted in all then. -/
structure Sampling where
  storageBytes : Int
  remaining : List Measure
  loaded : Totals
  counted : Totals

/-- A process, with its counters and its sampler. -/
structure MeteredProcess where
  totals : Totals
  sampling : Option Sampling

/-- The clock, the processes that run, the number of those that have started, what all have
counted and the table, its latest row first. -/
structure UsageState where
  clock : Int
  processes : Nat → Option MeteredProcess
  started : Nat
  counted : Totals
  rows : List SampleRow

/-- What can happen. -/
inductive UsageAction where
  /-- A process starts, with its counters at zero. -/
  | start
  /-- A process stops, with whatever it had not inserted. -/
  | stop (p : Nat)
  /-- Something is counted. -/
  | record (p : Nat) (what : MetricCall)
  /-- A tick of the sampler, which may find that the process leads, with the storage measured. -/
  | sample (p : Nat) (leads : Bool) (storageBytes : Int)
  /-- `CurrentTotals` loads the next counter. -/
  | load (p : Nat)
  /-- `History.Record`, whose error is logged. -/
  | insert (p : Nat) (ending : StatementEnd)
  /-- Time passes. -/
  | tick (d : Nat)
  deriving DecidableEq, Repr

/-- A running process becomes another. -/
def UsageState.setProcess (s : UsageState) (p : Nat) (process : Option MeteredProcess) :
    UsageState :=
  { s with processes := Function.update s.processes p process }

/-- The row that a sampler inserts. -/
def Sampling.row (sampling : Sampling) (clock : Int) (p : Nat) : SampleRow where
  timestamp := clock
  totals := sampling.loaded
  storageBytes := sampling.storageBytes
  process := p
  counted := sampling.counted

/-- A counter is loaded. -/
def Sampling.load (sampling : Sampling) (m : Measure) (rest : List Measure)
    (totals counted : Totals) : Sampling :=
  { sampling with
    remaining := rest
    loaded := Function.update sampling.loaded m (totals m)
    counted := Function.update sampling.counted m (counted m) }

/-- The step function. -/
def usageStep (s : UsageState) : UsageAction → Option UsageState
  | .start =>
      some { s.setProcess s.started (some ⟨fun _ => 0, none⟩) with started := s.started + 1 }
  | .stop p => some (s.setProcess p none)
  | .record p what =>
      match s.processes p with
      | some process =>
          let m := what.measure
          some { s.setProcess p (some { process with totals := addOne process.totals m }) with
            counted := addOne s.counted m }
      | none => none
  | .sample p leads storageBytes =>
      match s.processes p with
      | some ⟨totals, none⟩ =>
          if leads then
            let sampling := ⟨storageBytes, loadOrder, fun _ => 0, fun _ => 0⟩
            some (s.setProcess p (some ⟨totals, some sampling⟩))
          else some s
      | _ => none
  | .load p =>
      match s.processes p with
      | some ⟨totals, some sampling⟩ =>
          match sampling.remaining with
          | m :: rest =>
              some (s.setProcess p (some ⟨totals, some (sampling.load m rest totals s.counted)⟩))
          | [] => none
      | _ => none
  | .insert p ending =>
      match s.processes p with
      | some ⟨totals, some sampling⟩ =>
          if sampling.remaining = [] then
            some { s.setProcess p (some ⟨totals, none⟩) with
              rows := if ending.executes then sampling.row s.clock p :: s.rows else s.rows }
          else none
      | _ => none
  | .tick d => some { s with clock := s.clock + d }

/-- An empty table before any process. -/
def UsageState.empty (clock : Int) : UsageState where
  clock := clock
  processes := fun _ => none
  started := 0
  counted := fun _ => 0
  rows := []

/-! ### The page -/

/-- The days that `handleMetricsHistory` goes back, for the query parameter as it is given. -/
def historyDays (query : String) : Int :=
  let days := (GoStrconv.atoi (if query = "" then "30" else query)).getD 0
  if days ≤ 0 ∨ 365 < days then 30 else days

/-- A day in nanoseconds. -/
def dayNanos : Int := 24 * 3600 * 1000000000

/-- The time from which on `handleMetricsHistory` asks for rows. -/
def historySince (now : Int) (query : String) : Int := now - historyDays query * dayNanos

/-- The order of `History.Since`. -/
def Earlier (a b : SampleRow) : Prop := a.timestamp ≤ b.timestamp

/-- Times are compared. -/
instance : DecidableRel Earlier :=
  fun a b => inferInstanceAs (Decidable (a.timestamp ≤ b.timestamp))

/-- `History.Since` may answer with these rows. -/
def AnswersSince (s : UsageState) (since : Int) (rows : List SampleRow) : Prop :=
  Arranges Earlier (s.rows.filter fun row => since ≤ row.timestamp) rows

/-- A `DeltaPoint`, with the time that its label shows. -/
structure DeltaPoint where
  time : Int
  value : Measure → Int

/-- A point of the chart. -/
def deltaPoint (prev cur : Snapshot) : DeltaPoint where
  time := cur.timestamp
  value := fun m => increase (prev.totals m) (cur.totals m)

/-- `toDeltas`. -/
def toDeltas (snapshots : List Snapshot) : List DeltaPoint := steps deltaPoint snapshots

/-- The bars of a chart. -/
def bars (rows : List SampleRow) (m : Measure) : List Int :=
  (toDeltas (rows.map SampleRow.toSnapshot)).map fun point => point.value m

/-- A bar is what a counter has grown by from one row to the next. -/
theorem bars_eq_steps (rows : List SampleRow) (m : Measure) :
    bars rows m = steps (fun a b => increase (a.totals m) (b.totals m)) rows := by
  rw [bars, toDeltas, map_steps, steps_map]
  rfl

/-! ### The steps -/

/-- What a step does, one case an action. -/
inductive UsageMove (s : UsageState) : UsageAction → UsageState → Prop where
  | start : UsageMove s .start
      { s.setProcess s.started (some ⟨fun _ => 0, none⟩) with started := s.started + 1 }
  | stop (p : Nat) : UsageMove s (.stop p) (s.setProcess p none)
  | record (p : Nat) (what : MetricCall) (process : MeteredProcess)
      (hp : s.processes p = some process) : UsageMove s (.record p what)
      { s.setProcess p (some { process with totals := addOne process.totals what.measure }) with
        counted := addOne s.counted what.measure }
  | sample (p : Nat) (storageBytes : Int) (totals : Totals)
      (hp : s.processes p = some ⟨totals, none⟩) : UsageMove s (.sample p true storageBytes)
      (s.setProcess p
        (some ⟨totals, some ⟨storageBytes, loadOrder, fun _ => 0, fun _ => 0⟩⟩))
  | follow (p : Nat) (storageBytes : Int) : UsageMove s (.sample p false storageBytes) s
  | load (p : Nat) (totals : Totals) (sampling : Sampling) (m : Measure) (rest : List Measure)
      (hp : s.processes p = some ⟨totals, some sampling⟩) (hm : sampling.remaining = m :: rest) :
      UsageMove s (.load p)
        (s.setProcess p (some ⟨totals, some (sampling.load m rest totals s.counted)⟩))
  | insert (p : Nat) (ending : StatementEnd) (totals : Totals) (sampling : Sampling)
      (hp : s.processes p = some ⟨totals, some sampling⟩) (hm : sampling.remaining = []) :
      UsageMove s (.insert p ending)
        { s.setProcess p (some ⟨totals, none⟩) with
          rows := if ending.executes then sampling.row s.clock p :: s.rows else s.rows }
  | tick (d : Nat) : UsageMove s (.tick d) { s with clock := s.clock + d }

/-- Every step does what is listed. -/
theorem usageMove_of_step {s s' : UsageState} {a : UsageAction} (h : usageStep s a = some s') :
    UsageMove s a s' := by
  cases a with
  | start => obtain rfl := Option.some.inj h; exact .start
  | stop p => obtain rfl := Option.some.inj h; exact .stop p
  | tick d => obtain rfl := Option.some.inj h; exact .tick d
  | record p what =>
      rw [usageStep] at h
      split at h
      · next process hp => obtain rfl := Option.some.inj h; exact .record p what process hp
      · exact absurd h (by simp)
  | sample p leads storageBytes =>
      rw [usageStep] at h
      split at h
      · next totals hp =>
          cases leads with
          | true => obtain rfl := Option.some.inj h; exact .sample p storageBytes totals hp
          | false => obtain rfl := Option.some.inj h; exact .follow p storageBytes
      · exact absurd h (by simp)
  | load p =>
      rw [usageStep] at h
      split at h
      · next totals sampling hp =>
          split at h
          · next m rest hm =>
              obtain rfl := Option.some.inj h
              exact .load p totals sampling m rest hp hm
          · exact absurd h (by simp)
      · exact absurd h (by simp)
  | insert p ending =>
      rw [usageStep] at h
      split at h
      · next totals sampling hp =>
          split at h
          · next hm =>
              obtain rfl := Option.some.inj h
              exact .insert p ending totals sampling hp hm
          · exact absurd h (by simp)
      · exact absurd h (by simp)

/-! ### What is counted -/

/-- The action counts something on this counter. -/
def UsageAction.counts (m : Measure) : UsageAction → Bool
  | .record _ what => what.measure = m
  | _ => false

/-- One more on a counter, as it is looked up. -/
theorem addOne_apply (totals : Totals) (m m' : Measure) :
    addOne totals m m' = totals m' + if m = m' then 1 else 0 := by
  rw [addOne]
  by_cases h : m' = m
  · rw [h, Function.update_self, if_pos rfl]
  · rw [Function.update_of_ne h, if_neg (Ne.symm h), Nat.add_zero]

/-- **The ghost counts** what the processes have recorded in the run. -/
theorem counted_eq_countP {clock : Int} {actions : List UsageAction} {s : UsageState}
    (hrun : run usageStep (UsageState.empty clock) actions = some s) (m : Measure) :
    s.counted m = actions.countP fun a => a.counts m := by
  refine trace_invariant (P := fun as t => t.counted m = as.countP fun a => a.counts m)
    rfl (fun as t a t' _ ht hstep => ?_) hrun
  rw [List.countP_append, List.countP_singleton, ← ht]
  cases usageMove_of_step hstep with
  | record p what process hp => simp [addOne_apply, UsageAction.counts]
  | start | stop | sample | follow | load | insert | tick => rfl

/-! ### The invariant -/

/-- A process has read a counter after a row was written: it is the one that wrote the row, and
its counter and what is counted in all have grown alike, or it started later and has counted no
more than was counted in all since. -/
structure ReadAfter (row : SampleRow) (m : Measure) (p value counted : Nat) : Prop where
  counted_le : row.counted m ≤ counted
  same : row.process = p → row.counted m + value = counted + row.totals m
  other : row.process ≠ p → row.counted m + value ≤ counted

/-- A running process: what it has counted and loaded, against what was counted in all and
against every row. -/
structure ProcessInv (s : UsageState) (p : Nat) (process : MeteredProcess) : Prop where
  fresh : p < s.started
  total : ∀ m, process.totals m ≤ s.counted m
  sinceRow : ∀ row ∈ s.rows, ∀ m, ReadAfter row m p (process.totals m) (s.counted m)
  loaded : ∀ sampling, process.sampling = some sampling → ∀ m, m ∉ sampling.remaining →
    sampling.loaded m ≤ sampling.counted m ∧ sampling.counted m ≤ s.counted m ∧
      sampling.counted m + process.totals m = s.counted m + sampling.loaded m
  loadedSinceRow : ∀ sampling, process.sampling = some sampling → ∀ m, m ∉ sampling.remaining →
    ∀ row ∈ s.rows, ReadAfter row m p (sampling.loaded m) (sampling.counted m)

/-- A row: it is of a process that has started, of a time that has come, and of events that
were counted. -/
structure RowInv (s : UsageState) (row : SampleRow) : Prop where
  wrote : row.process < s.started
  past : row.timestamp ≤ s.clock
  total : ∀ m, row.totals m ≤ row.counted m
  counted : ∀ m, row.counted m ≤ s.counted m

/-- The invariant, where one process runs at a time and no two rows are written at one instant. -/
structure UsageInv (s : UsageState) : Prop where
  processes : ∀ p process, s.processes p = some process → ProcessInv s p process
  alone : ∀ p q, (s.processes p).isSome → (s.processes q).isSome → p = q
  rows : ∀ row ∈ s.rows, RowInv s row
  apart : s.rows.Pairwise fun a b => a.timestamp ≠ b.timestamp
  rowSinceRow : ∀ a ∈ s.rows, ∀ b ∈ s.rows, a.timestamp < b.timestamp →
    ∀ m, ReadAfter a m b.process (b.totals m) (b.counted m)

/-- One process runs at a time, and no two rows are written at one instant. -/
def OneAtATime (s : UsageState) : UsageAction → Prop
  | .start => ∀ p < s.started, (s.processes p).isNone
  | .insert _ _ => ∀ row ∈ s.rows, row.timestamp ≠ s.clock
  | _ => True

/-- The guard can be checked: the processes are numbered. -/
instance : ∀ (s : UsageState) (a : UsageAction), Decidable (OneAtATime s a)
  | s, .start => inferInstanceAs (Decidable (∀ p < s.started, (s.processes p).isNone = true))
  | s, .insert _ _ => inferInstanceAs (Decidable (∀ row ∈ s.rows, row.timestamp ≠ s.clock))
  | _, .stop _ => isTrue trivial
  | _, .record .. => isTrue trivial
  | _, .sample .. => isTrue trivial
  | _, .load _ => isTrue trivial
  | _, .tick _ => isTrue trivial

/-- Nothing is wrong with an empty table. -/
theorem usageInv_empty (clock : Int) : UsageInv (UsageState.empty clock) where
  processes := fun _ _ h => by simp [UsageState.empty] at h
  alone := fun _ _ h => by simp [UsageState.empty] at h
  rows := fun _ h => by simp [UsageState.empty] at h
  apart := List.Pairwise.nil
  rowSinceRow := fun _ h => by simp [UsageState.empty] at h

section Steps

variable {s : UsageState} {p : Nat} {totals : Totals} {sampling : Sampling}

/-- The process that runs becomes another, or stops. -/
theorem UsageInv.setProcess (h : UsageInv s) (p : Nat) {process : Option MeteredProcess}
    {counted : Totals} {started : Nat} (hcounted : ∀ m, s.counted m ≤ counted m)
    (hstarted : s.started ≤ started) (hrunning : ∀ q, (s.processes q).isSome → q = p)
    (hnew : ∀ next, process = some next →
      ProcessInv { s.setProcess p process with counted := counted, started := started } p next) :
    UsageInv { s.setProcess p process with counted := counted, started := started } where
  processes := fun q next hq => by
    rcases PartialMap.update_eq_some_iff.mp hq with ⟨rfl, hnext⟩ | ⟨hne, hold⟩
    · exact hnew next hnext
    · exact absurd (hrunning q (by rw [hold]; rfl)) hne
  alone := fun q q' hq hq' => by
    have honly : ∀ r, (Function.update s.processes p process r).isSome → r = p := by
      intro r hr
      by_contra hne
      rw [Function.update_of_ne hne] at hr
      exact hne (hrunning r hr)
    rw [honly q hq, honly q' hq']
  rows := fun row hrow => ⟨(h.rows row hrow).wrote.trans_le hstarted, (h.rows row hrow).past,
    (h.rows row hrow).total, fun m => ((h.rows row hrow).counted m).trans (hcounted m)⟩
  apart := h.apart
  rowSinceRow := h.rowSinceRow

/-- A process that runs is the only one. -/
theorem UsageInv.only (h : UsageInv s) {process : MeteredProcess}
    (hp : s.processes p = some process) : ∀ q, (s.processes q).isSome → q = p :=
  fun q hq => h.alone q p hq (by rw [hp]; rfl)

/-- All counters are loaded. -/
theorem mem_loadOrder (m : Measure) : m ∈ loadOrder := by
  cases m <;> decide

/-- A process starts where none runs. -/
theorem UsageInv.start (h : UsageInv s) (hnone : ∀ p < s.started, (s.processes p).isNone) :
    UsageInv { s.setProcess s.started (some ⟨fun _ => 0, none⟩) with
      started := s.started + 1 } := by
  have hrunning : ∀ q, (s.processes q).isSome → q = s.started := by
    intro q hq
    obtain ⟨process, hprocess⟩ := Option.isSome_iff_exists.mp hq
    have hnot := hnone q (h.processes q process hprocess).fresh
    simp [hprocess] at hnot
  refine h.setProcess s.started (fun _ => Nat.le_refl _) (Nat.le_succ _) hrunning
    fun next hnext => ?_
  obtain rfl := Option.some.inj hnext
  refine ⟨Nat.lt_succ_self _, fun m => Nat.zero_le _, fun row hrow m => ⟨?_, fun heq => ?_, ?_⟩,
    fun _ hnone => by simp at hnone, fun _ hnone => by simp at hnone⟩
  · exact (h.rows row hrow).counted m
  · exact absurd heq (Nat.ne_of_lt (h.rows row hrow).wrote)
  · exact fun _ => (h.rows row hrow).counted m

/-- Something is counted. -/
theorem UsageInv.record (h : UsageInv s) {process : MeteredProcess} (what : Measure)
    (hp : s.processes p = some process) :
    UsageInv { s.setProcess p (some { process with totals := addOne process.totals what }) with
      counted := addOne s.counted what } := by
  have hle : ∀ m, s.counted m ≤ addOne s.counted what m := by
    intro m
    rw [addOne_apply]
    exact Nat.le_add_right _ _
  obtain ⟨fresh, total, sinceRow, loaded, loadedSinceRow⟩ := h.processes p process hp
  refine h.setProcess p hle (Nat.le_refl _) (h.only hp) fun next hnext => ?_
  obtain rfl := Option.some.inj hnext
  refine ⟨fresh, fun m => ?_, fun row hrow m => ?_, fun sampling hs m hm => ?_, loadedSinceRow⟩
  · have := total m
    dsimp only
    rw [addOne_apply, addOne_apply]
    omega
  · obtain ⟨hcounted, hsame, hother⟩ := sinceRow row hrow m
    dsimp only
    rw [addOne_apply, addOne_apply]
    refine ⟨by omega, fun heq => ?_, fun hne => ?_⟩
    · have := hsame heq
      omega
    · have := hother hne
      omega
  · obtain ⟨hloaded, hcounted, hboth⟩ := loaded sampling hs m hm
    dsimp only
    rw [addOne_apply, addOne_apply]
    omega

/-- A sampler begins to read. -/
theorem UsageInv.sample (h : UsageInv s) (hp : s.processes p = some ⟨totals, none⟩)
    (storageBytes : Int) :
    UsageInv (s.setProcess p
      (some ⟨totals, some ⟨storageBytes, loadOrder, fun _ => 0, fun _ => 0⟩⟩)) := by
  obtain ⟨fresh, total, sinceRow, -, -⟩ := h.processes p _ hp
  refine h.setProcess p (fun _ => Nat.le_refl _) (Nat.le_refl _) (h.only hp) fun next hnext => ?_
  obtain rfl := Option.some.inj hnext
  refine ⟨fresh, total, sinceRow, fun sampling hs m hm => ?_, fun sampling hs m hm => ?_⟩
  · obtain rfl := Option.some.inj hs
    exact absurd (mem_loadOrder m) hm
  · obtain rfl := Option.some.inj hs
    exact absurd (mem_loadOrder m) hm

/-- A counter is loaded, as it is then. -/
theorem UsageInv.load (h : UsageInv s) (hp : s.processes p = some ⟨totals, some sampling⟩)
    {m : Measure} {rest : List Measure} (hm : sampling.remaining = m :: rest) :
    UsageInv (s.setProcess p (some ⟨totals, some (sampling.load m rest totals s.counted)⟩)) := by
  obtain ⟨fresh, total, sinceRow, loaded, loadedSinceRow⟩ := h.processes p _ hp
  refine h.setProcess p (fun _ => Nat.le_refl _) (Nat.le_refl _) (h.only hp) fun next hnext => ?_
  obtain rfl := Option.some.inj hnext
  have hrest : ∀ m', m' ≠ m → m' ∉ rest → m' ∉ sampling.remaining := by
    intro m' hne hnot
    rw [hm]
    exact List.not_mem_cons_of_ne_of_not_mem hne hnot
  refine ⟨fresh, total, sinceRow, fun sampling' hs m' hm' => ?_, fun sampling' hs m' hm' => ?_⟩
  · obtain rfl := Option.some.inj hs
    by_cases heq : m' = m
    · subst heq
      rw [Sampling.load]
      dsimp only
      rw [Function.update_self, Function.update_self]
      exact ⟨total m', Nat.le_refl _, rfl⟩
    · simp only [Sampling.load, Function.update_of_ne heq]
      exact loaded sampling rfl m' (hrest m' heq hm')
  · obtain rfl := Option.some.inj hs
    intro row hrow
    by_cases heq : m' = m
    · subst heq
      simp only [Sampling.load, Function.update_self]
      exact sinceRow row hrow m'
    · simp only [Sampling.load, Function.update_of_ne heq]
      exact loadedSinceRow sampling rfl m' (hrest m' heq hm') row hrow

/-- A row is inserted, at an instant of its own. -/
theorem UsageInv.insertRow (h : UsageInv s) (hp : s.processes p = some ⟨totals, some sampling⟩)
    (hm : sampling.remaining = []) (hapart : ∀ row ∈ s.rows, row.timestamp ≠ s.clock) :
    UsageInv { s with rows := sampling.row s.clock p :: s.rows } := by
  obtain ⟨fresh, total, sinceRow, loaded, loadedSinceRow⟩ := h.processes p _ hp
  have hall : ∀ m, m ∉ sampling.remaining := by simp [hm]
  refine ⟨fun q process hq => ?_, h.alone, fun row hrow => ?_,
    List.pairwise_cons.mpr ⟨fun row hrow => (hapart row hrow).symm, h.apart⟩,
    fun a ha b hb hlt m => ?_⟩
  · obtain rfl := h.only hp q (by rw [hq]; rfl)
    obtain rfl := Option.some.inj (hp.symm.trans hq)
    refine ⟨fresh, total, fun row hrow m => ?_, loaded, fun sampling' hs m hm' row hrow => ?_⟩
    · obtain ⟨-, hcounted, hboth⟩ := loaded sampling rfl m (hall m)
      rcases List.mem_cons.mp hrow with rfl | hold
      · exact ⟨hcounted, fun _ => hboth, fun hne => absurd rfl hne⟩
      · exact sinceRow row hold m
    · rcases List.mem_cons.mp hrow with rfl | hold
      · obtain rfl := Option.some.inj hs
        exact ⟨Nat.le_refl _, fun _ => rfl, fun hne => absurd rfl hne⟩
      · exact loadedSinceRow sampling' hs m hm' row hold
  · rcases List.mem_cons.mp hrow with rfl | hold
    · exact ⟨fresh, Int.le_refl _, fun m => (loaded sampling rfl m (hall m)).1,
        fun m => (loaded sampling rfl m (hall m)).2.1⟩
    · obtain ⟨wrote, past, total, counted⟩ := h.rows row hold
      exact ⟨wrote, past, total, counted⟩
  · rcases List.mem_cons.mp ha with rfl | ha
    · -- The new row is not earlier than any.
      rcases List.mem_cons.mp hb with rfl | hb
      · exact absurd hlt (lt_irrefl _)
      · exact absurd (h.rows b hb).past (not_le.mpr hlt)
    · rcases List.mem_cons.mp hb with rfl | hb
      · exact loadedSinceRow sampling rfl m (hall m) a ha
      · exact h.rowSinceRow a ha b hb hlt m

/-- The sampler waits for its next tick. -/
theorem UsageInv.done (h : UsageInv s) (hp : s.processes p = some ⟨totals, some sampling⟩) :
    UsageInv (s.setProcess p (some ⟨totals, none⟩)) := by
  obtain ⟨fresh, total, sinceRow, -, -⟩ := h.processes p _ hp
  refine h.setProcess p (fun _ => Nat.le_refl _) (Nat.le_refl _) (h.only hp) fun next hnext => ?_
  obtain rfl := Option.some.inj hnext
  exact ⟨fresh, total, sinceRow, fun _ hnone => by simp at hnone, fun _ hnone => by simp at hnone⟩

/-- A process stops. -/
theorem UsageInv.stop (h : UsageInv s) (p : Nat) : UsageInv (s.setProcess p none) where
  processes := fun q next hq => by
    rcases PartialMap.update_eq_some_iff.mp hq with ⟨-, hnone⟩ | ⟨-, hold⟩
    · exact absurd hnone (by simp)
    · obtain ⟨fresh, total, sinceRow, loaded, loadedSinceRow⟩ := h.processes q next hold
      exact ⟨fresh, total, sinceRow, loaded, loadedSinceRow⟩
  alone := fun q q' hq hq' => by
    have hold : ∀ r, (Function.update s.processes p none r).isSome → (s.processes r).isSome := by
      intro r hr
      obtain ⟨next, hnext⟩ := Option.isSome_iff_exists.mp hr
      rcases PartialMap.update_eq_some_iff.mp hnext with ⟨-, hnone⟩ | ⟨-, hold⟩
      · exact absurd hnone (by simp)
      · rw [hold]; rfl
    exact h.alone q q' (hold q hq) (hold q' hq')
  rows := fun row hrow => ⟨(h.rows row hrow).wrote, (h.rows row hrow).past,
    (h.rows row hrow).total, (h.rows row hrow).counted⟩
  apart := h.apart
  rowSinceRow := h.rowSinceRow

/-- Time passes. -/
theorem UsageInv.tick (h : UsageInv s) (d : Nat) : UsageInv { s with clock := s.clock + d } where
  processes := fun p process hp => by
    obtain ⟨fresh, total, sinceRow, loaded, loadedSinceRow⟩ := h.processes p process hp
    exact ⟨fresh, total, sinceRow, loaded, loadedSinceRow⟩
  alone := h.alone
  rows := fun row hrow => by
    obtain ⟨wrote, past, total, counted⟩ := h.rows row hrow
    refine ⟨wrote, ?_, total, counted⟩
    dsimp only
    omega
  apart := h.apart
  rowSinceRow := h.rowSinceRow

end Steps

/-- **The step lemma.** -/
theorem usageInv_step {s s' : UsageState} {a : UsageAction} (h : UsageInv s)
    (hguard : OneAtATime s a) (hstep : usageStep s a = some s') : UsageInv s' := by
  cases usageMove_of_step hstep with
  | start => exact h.start hguard
  | stop p => exact h.stop p
  | record p what process hp => exact h.record what.measure hp
  | sample p storageBytes totals hp => exact h.sample hp storageBytes
  | follow p storageBytes => exact h
  | load p totals sampling m rest hp hm => exact h.load hp hm
  | insert p ending totals sampling hp hm =>
      cases hending : ending.executes with
      | true => exact (h.insertRow hp hm hguard).done hp
      | false => exact h.done hp
  | tick d => exact h.tick d

/-- **The run lemma.** -/
theorem usageInv_run {clock : Int} {actions : List UsageAction} {s : UsageState}
    (hrun : run usageStep (UsageState.empty clock) actions = some s)
    (hguard : Guarded usageStep OneAtATime (UsageState.empty clock) actions) : UsageInv s :=
  guarded_run_invariant (fun _ _ _ h hg hstep => usageInv_step h hg hstep)
    (usageInv_empty clock) hguard hrun

/-! ### The chart -/

section Chart

variable {s : UsageState} {since : Int} {shown : List SampleRow}

/-- A row of an answer is one of the table. -/
theorem AnswersSince.mem (h : AnswersSince s since shown) {row : SampleRow} (hrow : row ∈ shown) :
    row ∈ s.rows :=
  List.mem_of_mem_filter (h.perm.mem_iff.mp hrow)

/-- The rows of an answer are later and later. -/
theorem UsageInv.later (hinv : UsageInv s) (h : AnswersSince s since shown) :
    shown.Pairwise fun a b => a.timestamp < b.timestamp := by
  have hapart : shown.Pairwise fun a b => a.timestamp ≠ b.timestamp :=
    (h.perm.pairwise_iff fun hne => hne.symm).mpr (hinv.apart.filter _)
  exact (h.sorted.and hapart).imp fun hab => lt_of_le_of_ne hab.1 hab.2

/-- Each row has been read after the ones before it. -/
theorem UsageInv.readAfter (hinv : UsageInv s) (h : AnswersSince s since shown) (m : Measure) :
    shown.Pairwise fun a b => ReadAfter a m b.process (b.totals m) (b.counted m) :=
  (hinv.later h).imp_of_mem fun ha hb hlt => hinv.rowSinceRow _ (h.mem ha) _ (h.mem hb) hlt m

/-- What was counted in all between two rows. -/
def countedBetween (m : Measure) (a b : SampleRow) : Int := (b.counted m : Int) - a.counted m

/-- A counter that goes on shows what was counted. -/
theorem ReadAfter.increase_eq {a b : SampleRow} {m : Measure}
    (h : ReadAfter a m b.process (b.totals m) (b.counted m)) (hsame : a.process = b.process) :
    increase (a.totals m) (b.totals m) = countedBetween m a b := by
  have hle := h.counted_le
  have heq := h.same hsame
  rw [increase, countedBetween]
  omega

/-- A counter shows no more than was counted. -/
theorem ReadAfter.increase_le {a b : SampleRow} {m : Measure}
    (h : ReadAfter a m b.process (b.totals m) (b.counted m)) :
    increase (a.totals m) (b.totals m) ≤ countedBetween m a b := by
  by_cases hsame : a.process = b.process
  · exact le_of_eq (h.increase_eq hsame)
  · have hle := h.other hsame
    have hcounted := h.counted_le
    rw [increase, countedBetween]
    omega

/-- A listing goes back one day at least, and a year at most. -/
theorem historyDays_bounds (query : String) : 0 < historyDays query ∧ historyDays query ≤ 365 := by
  rw [historyDays]
  split <;> omega

end Chart

/-- **The usage chart.** Where one process runs at a time, and no two rows are written at one
instant, every bar shows at most what was counted between its two rows, and exactly that if one
process wrote both; so do all bars together. No row tells of more than was counted. -/
theorem usage_chart {clock : Int} {actions : List UsageAction} {s : UsageState}
    (hrun : run usageStep (UsageState.empty clock) actions = some s)
    (hguard : Guarded usageStep OneAtATime (UsageState.empty clock) actions)
    {now : Int} {query : String} {shown : List SampleRow}
    (hshown : AnswersSince s (historySince now query) shown) (m : Measure) :
    (∀ i a b, shown[i]? = some a → shown[i + 1]? = some b →
      ∃ bar, (bars shown m)[i]? = some bar ∧ 0 ≤ bar ∧ bar ≤ countedBetween m a b ∧
        (a.process = b.process → bar = countedBetween m a b)) ∧
      (∀ first last, shown.head? = some first → shown.getLast? = some last →
        (bars shown m).sum ≤ countedBetween m first last ∧
          ((∀ row ∈ shown, row.process = first.process) →
            (bars shown m).sum = countedBetween m first last)) ∧
      ∀ row ∈ shown, now - 365 * dayNanos ≤ row.timestamp ∧ row.totals m ≤ row.counted m ∧
        row.counted m ≤ actions.countP fun a => a.counts m := by
  have hinv := usageInv_run hrun hguard
  have hread := hinv.readAfter hshown m
  refine ⟨fun i a b ha hb => ?_, fun first last hfirst hlast => ?_, fun row hrow => ⟨?_, ?_⟩⟩
  · have hab : ReadAfter a m b.process (b.totals m) (b.counted m) := by
      obtain ⟨hi, rfl⟩ := List.getElem?_eq_some_iff.mp ha
      obtain ⟨hj, rfl⟩ := List.getElem?_eq_some_iff.mp hb
      exact List.pairwise_iff_getElem.mp hread i (i + 1) hi hj (Nat.lt_succ_self i)
    rw [bars_eq_steps]
    exact ⟨_, getElem?_steps ha hb, le_max_left _ _, hab.increase_le, hab.increase_eq⟩
  · obtain ⟨rest, rfl⟩ := List.head?_eq_some_iff.mp hfirst
    rw [bars_eq_steps]
    refine ⟨sum_steps_le hlast (hread.isChain.imp fun _ _ hab => hab.increase_le), fun hall => ?_⟩
    refine sum_steps_eq (g := fun row => (row.counted m : Int)) hlast (List.Pairwise.isChain ?_)
    exact hread.imp_of_mem fun ha hb hab => hab.increase_eq ((hall _ ha).trans (hall _ hb).symm)
  · have hsince : historySince now query ≤ row.timestamp := by
      simpa using (List.mem_filter.mp (hshown.perm.mem_iff.mp hrow)).2
    have hdays := (historyDays_bounds query).2
    rw [historySince, dayNanos] at hsince
    rw [dayNanos]
    omega
  · obtain ⟨-, -, htotal, hcounted⟩ := hinv.rows row (hshown.mem hrow)
    rw [← counted_eq_countP hrun m]
    exact ⟨htotal m, hcounted m⟩

/-- The actions that write a row. -/
def exampleRow (p : Nat) : List UsageAction :=
  [.sample p true 0, .load p, .load p, .load p, .load p, .insert p .done, .tick 600]

/-- A process that counts, and one that takes its place, each with rows of its own. -/
def exampleUsage : List UsageAction :=
  [.start, .record 0 (.loginAttempt "success"), .record 0 (.loginAttempt "success")] ++
    exampleRow 0 ++ [.record 0 (.loginAttempt "success"), .record 0 (.loginAttempt "locked_out")] ++
    exampleRow 0 ++ [.stop 0, .start, .record 1 (.loginAttempt "success")] ++ exampleRow 1

/-- Two processes at once, whose rows take turns. -/
def exampleTwoAtOnce : List UsageAction :=
  [.start, .start, .record 0 (.loginAttempt "success")] ++
    exampleRow 1 ++ exampleRow 0 ++ exampleRow 1 ++ exampleRow 0

/-- What a chart of all rows shows of a counter, and what was counted in all between the first
and the last of them. -/
def chartOf (s : UsageState) (m : Measure) : Option (Int × Int) :=
  s.rows.getLast?.bind fun first => s.rows.head?.map fun last =>
    ((bars s.rows.reverse m).sum, countedBetween m first last)

/-- A restart is shown too low and never too high; with two processes at once a chart shows what
nobody counted. -/
theorem usage_chart_example :
    (∃ s, run usageStep (UsageState.empty 0) exampleUsage = some s ∧
      ∃ shown counted, chartOf s .loginSuccess = some (shown, counted) ∧ shown ≤ counted) ∧
      (run usageStep (UsageState.empty 0) exampleTwoAtOnce).bind
        (fun s => chartOf s .loginSuccess) = some (2, 0) := by
  have hsome : (run usageStep (UsageState.empty 0) exampleUsage).isSome := by decide +kernel
  have hguard : Guarded usageStep OneAtATime (UsageState.empty 0) exampleUsage := by
    decide +kernel
  obtain ⟨s, hs⟩ := Option.isSome_iff_exists.mp hsome
  have hfacts : (run usageStep (UsageState.empty 0) exampleUsage).map (fun s =>
      decide (s.rows.reverse.Pairwise Earlier ∧
        (∀ row ∈ s.rows, historySince 0 "" ≤ row.timestamp) ∧ s.rows ≠ [])) = some true := by
    decide +kernel
  rw [hs, Option.map_some, Option.some.injEq, decide_eq_true_iff] at hfacts
  obtain ⟨hsorted, hwindow, hne⟩ := hfacts
  have hshown : AnswersSince s (historySince 0 "") s.rows.reverse := by
    rw [AnswersSince, List.filter_eq_self.mpr (by simpa using hwindow)]
    exact ⟨s.rows.reverse_perm, hsorted⟩
  have hchart := (usage_chart hs hguard hshown .loginSuccess).2.1
    (s.rows.getLast hne) (s.rows.head hne)
    (by rw [List.head?_reverse, List.getLast?_eq_getLast_of_ne_nil hne])
    (by rw [List.getLast?_reverse, List.head?_eq_some_head hne])
  refine ⟨⟨s, hs, _, _, ?_, hchart.1⟩, by decide +kernel⟩
  rw [chartOf, List.getLast?_eq_getLast_of_ne_nil hne, List.head?_eq_some_head hne]
  rfl

end IdpForge
