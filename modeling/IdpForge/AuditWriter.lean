import IdpForge.TransitionSystem

/-!
# The Audit Writer

`Log` puts entries into a bounded queue from any number of goroutines, and one loop takes
them out, collects them in a batch and hands the batch to `insertBatch` when it is full, when
the ticker fires and when the loop shuts down. The loop's `select` takes any case that is
ready. An entry logged while the loop waits goes to the loop without a place in the queue.

Two ghosts are kept: the entries in the order in which they were put into the queue, and
that list at the first `Stop` or cancellation.

## Main results

* `auditInv_step`: what was handed over, the batch and the queue make up what was queued.
* `auditWork_step`: a step of the loop uses up work, and any other step adds at most two.
* `audit_queue_exactly_once`: entries are handed over in order and once, and those queued
  before the shutdown all are by its end, which comes.
-/

open TransitionSystem

namespace IdpForge

/-- An `audit.Entry`. The zero `Timestamp` is `none`. -/
structure AuditEntry where
  actorID : String
  actorIP : String
  actorUserAgent : String
  action : String
  targetResource : String
  targetApp : String
  beforeState : String
  afterState : String
  status : String
  traceID : String
  timestamp : Option Int
  deriving DecidableEq, Repr

/-- `Log` fills in the time of an entry that has none. -/
def AuditEntry.stamped (e : AuditEntry) (now : Int) : AuditEntry :=
  { e with timestamp := some (e.timestamp.getD now) }

/-- The sizes `NewWriter` is given. -/
structure AuditConfig where
  queueSize : Nat
  batchSize : Nat

/-- Where the loop stands. -/
inductive AuditStage where
  /-- The goroutine is started and has not run. -/
  | starting
  /-- In the `select` of the loop. -/
  | selecting
  /-- In `insertBatch`, called by a `flush` after which the loop goes on, or leaves. -/
  | inserting (leaving : Bool)
  /-- In `drain`. -/
  | draining
  | finished
  deriving DecidableEq, Repr

/-- The writer, the batches handed to `insertBatch`, and the two ghosts. -/
structure AuditWriter where
  queue : List AuditEntry
  batch : List AuditEntry
  stage : AuditStage
  tickReady : Bool
  stopped : Bool
  cancelled : Bool
  handed : List (List AuditEntry)
  queued : List AuditEntry
  queuedBefore : Option (List AuditEntry)

/-- A writer whose loop has just been started. -/
def AuditWriter.start : AuditWriter where
  queue := []
  batch := []
  stage := .starting
  tickReady := false
  stopped := false
  cancelled := false
  handed := []
  queued := []
  queuedBefore := none

/-- The steps of the loop: it enters the `select`, takes one of its four cases (the two that
end it are one), comes back from `insertBatch`, or takes a case of the `select` of `drain`. -/
inductive LoopStep where
  | begin
  | done
  | receive
  | tick
  | inserted
  | drain
  | drained
  deriving DecidableEq, Repr

/-- A `Log` call, which finds the loop waiting or not, the ticker, the two ways to end the
loop, or a step of the loop. -/
inductive AuditAction where
  | log (now : Int) (e : AuditEntry)
  | logWaiting (now : Int) (e : AuditEntry)
  | ticker
  | stop
  | cancel
  | loop (l : LoopStep)
  deriving DecidableEq, Repr

/-- The action is the loop's own. -/
def AuditAction.isLoop : AuditAction → Bool
  | .loop _ => true
  | _ => false

namespace AuditWriter

variable (cfg : AuditConfig) (w : AuditWriter)

/-- The send of `Log`, which drops the entry when the queue is full. -/
def log (e : AuditEntry) : AuditWriter :=
  if w.queue.length < cfg.queueSize then
    { w with queue := w.queue ++ [e], queued := w.queued ++ [e] }
  else w

/-- The loop waits in its `select`, none of whose cases is ready. -/
def Waiting : Prop :=
  w.stage = .selecting ∧ w.queue = [] ∧ w.tickReady = false ∧ w.stopped = false ∧
    w.cancelled = false

instance : Decidable w.Waiting := inferInstanceAs (Decidable (_ ∧ _ ∧ _ ∧ _ ∧ _))

/-- `flush`, up to the call of `insertBatch` if there is something to insert. -/
def flush (leaving : Bool) : AuditWriter :=
  match w.batch with
  | [] => { w with stage := if leaving then .finished else .selecting }
  | _ :: _ => { w with stage := .inserting leaving, handed := w.handed ++ [w.batch] }

/-- The case of the `select` that receives an entry. -/
def receive (e : AuditEntry) : AuditWriter :=
  let w := { w with batch := w.batch ++ [e] }
  if cfg.batchSize ≤ w.batch.length then w.flush false else w

/-- The entries queued before the shutdown are noted when it begins. -/
def shutdown : AuditWriter :=
  { w with queuedBefore := some (w.queuedBefore.getD w.queued) }

/-- A step of the loop. -/
def loopStep : LoopStep → Option AuditWriter
  | .begin => if w.stage = .starting then some { w with stage := .selecting } else none
  | .done =>
      if w.stage = .selecting ∧ (w.stopped ∨ w.cancelled) then
        some { w with stage := .draining }
      else none
  | .receive =>
      match w.stage, w.queue with
      | .selecting, e :: rest => some ({ w with queue := rest }.receive cfg e)
      | _, _ => none
  | .tick =>
      if w.stage = .selecting ∧ w.tickReady then
        some ({ w with tickReady := false }.flush false)
      else none
  | .inserted =>
      match w.stage with
      | .inserting leaving =>
          -- `batch = batch[:0]`
          some { w with batch := [], stage := if leaving then .finished else .selecting }
      | _ => none
  | .drain =>
      match w.stage, w.queue with
      | .draining, e :: rest => some { w with queue := rest, batch := w.batch ++ [e] }
      | _, _ => none
  | .drained => if w.stage = .draining ∧ w.queue = [] then some (w.flush true) else none

end AuditWriter

/-- The step function. The channel of the ticker keeps one tick; a second `Stop` panics. -/
def auditStep (cfg : AuditConfig) (w : AuditWriter) : AuditAction → Option AuditWriter
  | .log now e => some (w.log cfg (e.stamped now))
  | .logWaiting now e =>
      if w.Waiting then
        some ({ w with queued := w.queued ++ [e.stamped now] }.receive cfg (e.stamped now))
      else none
  | .ticker => some { w with tickReady := true }
  | .stop => if w.stopped then none else some { w.shutdown with stopped := true }
  | .cancel => some { w.shutdown with cancelled := true }
  | .loop l => w.loopStep cfg l

/-! ### The order of the entries -/

namespace AuditWriter

variable {cfg : AuditConfig} {w w' : AuditWriter}

/-- The part of the batch that is not handed over. -/
def kept (w : AuditWriter) : List AuditEntry :=
  match w.stage with
  | .inserting _ => []
  | _ => w.batch

/-- The loop is on its way out. -/
def leaving (w : AuditWriter) : Bool :=
  match w.stage with
  | .draining => true
  | .inserting leaving => leaving
  | .finished => true
  | _ => false

/-- Nothing that was queued before the shutdown is left. -/
def Flushed (w : AuditWriter) : Prop :=
  ∀ before, w.queuedBefore = some before → before <+: w.handed.flatten

end AuditWriter

/-- The invariant. What was handed over, the rest of the batch and the queue are what was
queued, in this order; the shutdown was asked for before the loop leaves; and when the last
batch is handed over, all that was queued before the shutdown is. -/
structure AuditInv (w : AuditWriter) : Prop where
  inOrder : w.handed.flatten ++ w.kept ++ w.queue = w.queued
  before : ∀ before, w.queuedBefore = some before → before <+: w.queued
  asked : w.queuedBefore.isSome ↔ w.stopped = true ∨ w.cancelled = true
  leaving : w.leaving = true → w.queuedBefore.isSome
  flushed : w.stage = .inserting true ∨ w.stage = .finished → w.Flushed

section Invariant

variable {cfg : AuditConfig} {w w' : AuditWriter} {e : AuditEntry}

/-- A new writer satisfies the invariant. -/
theorem auditInv_start : AuditInv AuditWriter.start where
  inOrder := rfl
  before := by simp [AuditWriter.start]
  asked := by simp [AuditWriter.start]
  leaving := by simp [AuditWriter.start, AuditWriter.leaving]
  flushed := by simp [AuditWriter.start]

/-- The `send` of `Log` puts the entry last, or drops it. -/
theorem AuditInv.log (h : AuditInv w) (e : AuditEntry) : AuditInv (w.log cfg e) := by
  rw [AuditWriter.log]
  split
  · refine ⟨?_, fun before hbefore => ?_, h.asked, h.leaving, h.flushed⟩
    · have hold := h.inOrder
      calc w.handed.flatten ++ w.kept ++ (w.queue ++ [e])
          = w.handed.flatten ++ w.kept ++ w.queue ++ [e] := by simp only [List.append_assoc]
        _ = w.queued ++ [e] := by rw [hold]
    · exact (h.before before hbefore).trans (List.prefix_append ..)
  · exact h

/-- A tick changes nothing the invariant speaks of. -/
theorem AuditInv.setTick (h : AuditInv w) (ready : Bool) :
    AuditInv { w with tickReady := ready } :=
  ⟨h.inOrder, h.before, h.asked, h.leaving, h.flushed⟩

/-- What is noted at the shutdown was noted before, or is all that is queued. -/
theorem shutdown_queuedBefore {before : List AuditEntry}
    (h : w.shutdown.queuedBefore = some before) :
    w.queuedBefore = some before ∨ (w.queuedBefore = none ∧ w.queued = before) := by
  cases hold : w.queuedBefore with
  | none => exact .inr ⟨rfl, by simpa [AuditWriter.shutdown, hold] using h⟩
  | some old => exact .inl (by simpa [AuditWriter.shutdown, hold] using h)

/-- The shutdown begins: what is queued by then is noted once. -/
theorem AuditInv.shutdown (h : AuditInv w) {stopped cancelled : Bool}
    (hasked : stopped = true ∨ cancelled = true) :
    AuditInv { w.shutdown with stopped := stopped, cancelled := cancelled } := by
  refine ⟨h.inOrder, fun before hbefore => ?_, ⟨fun _ => hasked, fun _ => rfl⟩, fun _ => rfl,
    fun hstage before hbefore => ?_⟩
  · rcases shutdown_queuedBefore hbefore with hold | ⟨-, rfl⟩
    · exact h.before before hold
    · exact List.prefix_refl _
  · have hleaving : w.leaving = true := by
      have hat : w.stage = .inserting true ∨ w.stage = .finished := hstage
      rcases hat with hat | hat <;> simp [AuditWriter.leaving, hat]
    have hnoted := h.leaving hleaving
    rcases shutdown_queuedBefore hbefore with hold | ⟨hnone, -⟩
    · exact h.flushed hstage before hold
    · simp [hnone] at hnoted

/-- A `flush` in the loop hands the whole batch over. -/
theorem AuditInv.flush_false (h : AuditInv w) (hstage : w.stage = .selecting) :
    AuditInv (w.flush false) := by
  have hkept : w.kept = w.batch := by simp [AuditWriter.kept, hstage]
  have horder := h.inOrder
  rw [hkept] at horder
  rw [AuditWriter.flush]
  split
  case h_1 hbatch =>
    refine ⟨?_, h.before, h.asked, fun hleaving => ?_, fun hend => ?_⟩
    · simpa [AuditWriter.kept, hbatch] using horder
    · simp [AuditWriter.leaving] at hleaving
    · simp at hend
  case h_2 =>
    refine ⟨?_, h.before, h.asked, fun hleaving => ?_, fun hend => ?_⟩
    · simpa [AuditWriter.kept] using horder
    · simp [AuditWriter.leaving] at hleaving
    · simp at hend

/-- The last `flush` finds an empty queue and hands over all that is left. -/
theorem AuditInv.flush_true (h : AuditInv w) (hstage : w.stage = .draining)
    (hqueue : w.queue = []) : AuditInv (w.flush true) := by
  have hkept : w.kept = w.batch := by simp [AuditWriter.kept, hstage]
  have horder : w.handed.flatten ++ w.batch = w.queued := by
    simpa [hkept, hqueue] using h.inOrder
  have hasked : w.queuedBefore.isSome := h.leaving (by simp [AuditWriter.leaving, hstage])
  have hall : ∀ before, w.queuedBefore = some before → before <+: w.handed.flatten ++ w.batch := by
    rw [horder]
    exact h.before
  rw [AuditWriter.flush]
  split
  case h_1 hbatch =>
    refine ⟨?_, h.before, h.asked, fun _ => hasked, fun _ before hbefore => ?_⟩
    · simpa [AuditWriter.kept, hbatch, hqueue] using horder
    · simpa [hbatch] using hall before hbefore
  case h_2 =>
    refine ⟨?_, h.before, h.asked, fun _ => hasked, fun _ before hbefore => ?_⟩
    · simpa [AuditWriter.kept, hqueue] using horder
    · simpa using hall before hbefore

/-- The loop receives an entry, and flushes when the batch is full. -/
theorem AuditInv.receive (h : AuditInv { w with batch := w.batch ++ [e] })
    (hstage : w.stage = .selecting) : AuditInv (w.receive cfg e) := by
  rw [AuditWriter.receive]
  dsimp only
  split
  · exact h.flush_false hstage
  · exact h

/-- The steps of the loop. -/
theorem loopStep_cases {l : LoopStep} (hstep : w.loopStep cfg l = some w') :
    (w.stage = .starting ∧ w' = { w with stage := .selecting }) ∨
    (w.stage = .selecting ∧ (w.stopped = true ∨ w.cancelled = true) ∧
      w' = { w with stage := .draining }) ∨
    (∃ e rest, w.stage = .selecting ∧ w.queue = e :: rest ∧
      w' = { w with queue := rest }.receive cfg e) ∨
    (w.stage = .selecting ∧ w.tickReady = true ∧
      w' = { w with tickReady := false }.flush false) ∨
    (∃ leaving, w.stage = .inserting leaving ∧
      w' = { w with batch := [], stage := if leaving then .finished else .selecting }) ∨
    (∃ e rest, w.stage = .draining ∧ w.queue = e :: rest ∧
      w' = { w with queue := rest, batch := w.batch ++ [e] }) ∨
    (w.stage = .draining ∧ w.queue = [] ∧ w' = w.flush true) := by
  cases l with
  | begin =>
      obtain ⟨hstage, heq⟩ := Option.ite_none_right_eq_some.mp hstep
      exact .inl ⟨hstage, (Option.some.inj heq).symm⟩
  | done =>
      obtain ⟨⟨hstage, hasked⟩, heq⟩ := Option.ite_none_right_eq_some.mp hstep
      exact .inr (.inl ⟨hstage, hasked, (Option.some.inj heq).symm⟩)
  | receive =>
      rw [AuditWriter.loopStep] at hstep
      split at hstep
      case h_1 e rest hstage hqueue =>
        exact .inr (.inr (.inl ⟨e, rest, hstage, hqueue, (Option.some.inj hstep).symm⟩))
      case h_2 => simp at hstep
  | tick =>
      obtain ⟨⟨hstage, hready⟩, heq⟩ := Option.ite_none_right_eq_some.mp hstep
      exact .inr (.inr (.inr (.inl ⟨hstage, hready, (Option.some.inj heq).symm⟩)))
  | inserted =>
      rw [AuditWriter.loopStep] at hstep
      split at hstep
      case h_1 leaving hstage =>
        exact .inr (.inr (.inr (.inr (.inl ⟨leaving, hstage, (Option.some.inj hstep).symm⟩))))
      case h_2 => simp at hstep
  | drain =>
      rw [AuditWriter.loopStep] at hstep
      split at hstep
      case h_1 e rest hstage hqueue =>
        refine .inr (.inr (.inr (.inr (.inr (.inl ⟨e, rest, hstage, hqueue, ?_⟩)))))
        exact (Option.some.inj hstep).symm
      case h_2 => simp at hstep
  | drained =>
      obtain ⟨⟨hstage, hqueue⟩, heq⟩ := Option.ite_none_right_eq_some.mp hstep
      refine .inr (.inr (.inr (.inr (.inr (.inr ⟨hstage, hqueue, ?_⟩)))))
      exact (Option.some.inj heq).symm

/-- The steps. The ticker and the shutdown touch nothing else. -/
theorem auditStep_cases {a : AuditAction} (hstep : auditStep cfg w a = some w') :
    (∃ now e, a = .log now e ∧ w' = w.log cfg (e.stamped now)) ∨
    (∃ now e, a = .logWaiting now e ∧ w.Waiting ∧
      w' = { w with queued := w.queued ++ [e.stamped now] }.receive cfg (e.stamped now)) ∨
    (∃ l, a = .loop l ∧ w.loopStep cfg l = some w') ∨
    (a = .ticker ∧ w' = { w with tickReady := true }) ∨
    (∃ stopped cancelled, a.isLoop = false ∧ (stopped = true ∨ cancelled = true) ∧
      w' = { w.shutdown with stopped := stopped, cancelled := cancelled }) := by
  cases a with
  | log now e => exact .inl ⟨now, e, rfl, (Option.some.inj hstep).symm⟩
  | logWaiting now e =>
      obtain ⟨hwaiting, heq⟩ := Option.ite_none_right_eq_some.mp hstep
      exact .inr (.inl ⟨now, e, rfl, hwaiting, (Option.some.inj heq).symm⟩)
  | loop l => exact .inr (.inr (.inl ⟨l, rfl, hstep⟩))
  | ticker => exact .inr (.inr (.inr (.inl ⟨rfl, (Option.some.inj hstep).symm⟩)))
  | stop =>
      obtain ⟨-, heq⟩ := Option.ite_none_left_eq_some.mp hstep
      refine .inr (.inr (.inr (.inr ⟨true, w.cancelled, rfl, .inl rfl, ?_⟩)))
      exact (Option.some.inj heq).symm
  | cancel =>
      refine .inr (.inr (.inr (.inr ⟨w.stopped, true, rfl, .inr rfl, ?_⟩)))
      exact (Option.some.inj hstep).symm

/-- A step of the loop keeps the invariant. -/
theorem auditInv_loopStep {l : LoopStep} (h : AuditInv w) (hstep : w.loopStep cfg l = some w') :
    AuditInv w' := by
  have horder := h.inOrder
  rcases loopStep_cases hstep with ⟨hstage, rfl⟩ | ⟨hstage, hasked, rfl⟩ |
    ⟨e, rest, hstage, hqueue, rfl⟩ | ⟨hstage, -, rfl⟩ | ⟨leaving, hstage, rfl⟩ |
    ⟨e, rest, hstage, hqueue, rfl⟩ | ⟨hstage, hqueue, rfl⟩
  · rw [AuditWriter.kept, hstage] at horder
    exact ⟨horder, h.before, h.asked, by simp [AuditWriter.leaving], by simp⟩
  · rw [AuditWriter.kept, hstage] at horder
    exact ⟨horder, h.before, h.asked, fun _ => h.asked.mpr hasked, by simp⟩
  · refine AuditInv.receive ?_ hstage
    refine ⟨?_, h.before, h.asked, h.leaving, h.flushed⟩
    rw [AuditWriter.kept, hstage, hqueue] at horder
    simpa [AuditWriter.kept, hstage] using horder
  · exact (h.setTick false).flush_false hstage
  · -- the batch was handed over before the call
    rw [AuditWriter.kept, hstage] at horder
    cases leaving with
    | false =>
        exact ⟨by simpa [AuditWriter.kept] using horder, h.before, h.asked,
          by simp [AuditWriter.leaving], by simp⟩
    | true =>
        have hasked : w.queuedBefore.isSome := h.leaving (by simp [AuditWriter.leaving, hstage])
        exact ⟨by simpa [AuditWriter.kept] using horder, h.before, h.asked, fun _ => hasked,
          fun _ => h.flushed (.inl hstage)⟩
  · refine ⟨?_, h.before, h.asked, h.leaving, h.flushed⟩
    rw [AuditWriter.kept, hstage, hqueue] at horder
    simpa [AuditWriter.kept, hstage] using horder
  · exact h.flush_true hstage hqueue

/-- Every step keeps the invariant. -/
theorem auditInv_step {a : AuditAction} (h : AuditInv w) (hstep : auditStep cfg w a = some w') :
    AuditInv w' := by
  rcases auditStep_cases hstep with ⟨now, e, -, rfl⟩ | ⟨now, e, -, ⟨hstage, hqueue, -⟩, rfl⟩ |
    ⟨l, -, hloop⟩ | ⟨-, rfl⟩ | ⟨stopped, cancelled, -, hasked, rfl⟩
  · exact h.log _
  · refine AuditInv.receive ⟨?_, fun before hbefore => ?_, h.asked, h.leaving, h.flushed⟩ hstage
    · have horder := h.inOrder
      rw [AuditWriter.kept, hstage, hqueue, List.append_nil] at horder
      simp [AuditWriter.kept, hstage, hqueue, ← horder]
    · exact (h.before before hbefore).trans (List.prefix_append ..)
  · exact auditInv_loopStep h hloop
  · exact h.setTick true
  · exact h.shutdown hasked

end Invariant

/-! ### The end of the loop -/

/-- The weight of a stage: how many steps lie between it and the end of the loop when there
is nothing to receive. -/
def AuditStage.weight : AuditStage → Nat
  | .starting => 4
  | .inserting false => 4
  | .selecting => 3
  | .draining => 2
  | .inserting true => 1
  | .finished => 0

/-- The work the loop has before it: an entry or a tick costs two steps at most. -/
def AuditWriter.work (w : AuditWriter) : Nat :=
  2 * w.queue.length + 2 * w.tickReady.toNat + w.stage.weight

section Work

variable {cfg : AuditConfig} {w w' : AuditWriter}

/-- A `flush` in the loop makes one more step. -/
theorem work_flush_false (hstage : w.stage = .selecting) : (w.flush false).work ≤ w.work + 1 := by
  rw [AuditWriter.flush]
  split <;> simp [AuditWriter.work, AuditStage.weight, hstage]

/-- Receiving an entry makes one more step. -/
theorem work_receive (hstage : w.stage = .selecting) (e : AuditEntry) :
    (w.receive cfg e).work ≤ w.work + 1 := by
  rw [AuditWriter.receive]
  dsimp only
  split
  · exact work_flush_false (w := { w with batch := w.batch ++ [e] }) hstage
  · exact Nat.le_succ _

/-- A step of the loop uses up work. -/
theorem work_loopStep {l : LoopStep} (hstep : w.loopStep cfg l = some w') : w'.work < w.work := by
  rcases loopStep_cases hstep with ⟨hstage, rfl⟩ | ⟨hstage, -, rfl⟩ |
    ⟨e, rest, hstage, hqueue, rfl⟩ | ⟨hstage, hready, rfl⟩ | ⟨leaving, hstage, rfl⟩ |
    ⟨e, rest, hstage, hqueue, rfl⟩ | ⟨hstage, hqueue, rfl⟩
  · simp [AuditWriter.work, AuditStage.weight, hstage]
  · simp [AuditWriter.work, AuditStage.weight, hstage]
  · have hreceive := @work_receive cfg { w with queue := rest } hstage e
    have hlength : w.queue.length = rest.length + 1 := by simp [hqueue]
    simp only [AuditWriter.work] at hreceive ⊢
    omega
  · have hflush := work_flush_false (w := { w with tickReady := false }) hstage
    simp only [AuditWriter.work, hready, Bool.toNat_false, Bool.toNat_true] at hflush ⊢
    omega
  · cases leaving <;> simp [AuditWriter.work, AuditStage.weight, hstage]
  · have hlength : w.queue.length = rest.length + 1 := by simp [hqueue]
    simp only [AuditWriter.work]
    omega
  · rw [AuditWriter.flush]
    split <;> simp [AuditWriter.work, AuditStage.weight, hstage]

/-- A step of the loop uses up work, and any other step adds at most two. -/
theorem auditWork_step {a : AuditAction} (hstep : auditStep cfg w a = some w') :
    w'.work + a.isLoop.toNat ≤ w.work + 2 * (!a.isLoop).toNat := by
  rcases auditStep_cases hstep with ⟨now, e, rfl, rfl⟩ | ⟨now, e, rfl, ⟨hstage, -⟩, rfl⟩ |
    ⟨l, rfl, hloop⟩ | ⟨rfl, rfl⟩ | ⟨stopped, cancelled, hother, -, rfl⟩
  · rw [AuditWriter.log]
    split
    · simp only [AuditWriter.work, AuditAction.isLoop, List.length_append, List.length_singleton,
        Bool.not_false, Bool.toNat_false, Bool.toNat_true]
      omega
    · simp [AuditAction.isLoop]
  · have hreceive := @work_receive cfg { w with queued := w.queued ++ [e.stamped now] } hstage
      (e.stamped now)
    simp only [AuditWriter.work, AuditAction.isLoop, Bool.not_false, Bool.toNat_false,
      Bool.toNat_true] at hreceive ⊢
    omega
  · exact work_loopStep hloop
  · simp only [AuditWriter.work, AuditAction.isLoop, Bool.not_false, Bool.toNat_false,
      Bool.toNat_true]
    omega
  · rw [hother]
    exact Nat.le_add_right ..

/-- The steps of the loop in a run are paid for by the work at its beginning and the other
actions. -/
theorem auditWork_run {as : List AuditAction} (hrun : run (auditStep cfg) w as = some w') :
    w'.work + as.countP (·.isLoop) ≤ w.work + 2 * as.countP (!·.isLoop) := by
  induction as generalizing w with
  | nil =>
      obtain rfl := Option.some.inj hrun
      simp
  | cons a as ih =>
      obtain ⟨t, ht, hrest⟩ := (run_cons_eq_some _).mp hrun
      have hfirst := auditWork_step ht
      have hlater := ih hrest
      simp only [List.countP_cons]
      cases h : a.isLoop <;> simp [h] at hfirst ⊢ <;> omega

/-- A loop that has been told to stop can go on until it has. -/
theorem loop_goes_on (hasked : w.stopped = true ∨ w.cancelled = true)
    (hstage : w.stage ≠ .finished) : ∃ l, (w.loopStep cfg l).isSome := by
  cases hat : w.stage with
  | starting => exact ⟨.begin, by simp [AuditWriter.loopStep, hat]⟩
  | selecting => exact ⟨.done, by simp [AuditWriter.loopStep, hat, hasked]⟩
  | inserting leaving => exact ⟨.inserted, by simp [AuditWriter.loopStep, hat]⟩
  | draining =>
      cases hqueue : w.queue with
      | nil => exact ⟨.drained, by simp [AuditWriter.loopStep, hat, hqueue]⟩
      | cons e rest => exact ⟨.drain, by simp [AuditWriter.loopStep, hat, hqueue]⟩
  | finished => exact absurd hat hstage

end Work

/-! ### What is queued before the shutdown -/

section Shutdown

variable {cfg : AuditConfig} {w w' : AuditWriter}

/-- A `flush` queues nothing. -/
@[simp] theorem flush_queued (leaving : Bool) : (w.flush leaving).queued = w.queued := by
  rw [AuditWriter.flush]
  split <;> rfl

/-- A `flush` does not begin the shutdown. -/
@[simp] theorem flush_queuedBefore (leaving : Bool) :
    (w.flush leaving).queuedBefore = w.queuedBefore := by
  rw [AuditWriter.flush]
  split <;> rfl

/-- What is received was queued before. -/
@[simp] theorem receive_queued (e : AuditEntry) : (w.receive cfg e).queued = w.queued := by
  rw [AuditWriter.receive]
  dsimp only
  split
  · exact flush_queued false
  · rfl

/-- Receiving an entry does not begin the shutdown. -/
@[simp] theorem receive_queuedBefore (e : AuditEntry) :
    (w.receive cfg e).queuedBefore = w.queuedBefore := by
  rw [AuditWriter.receive]
  dsimp only
  split
  · exact flush_queuedBefore false
  · rfl

/-- The entries were queued, and if the shutdown was asked for, they were before it. -/
structure AuditWriter.QueuedFirst (first : List AuditEntry) (w : AuditWriter) : Prop where
  queued : first <+: w.queued
  before : ∀ before, w.queuedBefore = some before → first <+: before

/-- The shutdown begins after the entries were queued. -/
theorem AuditWriter.QueuedFirst.shutdown {first : List AuditEntry} (h : w.QueuedFirst first)
    (stopped cancelled : Bool) :
    QueuedFirst first { w.shutdown with stopped := stopped, cancelled := cancelled } := by
  refine ⟨h.queued, fun before hbefore => ?_⟩
  rcases shutdown_queuedBefore hbefore with hold | ⟨-, rfl⟩
  · exact h.before before hold
  · exact h.queued

/-- What was queued first stays first. -/
theorem queuedFirst_step {first : List AuditEntry} {a : AuditAction} (h : w.QueuedFirst first)
    (hstep : auditStep cfg w a = some w') : w'.QueuedFirst first := by
  rcases auditStep_cases hstep with ⟨now, e, -, rfl⟩ | ⟨now, e, -, -, rfl⟩ | ⟨l, -, hloop⟩ |
    ⟨-, rfl⟩ | ⟨stopped, cancelled, -, -, rfl⟩
  · rw [AuditWriter.log]
    split
    · exact ⟨h.queued.trans (List.prefix_append ..), h.before⟩
    · exact h
  · refine ⟨?_, fun before hbefore => ?_⟩
    · rw [receive_queued]
      exact h.queued.trans (List.prefix_append ..)
    · rw [receive_queuedBefore] at hbefore
      exact h.before before hbefore
  · have hsame : w'.queued = w.queued ∧ w'.queuedBefore = w.queuedBefore := by
      rcases loopStep_cases hloop with ⟨-, rfl⟩ | ⟨-, -, rfl⟩ | ⟨e, rest, -, -, rfl⟩ |
        ⟨-, -, rfl⟩ | ⟨leaving, -, rfl⟩ | ⟨e, rest, -, -, rfl⟩ | ⟨-, -, rfl⟩ <;> simp
    refine ⟨?_, fun before hbefore => ?_⟩
    · rw [hsame.1]
      exact h.queued
    · rw [hsame.2] at hbefore
      exact h.before before hbefore
  · exact ⟨h.queued, h.before⟩
  · exact h.shutdown stopped cancelled

end Shutdown

/-- **The audit queue hands over exactly once and in order.** In every run of the `Log` calls,
the ticker, the loop and the shutdown, the batches handed to `insertBatch` make up a prefix of
what was queued, in this order and so each entry once. When the loop has ended, everything
queued at any moment at which it was not told to stop is in it. A loop that has been told to
stop can go on until it has ended, and it ends: the number of its steps in a run is bounded by
that of the other actions. -/
theorem audit_queue_exactly_once {cfg : AuditConfig} {as bs : List AuditAction}
    {s w : AuditWriter} (hs : run (auditStep cfg) .start as = some s)
    (hw : run (auditStep cfg) s bs = some w) :
    w.handed.flatten <+: w.queued ∧
      (w.stage = .finished → s.stopped = false → s.cancelled = false →
        s.queued <+: w.handed.flatten) ∧
      (w.stopped = true ∨ w.cancelled = true → w.stage ≠ .finished →
        ∃ l, (auditStep cfg w (.loop l)).isSome) ∧
      (as ++ bs).countP (·.isLoop) ≤ 4 + 2 * (as ++ bs).countP (!·.isLoop) := by
  have hstart : AuditInv s := run_invariant (fun _ _ _ => auditInv_step) auditInv_start hs
  have hinv : AuditInv w := run_invariant (fun _ _ _ => auditInv_step) hstart hw
  refine ⟨?_, fun hfinished hstop hcancel => ?_, fun hasked hrunning => ?_, ?_⟩
  · rw [← hinv.inOrder, List.append_assoc]
    exact List.prefix_append ..
  · have hnone : s.queuedBefore = none := by
      rw [← Option.not_isSome_iff_eq_none, hstart.asked, hstop, hcancel]
      simp
    have hfirst : w.QueuedFirst s.queued :=
      run_invariant (fun _ _ _ => queuedFirst_step)
        ⟨List.prefix_refl _, by simp [hnone]⟩ hw
    have hsome : w.queuedBefore.isSome := hinv.leaving (by simp [AuditWriter.leaving, hfinished])
    obtain ⟨before, hbefore⟩ := Option.isSome_iff_exists.mp hsome
    exact (hfirst.before before hbefore).trans (hinv.flushed (.inr hfinished) before hbefore)
  · exact loop_goes_on hasked hrunning
  · have hrun : run (auditStep cfg) .start (as ++ bs) = some w := by
      rw [run_append, hs]
      exact hw
    have hwork := auditWork_run hrun
    have h4 : AuditWriter.start.work = 4 := rfl
    omega

/-- An entry with this action and no other field. -/
def exampleEntry (action : String) : AuditEntry :=
  ⟨"", "", "", action, "", "", "", "", "success", "", none⟩

/-- Batches of two. -/
def exampleAuditConfig : AuditConfig := ⟨10, 2⟩

/-- Two entries fill a batch, and a third is in the queue. -/
def exampleLogged : List AuditAction :=
  [.loop .begin, .logWaiting 0 (exampleEntry "a"), .log 1 (exampleEntry "b"), .loop .receive,
    .log 2 (exampleEntry "c")]

/-- `Stop` is called during the first insert, and a fourth entry comes after it. -/
def exampleStopped : List AuditAction :=
  [.stop, .log 3 (exampleEntry "d"), .loop .inserted, .loop .done, .loop .drain, .loop .drain,
    .loop .drained, .loop .inserted]

/-- The four entries are handed over in two batches. -/
theorem audit_queue_exactly_once_example :
    ∃ s w, run (auditStep exampleAuditConfig) .start exampleLogged = some s ∧
      run (auditStep exampleAuditConfig) s exampleStopped = some w ∧
      w.handed.map (·.map (·.action)) = [["a", "b"], ["c", "d"]] ∧
      s.queued <+: w.handed.flatten := by
  have hrun : ((run (auditStep exampleAuditConfig) .start exampleLogged).bind fun s =>
      (run (auditStep exampleAuditConfig) s exampleStopped).map fun w =>
        (s.stopped, s.cancelled, w.stage, w.handed.map (·.map (·.action)))) =
      some (false, false, .finished, [["a", "b"], ["c", "d"]]) := by
    decide +kernel
  obtain ⟨s, hs, hrest⟩ := Option.bind_eq_some_iff.mp hrun
  obtain ⟨w, hw, heq⟩ := Option.map_eq_some_iff.mp hrest
  simp only [Prod.mk.injEq] at heq
  obtain ⟨hstop, hcancel, hfinished, hhanded⟩ := heq
  exact ⟨s, w, hs, hw, hhanded,
    (audit_queue_exactly_once hs hw).2.1 hfinished hstop hcancel⟩

end IdpForge
