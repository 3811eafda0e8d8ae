import IdpForge.AuditQuery

/-!
# The Size of the Audit Batches

The loop hands a batch over as soon as it has `batchSize` entries. The `drain` of the shutdown
has no such limit: it adds whatever the queue holds to the batch, and one `flush` inserts it
all.

## Main results

* `batchRoom_step`: while there is room at the shutdown, no batch outgrows its size.
* `overfull_step`: once a drain has more than a batch, one is handed over that is too large.
* `audit_batches_bounded_iff`: the batches are bounded exactly when there is room.
-/

open TransitionSystem Sql

namespace IdpForge

/-- Every batch that was handed over has at most `batchSize` entries. -/
def AuditWriter.Bounded (cfg : AuditConfig) (w : AuditWriter) : Prop :=
  ∀ b ∈ w.handed, b.length ≤ cfg.batchSize

/-- What a drain that begins now would make of the batch. -/
def AuditWriter.pending (w : AuditWriter) : Nat :=
  w.batch.length + w.queue.length

/-- There is room for the step in the last batch: a drain begins with at most `batchSize`
pending entries, and none is queued beyond that while it goes on. -/
def RoomToDrain (cfg : AuditConfig) (w : AuditWriter) : AuditAction → Prop
  | .loop .done => w.pending ≤ cfg.batchSize
  | .log _ _ =>
      w.stage = .draining → w.queue.length < cfg.queueSize → w.pending < cfg.batchSize
  | _ => True

/-- The invariant of a run that has room: the batches handed over are bounded, the one in the
loop is not yet full, and the one in a drain will not be too large. -/
structure BatchRoom (cfg : AuditConfig) (w : AuditWriter) : Prop where
  bounded : w.Bounded cfg
  collecting : w.stage = .starting ∨ w.stage = .selecting → w.batch.length < cfg.batchSize
  draining : w.stage = .draining → w.pending ≤ cfg.batchSize

/-- A drain has more than a batch, or a batch that is too large was handed over. -/
def AuditWriter.Overfull (cfg : AuditConfig) (w : AuditWriter) : Prop :=
  (w.stage = .draining ∧ cfg.batchSize < w.pending) ∨ ∃ b ∈ w.handed, cfg.batchSize < b.length

section Batches

variable {cfg : AuditConfig} {w w' : AuditWriter}

/-- What a step does to the batches: `Log` queues an entry, or hands it to the waiting loop; the
loop takes a step; the ticker and the shutdown leave them as they are. -/
theorem batches_step_cases {a : AuditAction} (hstep : auditStep cfg w a = some w') :
    (∃ now e, a = .log now e ∧ w' = w.log cfg (e.stamped now)) ∨
      (∃ now e, a = .logWaiting now e ∧ w.stage = .selecting ∧
        w' = { w with queued := w.queued ++ [e.stamped now] }.receive cfg (e.stamped now)) ∨
      (∃ l, a = .loop l ∧ w.loopStep cfg l = some w') ∨
      w'.stage = w.stage ∧ w'.batch = w.batch ∧ w'.queue = w.queue ∧ w'.handed = w.handed := by
  rcases auditStep_cases hstep with hlog | ⟨now, e, ha, hwaiting, hw⟩ | hloop | ⟨-, rfl⟩ |
    ⟨stopped, cancelled, -, -, rfl⟩
  · exact .inl hlog
  · exact .inr (.inl ⟨now, e, ha, hwaiting.1, hw⟩)
  · exact .inr (.inr (.inl hloop))
  · exact .inr (.inr (.inr ⟨rfl, rfl, rfl, rfl⟩))
  · exact .inr (.inr (.inr ⟨rfl, rfl, rfl, rfl⟩))

/-- A `flush` hands over the batch and nothing else. -/
theorem mem_flush_handed {leaving : Bool} {b : List AuditEntry}
    (h : b ∈ (w.flush leaving).handed) : b ∈ w.handed ∨ b = w.batch := by
  rw [AuditWriter.flush] at h
  split at h
  · exact .inl h
  · rcases List.mem_append.mp h with h | h
    · exact .inl h
    · exact .inr (List.mem_singleton.mp h)

/-- What was handed over stays handed over. -/
theorem handed_subset_flush (leaving : Bool) : w.handed ⊆ (w.flush leaving).handed := by
  rw [AuditWriter.flush]
  split
  · exact List.Subset.refl _
  · exact List.subset_append_left ..

/-- A `flush` of a batch that is not empty hands it over. -/
theorem batch_mem_flush_handed (leaving : Bool) (h : w.batch ≠ []) :
    w.batch ∈ (w.flush leaving).handed := by
  rw [AuditWriter.flush]
  split
  case h_1 hempty => exact absurd hempty h
  case h_2 => exact List.mem_append_right _ (List.mem_singleton_self _)

/-- A `flush` goes back to the loop, or on to an insert. -/
theorem flush_stage (leaving : Bool) :
    ((w.flush leaving).batch = [] ∧
        (w.flush leaving).stage = if leaving then .finished else .selecting) ∨
      (w.flush leaving).stage = .inserting leaving := by
  rw [AuditWriter.flush]
  split
  case h_1 hempty => exact .inl ⟨hempty, rfl⟩
  case h_2 => exact .inr rfl

/-- A `flush` does not lead into a drain. -/
theorem flush_not_draining (leaving : Bool) : (w.flush leaving).stage ≠ .draining := by
  rcases flush_stage (w := w) leaving with ⟨-, hnext⟩ | hinserting
  · rw [hnext]
    cases leaving <;> simp
  · simp [hinserting]

/-- The loop begins a drain only when it is told to leave. -/
theorem eq_done_of_draining {l : LoopStep} (hstep : w.loopStep cfg l = some w')
    (hfrom : w.stage = .selecting) (hto : w'.stage = .draining) : l = .done := by
  cases l with
  | done => rfl
  | receive =>
      rw [AuditWriter.loopStep] at hstep
      split at hstep
      case h_1 e rest _ _ =>
        obtain rfl := Option.some.inj hstep
        rw [AuditWriter.receive] at hto
        dsimp only at hto
        split at hto
        · exact absurd hto (flush_not_draining false)
        · simp [hfrom] at hto
      case h_2 => simp at hstep
  | tick =>
      obtain ⟨-, heq⟩ := Option.ite_none_right_eq_some.mp hstep
      obtain rfl := Option.some.inj heq
      exact absurd hto (flush_not_draining false)
  | begin => simp [AuditWriter.loopStep, hfrom] at hstep
  | inserted => simp [AuditWriter.loopStep, hfrom] at hstep
  | drain => simp [AuditWriter.loopStep, hfrom] at hstep
  | drained => simp [AuditWriter.loopStep, hfrom] at hstep

/-- A `flush` of a batch that is not too large keeps the invariant. -/
theorem BatchRoom.flush (hsize : 0 < cfg.batchSize) (hbounded : w.Bounded cfg)
    (hbatch : w.batch.length ≤ cfg.batchSize) (leaving : Bool) :
    BatchRoom cfg (w.flush leaving) := by
  refine ⟨fun b hb => ?_, fun hstage => ?_, fun hstage => ?_⟩
  · rcases mem_flush_handed hb with hb | rfl
    · exact hbounded b hb
    · exact hbatch
  · rcases flush_stage (w := w) leaving with ⟨hempty, -⟩ | hinserting
    · rw [hempty]
      exact hsize
    · simp [hinserting] at hstage
  · exact absurd hstage (flush_not_draining leaving)

/-- The loop receives an entry into a batch that is not yet full. -/
theorem BatchRoom.receive (hbounded : w.Bounded cfg) (hstage : w.stage = .selecting)
    (hbatch : w.batch.length < cfg.batchSize) (e : AuditEntry) :
    BatchRoom cfg (w.receive cfg e) := by
  have hlength : (w.batch ++ [e]).length = w.batch.length + 1 := List.length_append
  rw [AuditWriter.receive]
  dsimp only
  split
  · refine BatchRoom.flush (w := { w with batch := w.batch ++ [e] }) (by omega) hbounded ?_ false
    change (w.batch ++ [e]).length ≤ cfg.batchSize
    omega
  · next hroom =>
      refine ⟨hbounded, fun _ => ?_, fun hdraining => ?_⟩
      · exact not_le.mp hroom
      · simp [hstage] at hdraining

/-- A new writer has room. -/
theorem batchRoom_start (hsize : 0 < cfg.batchSize) : BatchRoom cfg .start where
  bounded := by simp [AuditWriter.Bounded, AuditWriter.start]
  collecting := fun _ => hsize
  draining := by simp [AuditWriter.start]

/-- A step of the loop that has room keeps the invariant. -/
theorem batchRoom_loopStep (hsize : 0 < cfg.batchSize) {l : LoopStep} (h : BatchRoom cfg w)
    (hroom : RoomToDrain cfg w (.loop l)) (hstep : w.loopStep cfg l = some w') :
    BatchRoom cfg w' := by
  rcases loopStep_cases hstep with ⟨hstage, rfl⟩ | ⟨hstage, -, rfl⟩ |
    ⟨e, rest, hstage, -, rfl⟩ | ⟨hstage, -, rfl⟩ | ⟨leaving, hstage, rfl⟩ |
    ⟨e, rest, hstage, hqueue, rfl⟩ | ⟨hstage, hqueue, rfl⟩
  · exact ⟨h.bounded, fun _ => h.collecting (.inl hstage), by simp⟩
  · obtain rfl := eq_done_of_draining hstep hstage rfl
    exact ⟨h.bounded, by simp, fun _ => hroom⟩
  · exact BatchRoom.receive (w := { w with queue := rest }) h.bounded hstage
      (h.collecting (.inr hstage)) e
  · exact BatchRoom.flush (w := { w with tickReady := false }) hsize h.bounded
      (h.collecting (.inr hstage)).le false
  · refine ⟨h.bounded, fun _ => hsize, fun hdraining => ?_⟩
    cases leaving <;> simp at hdraining
  · have hpending := h.draining hstage
    refine ⟨h.bounded, by simp [hstage], fun _ => ?_⟩
    simp only [AuditWriter.pending, hqueue, List.length_cons, List.length_append,
      List.length_nil] at hpending ⊢
    omega
  · have hpending := h.draining hstage
    refine BatchRoom.flush hsize h.bounded ?_ true
    simpa [AuditWriter.pending, hqueue] using hpending

/-- **A step that has room** keeps the invariant. -/
theorem batchRoom_step (hsize : 0 < cfg.batchSize) {a : AuditAction} (h : BatchRoom cfg w)
    (hroom : RoomToDrain cfg w a) (hstep : auditStep cfg w a = some w') : BatchRoom cfg w' := by
  rcases batches_step_cases hstep with ⟨now, e, rfl, rfl⟩ | ⟨now, e, -, hstage, rfl⟩ |
    ⟨l, rfl, hloop⟩ | ⟨hstage, hbatch, hqueue, hhanded⟩
  · rw [AuditWriter.log]
    split
    · next hfits =>
        refine ⟨h.bounded, h.collecting, fun hdraining => ?_⟩
        have hpending := hroom hdraining hfits
        simp only [AuditWriter.pending, List.length_append, List.length_singleton] at hpending ⊢
        omega
    · exact h
  · exact BatchRoom.receive (w := { w with queued := w.queued ++ [e.stamped now] }) h.bounded
      hstage (h.collecting (.inr hstage)) (e.stamped now)
  · exact batchRoom_loopStep hsize h hroom hloop
  · refine ⟨fun b hb => h.bounded b (hhanded ▸ hb), fun hat => ?_, fun hat => ?_⟩
    · rw [hbatch]
      exact h.collecting (hstage ▸ hat)
    · rw [AuditWriter.pending, hbatch, hqueue]
      exact h.draining (hstage ▸ hat)

/-! ### A drain without room -/

/-- A step without room makes a drain larger than a batch. -/
theorem overfull_of_not_room {a : AuditAction} (hstep : auditStep cfg w a = some w')
    (hroom : ¬ RoomToDrain cfg w a) : w'.Overfull cfg := by
  cases a with
  | log now e =>
      obtain rfl := Option.some.inj hstep
      simp only [RoomToDrain, Classical.not_imp, not_lt] at hroom
      obtain ⟨hstage, hfits, hpending⟩ := hroom
      rw [AuditWriter.log, if_pos hfits]
      refine .inl ⟨hstage, ?_⟩
      simp only [AuditWriter.pending, List.length_append, List.length_singleton] at hpending ⊢
      omega
  | loop l =>
      cases l with
      | done =>
          obtain ⟨-, heq⟩ := Option.ite_none_right_eq_some.mp hstep
          obtain rfl := Option.some.inj heq
          exact .inl ⟨rfl, not_le.mp hroom⟩
      | _ => exact absurd trivial hroom
  | _ => exact absurd trivial hroom

/-- Receiving an entry takes back nothing that was handed over. -/
theorem handed_subset_receive (e : AuditEntry) : w.handed ⊆ (w.receive cfg e).handed := by
  rw [AuditWriter.receive]
  dsimp only
  split
  · exact handed_subset_flush (w := { w with batch := w.batch ++ [e] }) false
  · exact List.Subset.refl _

/-- What was handed over stays so. -/
theorem handed_subset_step {a : AuditAction} (hstep : auditStep cfg w a = some w') :
    w.handed ⊆ w'.handed := by
  rcases batches_step_cases hstep with ⟨now, e, -, rfl⟩ | ⟨now, e, -, -, rfl⟩ | ⟨l, -, hloop⟩ |
    ⟨-, -, -, hhanded⟩
  · rw [AuditWriter.log]
    split <;> exact List.Subset.refl _
  · exact handed_subset_receive (w := { w with queued := w.queued ++ [e.stamped now] }) _
  · rcases loopStep_cases hloop with ⟨-, rfl⟩ | ⟨-, -, rfl⟩ | ⟨e, rest, -, -, rfl⟩ |
      ⟨-, -, rfl⟩ | ⟨leaving, -, rfl⟩ | ⟨e, rest, -, -, rfl⟩ | ⟨-, -, rfl⟩
    · exact List.Subset.refl _
    · exact List.Subset.refl _
    · exact handed_subset_receive (w := { w with queue := rest }) e
    · exact handed_subset_flush (w := { w with tickReady := false }) false
    · exact List.Subset.refl _
    · exact List.Subset.refl _
    · exact handed_subset_flush true
  · rw [hhanded]
    exact List.Subset.refl _

/-- **A drain without room** ends in a batch that is too large. -/
theorem overfull_step {a : AuditAction} (h : w.Overfull cfg) (hstep : auditStep cfg w a = some w') :
    w'.Overfull cfg := by
  rcases h with ⟨hstage, hpending⟩ | ⟨b, hb, hlarge⟩
  case inr => exact .inr ⟨b, handed_subset_step hstep hb, hlarge⟩
  rcases batches_step_cases hstep with ⟨now, e, -, rfl⟩ | ⟨now, e, -, hselecting, -⟩ |
    ⟨l, -, hloop⟩ | ⟨hsame, hbatch, hqueue, -⟩
  · rw [AuditWriter.log]
    split
    · refine .inl ⟨hstage, ?_⟩
      simp only [AuditWriter.pending, List.length_append, List.length_singleton] at hpending ⊢
      omega
    · exact .inl ⟨hstage, hpending⟩
  · simp [hstage] at hselecting
  · rcases loopStep_cases hloop with ⟨hat, -⟩ | ⟨hat, -⟩ | ⟨_, _, hat, -⟩ | ⟨hat, -⟩ |
      ⟨_, hat, -⟩ | ⟨e, rest, -, hqueue, rfl⟩ | ⟨-, hqueue, rfl⟩
    case inr.inr.inr.inr.inr.inl =>
      refine .inl ⟨hstage, ?_⟩
      simp only [AuditWriter.pending, hqueue, List.length_cons, List.length_append,
        List.length_nil] at hpending ⊢
      omega
    case inr.inr.inr.inr.inr.inr =>
      have hlarge : cfg.batchSize < w.batch.length := by
        simpa [AuditWriter.pending, hqueue] using hpending
      have hne : w.batch ≠ [] := List.ne_nil_of_length_pos (by omega)
      exact .inr ⟨w.batch, batch_mem_flush_handed true hne, hlarge⟩
    all_goals simp [hstage] at hat
  · refine .inl ⟨hsame.trans hstage, ?_⟩
    rw [AuditWriter.pending, hbatch, hqueue]
    exact hpending

end Batches

/-! ### The bound -/

/-- The parameters of the statement that inserts a batch. -/
theorem insertBatch_parameters (driver : DBDriver) (b : List AuditEntry) :
    (insertBatchStatement driver b).rows.flatten.length = 11 * b.length := by
  rw [insertBatchStatement, flatten_grid, List.length_map, List.length_range, Nat.mul_comm]

/-- **When audit batches are bounded.** While no step of a run lacks room, every batch handed to
`insertBatch` has at most `batchSize` entries, and its statement at most 11 parameters for each.
In a run that has ended, the batches are bounded only if no step lacked room. -/
theorem audit_batches_bounded_iff {cfg : AuditConfig} (hsize : 0 < cfg.batchSize)
    {as : List AuditAction} {w : AuditWriter} (hrun : run (auditStep cfg) .start as = some w) :
    (Guarded (auditStep cfg) (RoomToDrain cfg) .start as →
        ∀ b ∈ w.handed, b.length ≤ cfg.batchSize ∧
          ∀ driver, (insertBatchStatement driver b).rows.flatten.length ≤ 11 * cfg.batchSize) ∧
      (w.stage = .inserting true ∨ w.stage = .finished →
        ((∀ b ∈ w.handed, b.length ≤ cfg.batchSize) ↔
          Guarded (auditStep cfg) (RoomToDrain cfg) .start as)) := by
  have hbounded : Guarded (auditStep cfg) (RoomToDrain cfg) .start as → w.Bounded cfg :=
    fun hroom => (guarded_run_invariant (fun _ _ _ h hg hs => batchRoom_step hsize h hg hs)
      (batchRoom_start hsize) hroom hrun).bounded
  refine ⟨fun hroom b hb => ⟨hbounded hroom b hb, fun driver => ?_⟩, fun hended => ?_⟩
  · rw [insertBatch_parameters]
    exact Nat.mul_le_mul_left 11 (hbounded hroom b hb)
  · refine ⟨fun h => ?_, hbounded⟩
    refine guarded_of_scar (I := fun _ => True) (fun _ _ _ _ _ => trivial)
      (fun _ _ _ _ => overfull_of_not_room) (fun _ _ _ _ => overfull_step) trivial hrun ?_
    rintro (⟨hstage, -⟩ | ⟨b, hb, hlarge⟩)
    · rcases hended with hended | hended <;> simp [hstage] at hended
    · exact absurd (h b hb) (not_le.mpr hlarge)

/-- Three entries are queued before the loop, with batches of two, is told to stop. -/
def exampleBurst : List AuditAction :=
  [.loop .begin, .log 0 (exampleEntry "a"), .log 0 (exampleEntry "b"), .log 0 (exampleEntry "c"),
    .stop, .loop .done, .loop .drain, .loop .drain, .loop .drain, .loop .drained]

/-- The drain takes all three into one batch. -/
theorem audit_batch_too_large :
    ¬ ∀ (cfg : AuditConfig) (as : List AuditAction) (w : AuditWriter), 0 < cfg.batchSize →
      run (auditStep cfg) .start as = some w → ∀ b ∈ w.handed, b.length ≤ cfg.batchSize := by
  intro h
  have hrun : (run (auditStep exampleAuditConfig) .start exampleBurst).map
      (fun w => w.handed.map List.length) = some [3] := by decide +kernel
  obtain ⟨w, hw, hlengths⟩ := Option.map_eq_some_iff.mp hrun
  obtain ⟨b, hb, hlength⟩ := List.mem_map.mp (hlengths ▸ List.mem_singleton_self 3)
  have hbound := h exampleAuditConfig exampleBurst w (by decide) hw b hb
  simp [hlength, exampleAuditConfig] at hbound

/-- Two entries are queued before the loop is told to stop. -/
def exampleRoom : List AuditAction :=
  [.loop .begin, .log 0 (exampleEntry "a"), .log 0 (exampleEntry "b"), .stop, .loop .done,
    .loop .drain, .loop .drain, .loop .drained]

/-- They fit into the last batch. -/
theorem audit_batches_bounded_iff_example :
    ∃ w, run (auditStep exampleAuditConfig) .start exampleRoom = some w ∧
      w.handed.map List.length = [2] ∧
      Guarded (auditStep exampleAuditConfig) (RoomToDrain exampleAuditConfig) .start exampleRoom ∧
      ∀ b ∈ w.handed, ∀ driver, (insertBatchStatement driver b).rows.flatten.length ≤ 22 := by
  have hrun : (run (auditStep exampleAuditConfig) .start exampleRoom).map
      (fun w => (w.handed.map List.length, w.stage)) = some ([2], .inserting true) := by
    decide +kernel
  obtain ⟨w, hw, heq⟩ := Option.map_eq_some_iff.mp hrun
  obtain ⟨hlengths, hstage⟩ := Prod.mk.inj heq
  have hsmall : ∀ b ∈ w.handed, b.length ≤ 2 := fun b hb => by
    have hlength := List.mem_map_of_mem (f := List.length) hb
    rw [hlengths, List.mem_singleton] at hlength
    exact hlength.le
  have hbounded := audit_batches_bounded_iff (by decide) hw
  have hroom := (hbounded.2 (.inl hstage)).mp hsmall
  exact ⟨w, hw, hlengths, hroom, fun b hb => (hbounded.1 hroom b hb).2⟩

end IdpForge
