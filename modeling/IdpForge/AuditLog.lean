import IdpForge.AuditWriter
import IdpForge.Authorization
import IdpForge.RbacTables

/-!
# The Table of Audit Records

`insertBatch` inserts a batch with one statement, so a row the database rejects keeps out the
whole batch, whose error `flush` logs and forgets. Which rows a database rejects is arbitrary
here; the column `actor_id` of the PostgreSQL schema takes UUIDs alone, and the actor of an
API client is none.

## Main results

* `auditLogs_of_taken`: when every batch is taken, the table holds what was queued, in order.
* `actorID_apiClient_rejected`: the `actor_id` of an API client is no UUID.
* `acceptable_entries_stored_iff`: which batches, and which sequences of entries however they
  are batched, keep their acceptable entries.
-/

open GoStrings TransitionSystem

namespace IdpForge

/-- A row of `audit_logs`; a `NULL` is `none`. -/
structure AuditRow where
  actorID : Option String
  actorIP : Option String
  actorUserAgent : Option String
  action : String
  targetResource : Option String
  targetApp : Option String
  beforeState : Option String
  afterState : Option String
  status : String
  traceID : Option String
  timestamp : Option Int
  deriving DecidableEq, Repr

/-- The values `insertBatch` binds for an entry; `nullableBytes` is `nullableString` for the
two states. -/
def auditRow (e : AuditEntry) : AuditRow where
  actorID := nullableString e.actorID
  actorIP := nullableString e.actorIP
  actorUserAgent := nullableString e.actorUserAgent
  action := e.action
  targetResource := nullableString e.targetResource
  targetApp := nullableString e.targetApp
  beforeState := nullableString e.beforeState
  afterState := nullableString e.afterState
  status := e.status
  traceID := nullableString e.traceID
  timestamp := e.timestamp

/-- The database: the rows it rejects, and the most rows one statement may insert. -/
structure AuditDatabase where
  rejects : AuditRow → Bool
  maxRows : Nat

/-- The rows go into the table together or not at all. -/
def AuditDatabase.Takes (db : AuditDatabase) (rows : List AuditRow) : Prop :=
  rows.length ≤ db.maxRows ∧ ∀ row ∈ rows, db.rejects row = false

instance (db : AuditDatabase) (rows : List AuditRow) : Decidable (db.Takes rows) :=
  inferInstanceAs (Decidable (_ ∧ _))

section Table

variable (db : AuditDatabase) (table : List AuditRow)

/-- `insertBatch`: one statement for all entries, `none` for its error. -/
def insertBatch (entries : List AuditEntry) : Option (List AuditRow) :=
  let rows := entries.map auditRow
  if db.Takes rows then some (table ++ rows) else none

/-- The table after a `flush`, which logs the error and drops the batch all the same. -/
def flushBatch (batch : List AuditEntry) : List AuditRow :=
  (insertBatch db table batch).getD table

/-- The table after the batches handed over. -/
def auditLogs (handed : List (List AuditEntry)) : List AuditRow :=
  handed.foldl (flushBatch db) table

/-- The `flush` of the batch stores every entry of it whose own row is acceptable. -/
def StoresAcceptable (batch : List AuditEntry) : Prop :=
  ∃ stored, flushBatch db table batch = table ++ stored ∧
    ((batch.map auditRow).filter fun row => !db.rejects row).Sublist stored

/-- Every `flush` of the batches stores the acceptable entries of its batch. -/
def StoresAllAcceptable (handed : List (List AuditEntry)) : Prop :=
  ∀ before batch after, handed = before ++ batch :: after →
    StoresAcceptable db (auditLogs db table before) batch

/-- The batch is one the statement takes, or has no acceptable entry to lose. -/
def LosesNothing (batch : List AuditEntry) : Prop :=
  db.Takes (batch.map auditRow) ∨ ∀ e ∈ batch, db.rejects (auditRow e) = true

instance (batch : List AuditEntry) : Decidable (LosesNothing db batch) :=
  inferInstanceAs (Decidable (_ ∨ _))

end Table

section Batches

variable {db : AuditDatabase} {table : List AuditRow} {batch : List AuditEntry}

/-- A batch the statement takes is stored whole. -/
theorem flushBatch_of_takes (h : db.Takes (batch.map auditRow)) :
    flushBatch db table batch = table ++ batch.map auditRow := by
  simp [flushBatch, insertBatch, h]

/-- Of any other batch nothing is stored. -/
theorem flushBatch_of_not_takes (h : ¬ db.Takes (batch.map auditRow)) :
    flushBatch db table batch = table := by
  simp [flushBatch, insertBatch, h]

/-- A `flush` stores the acceptable entries of the batch when the statement takes them all or
there are none. -/
theorem storesAcceptable_iff : StoresAcceptable db table batch ↔ LosesNothing db batch := by
  constructor
  · rintro ⟨stored, hflush, hsub⟩
    by_cases htakes : db.Takes (batch.map auditRow)
    · exact .inl htakes
    · rw [flushBatch_of_not_takes htakes, List.self_eq_append_right] at hflush
      rw [hflush, List.sublist_nil, List.filter_eq_nil_iff] at hsub
      refine .inr fun e he => ?_
      have := hsub (auditRow e) (List.mem_map_of_mem he)
      simpa using this
  · rintro (htakes | hrejected)
    · exact ⟨batch.map auditRow, flushBatch_of_takes htakes, List.filter_sublist⟩
    · by_cases htakes : db.Takes (batch.map auditRow)
      · exact ⟨batch.map auditRow, flushBatch_of_takes htakes, List.filter_sublist⟩
      · refine ⟨[], by rw [flushBatch_of_not_takes htakes, List.append_nil], ?_⟩
        rw [List.sublist_nil, List.filter_eq_nil_iff]
        intro row hrow
        obtain ⟨e, he, rfl⟩ := List.mem_map.mp hrow
        simp [hrejected e he]

/-- Batches store their acceptable entries when none of them has any to lose. -/
theorem storesAllAcceptable_iff {handed : List (List AuditEntry)} :
    StoresAllAcceptable db table handed ↔ ∀ batch ∈ handed, LosesNothing db batch := by
  constructor
  · intro h batch hbatch
    obtain ⟨before, after, heq⟩ := List.append_of_mem hbatch
    exact storesAcceptable_iff.mp (h before batch after heq)
  · intro h before batch after heq
    exact storesAcceptable_iff.mpr (h batch (heq ▸ by simp))

/-- A part of a batch loses nothing when the whole does not. -/
theorem LosesNothing.sublist {part : List AuditEntry} (h : LosesNothing db batch)
    (hpart : part.Sublist batch) : LosesNothing db part := by
  refine h.imp (fun htakes => ?_) fun hrejected e he => hrejected e (hpart.subset he)
  have hrows : (part.map auditRow).Sublist (batch.map auditRow) := hpart.map auditRow
  exact ⟨hrows.length_le.trans htakes.1, fun row hrow => htakes.2 row (hrows.subset hrow)⟩

/-- When every batch is taken, the table holds all entries handed over, in order. -/
theorem auditLogs_of_taken {handed : List (List AuditEntry)}
    (h : ∀ batch ∈ handed, db.Takes (batch.map auditRow)) :
    auditLogs db table handed = table ++ handed.flatten.map auditRow := by
  induction handed generalizing table with
  | nil => simp [auditLogs]
  | cons batch handed ih =>
      have hfirst := h batch List.mem_cons_self
      have hrest : ∀ b ∈ handed, db.Takes (b.map auditRow) :=
        fun b hb => h b (List.mem_cons_of_mem batch hb)
      calc auditLogs db table (batch :: handed)
          = auditLogs db (table ++ batch.map auditRow) handed := by
            rw [auditLogs, List.foldl_cons, flushBatch_of_takes hfirst, auditLogs]
        _ = table ++ batch.map auditRow ++ handed.flatten.map auditRow := ih hrest
        _ = table ++ (batch :: handed).flatten.map auditRow := by simp

end Batches

/-! ### The actor of a record -/

/-- Five groups of 8, 4, 4, 4 and 12 hexadecimal digits, with a hyphen between them. -/
def isUUID (s : String) : Bool :=
  s.length = 36 && (fields s '-').map String.length = [8, 4, 4, 4, 12] &&
    s.toList.all fun c => c = '-' || c.isDigit || ('a' ≤ c && c ≤ 'f') || ('A' ≤ c && c ≤ 'F')

/-- PostgreSQL, whose column `actor_id` takes UUIDs alone and whose statements have at most
65535 parameters. -/
def postgresAudit : AuditDatabase where
  rejects := fun row => row.actorID.any fun s => !isUUID s
  maxRows := 65535 / 11

/-- The actor id of an API client starts with its kind, and no UUID does. -/
theorem actorID_apiClient_rejected {locals : Locals} {client : ApiClient}
    (huser : locals.userID = "") (hclient : locals.apiClient = some client) (e : AuditEntry)
    (he : e.actorID = actorID locals) : postgresAudit.rejects (auditRow e) = true := by
  have hactor : actorID locals = "apiclient:" ++ client.id := by simp [actorID, huser, hclient]
  have hne : "apiclient:" ++ client.id ≠ "" := by
    intro h
    simpa using congrArg String.length h
  have hnot : isUUID ("apiclient:" ++ client.id) = false := by
    rw [isUUID, Bool.and_eq_false_iff]
    right
    rw [List.all_eq_false]
    exact ⟨'p', by simp, by decide⟩
  simp [postgresAudit, auditRow, he, hactor, nullableString_eq_some hne, hnot]

/-- **When acceptable entries are stored.** Whatever rows the database rejects, batches store
their acceptable entries when they are handed over if and only if each is taken whole by its
statement or consists of rejected rows; and a sequence of entries keeps the acceptable ones
however it is batched if and only if that is so of all its entries together. -/
theorem acceptable_entries_stored_iff (db : AuditDatabase) (table : List AuditRow) :
    (∀ handed, StoresAllAcceptable db table handed ↔ ∀ batch ∈ handed, LosesNothing db batch) ∧
      ∀ entries : List AuditEntry,
        (∀ handed : List (List AuditEntry), handed.flatten = entries →
          StoresAllAcceptable db table handed) ↔ LosesNothing db entries := by
  refine ⟨fun handed => storesAllAcceptable_iff, fun entries => ⟨fun h => ?_, ?_⟩⟩
  · have hone := storesAllAcceptable_iff.mp (h [entries] (by simp))
    exact hone entries (by simp)
  · rintro h handed rfl
    refine storesAllAcceptable_iff.mpr fun batch hbatch => ?_
    exact h.sublist (List.sublist_flatten_of_mem hbatch)

/-- A user and then an API client do something. -/
def exampleActors : List Locals :=
  [{ userID := "0b5e7a3c-93d1-4c44-9a57-6a1fd1b0c2ee" },
    { apiClient :=
        some ⟨"5d0c1f8e-2f0b-4a55-8a0e-3c7d9e6b1f20", "ci", [], [], [], 0, 0, true⟩ }]

/-- Their records, with the time of their calls. -/
def exampleRecords : List AuditEntry :=
  exampleActors.map fun locals =>
    { exampleEntry "user.create" with actorID := actorID locals, timestamp := some 0 }

/-- Both records are queued before the ticker fires. -/
def exampleFlush : List AuditAction :=
  .loop .begin :: exampleRecords.map (.log 0) ++
    [.loop .receive, .loop .receive, .ticker, .loop .tick, .loop .inserted]

/-- The record of the API client costs the user's: a run of the writer hands both over in one
batch, the row of the user is acceptable, and nothing is stored. -/
theorem acceptable_entry_lost :
    ∃ w, run (auditStep ⟨10000, 100⟩) .start exampleFlush = some w ∧
      ¬ StoresAllAcceptable postgresAudit [] w.handed := by
  have hhanded : (run (auditStep ⟨10000, 100⟩) .start exampleFlush).map (·.handed) =
      some [exampleRecords] := by
    decide +kernel
  obtain ⟨w, hrun, hw⟩ := Option.map_eq_some_iff.mp hhanded
  refine ⟨w, hrun, fun h => ?_⟩
  have hloses := storesAllAcceptable_iff.mp h exampleRecords (by simp [hw])
  exact absurd hloses (by decide +kernel)

end IdpForge
