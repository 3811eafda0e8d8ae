import IdpForge.SqlStatements
import IdpForge.AuditLog

/-!
# Reading the Audit Log

`insertBatch` and `Query` build their statements piece by piece, with a placeholder for each
value and the values in a list. They are run here on a table that keeps the values bound to it,
with the columns of the SQLite schema; times are compared as instants.

## Main results

* `execInsertBatch_eq`, `execInsertBatch_refines`: what `insertBatch` stores.
* `whereArgs_eq`: the conditions and the values that `Query` collects.
* `query_returns_logged`: a query returns what was logged.
-/

open Sql

namespace IdpForge

/-! ### Writing -/

/-- `Placeholder`. -/
def DBDriver.placeholder : DBDriver → Nat → Marker
  | .postgres, n => .dollar n
  | .mssql, n => .atP n
  | .mysql, _ => .question
  | .sqlite, _ => .question

/-- The placeholders of any driver are numbered. -/
theorem sequential_placeholder (driver : DBDriver) : Sequential driver.placeholder := by
  intro k
  cases driver <;> rfl

/-- `audit_logs` of the SQLite schema, with the most parameters SQLite takes. -/
def auditSchema : Schema where
  autoID := "id"
  columns := ["actor_id", "actor_ip", "actor_user_agent", "action", "target_resource",
    "target_app", "before_state", "after_state", "status", "trace_id", "timestamp"]
  notNull := ["action", "status", "timestamp"]
  maxParameters := 32766

/-- `time.Time{}` in nanoseconds of Unix time. -/
def zeroTime : Int := -62135596800000000000

/-- The `Timestamp` of an entry. -/
def AuditEntry.time (e : AuditEntry) : Int :=
  e.timestamp.getD zeroTime

/-- The columns of the statement of `insertBatch`. -/
def insertColumns : List String :=
  ["actor_id", "actor_ip", "actor_user_agent", "action", "target_resource", "target_app",
    "before_state", "after_state", "status", "trace_id", "\"timestamp\""]

/-- The values that `insertBatch` binds for an entry. -/
def insertArgs (e : AuditEntry) : List Value :=
  [.ofOption (nullableString e.actorID),
    .ofOption (nullableString e.actorIP),
    .ofOption (nullableString e.actorUserAgent),
    .text e.action,
    .ofOption (nullableString e.targetResource),
    .ofOption (nullableString e.targetApp),
    .ofOption (nullableString e.beforeState),
    .ofOption (nullableString e.afterState),
    .text e.status,
    .ofOption (nullableString e.traceID),
    .time e.time]

section Writing

variable (driver : DBDriver)

/-- The statement of `insertBatch`, whose placeholders are numbered `base + j + 1`. -/
def insertBatchStatement (entries : List AuditEntry) : Insert where
  columns := insertColumns
  rows := grid driver.placeholder entries.length 11

/-- `insertBatch`. -/
def execInsertBatch (t : Table) (entries : List AuditEntry) : Option Table :=
  Insert.exec auditSchema t (insertBatchStatement driver entries) (entries.flatMap insertArgs)

/-- The table after some batches, each of them stored. -/
def insertBatches (t : Table) (batches : List (List AuditEntry)) : Option Table :=
  batches.foldlM (execInsertBatch driver) t

end Writing

/-- The row of an entry. -/
def logRow (p : AuditEntry × Nat) : Row :=
  rowOf auditSchema p.2 (insertColumns.map identifier) (insertArgs p.1)

/-- The columns of the statement are those of the table. -/
theorem identifier_insertColumns : insertColumns.map identifier = auditSchema.columns := by
  decide

/-- The row of an entry, by the columns of the table. -/
theorem logRow_eq (p : AuditEntry × Nat) :
    logRow p = rowOf auditSchema p.2 auditSchema.columns (insertArgs p.1) := by
  rw [logRow, identifier_insertColumns]

/-- The rows of the entries, numbered on. -/
theorem numberedRows_insertArgs (nextID : Nat) (entries : List AuditEntry) :
    numberedRows auditSchema insertColumns nextID (entries.map insertArgs) =
      (entries.zipIdx nextID).map logRow := by
  rw [numberedRows, List.zipIdx_map, List.map_map]
  rfl

/-- No entry has a `NULL` where the table takes none. -/
theorem logRow_notNull (p : AuditEntry × Nat) : ∀ c ∈ auditSchema.notNull, logRow p c ≠ .null := by
  intro c hc
  simp only [auditSchema, List.mem_cons, List.not_mem_nil, or_false] at hc
  rw [logRow_eq]
  rcases hc with rfl | rfl | rfl <;> exact nofun

/-- **What `insertBatch` stores.** -/
theorem execInsertBatch_eq (driver : DBDriver) (t : Table) (entries : List AuditEntry) :
    execInsertBatch driver t entries =
      if entries ≠ [] ∧ entries.length * 11 ≤ auditSchema.maxParameters then
        some ⟨t.rows ++ (entries.zipIdx t.nextID).map logRow, t.nextID + entries.length⟩
      else none := by
  have hlen : ∀ vs ∈ entries.map insertArgs, vs.length = insertColumns.length := by
    intro vs hvs
    obtain ⟨e, -, rfl⟩ := List.mem_map.mp hvs
    rfl
  have hcount : (entries.map insertArgs).flatten.length = entries.length * 11 := by
    simp [List.length_flatten, Function.comp_def, insertArgs]
  have hrows : grid driver.placeholder entries.length 11 ≠ [] ↔ entries ≠ [] := by
    rw [ne_eq, ← List.length_eq_zero_iff, grid, List.length_map, List.length_range,
      List.length_eq_zero_iff]
  have hwf : (insertBatchStatement driver entries).WellFormed auditSchema ↔ entries ≠ [] := by
    rw [Insert.WellFormed, insertBatchStatement, identifier_insertColumns, hrows]
    refine and_iff_left ⟨by decide, fun c hc => hc, fun r hr => ?_⟩
    obtain ⟨i, -, rfl⟩ := List.mem_map.mp hr
    simp [insertColumns]
  have hnotNull : ∀ row ∈ (entries.zipIdx t.nextID).map logRow,
      ∀ c ∈ auditSchema.notNull, row c ≠ .null := by
    intro row hrow
    obtain ⟨p, -, rfl⟩ := List.mem_map.mp hrow
    exact logRow_notNull p
  have hexec := insert_exec (sequential_placeholder driver) auditSchema t hlen
  rw [List.length_map, numberedRows_insertArgs, hcount] at hexec
  rw [execInsertBatch, List.flatMap_def]
  refine hexec.trans (if_congr ?_ rfl rfl)
  exact and_congr hwf (and_iff_left hnotNull)

/-- Batches that were all stored stand in the table one after the other. -/
theorem insertBatches_eq {driver : DBDriver} {t t' : Table} {batches : List (List AuditEntry)}
    (h : insertBatches driver t batches = some t') :
    t'.rows = t.rows ++ (batches.flatten.zipIdx t.nextID).map logRow := by
  induction batches generalizing t with
  | nil =>
      obtain rfl : t = t' := Option.some.inj h
      simp
  | cons batch batches ih =>
      rw [insertBatches, List.foldlM_cons, Option.bind_eq_bind, Option.bind_eq_some_iff] at h
      obtain ⟨t₁, hfirst, hrest⟩ := h
      rw [execInsertBatch_eq, Option.ite_none_right_eq_some, Option.some.injEq] at hfirst
      obtain ⟨-, rfl⟩ := hfirst
      rw [ih hrest, List.flatten_cons, List.zipIdx_append, List.map_append, List.append_assoc]

/-- A text that is no `NULL`. -/
def textOf : Value → Option String
  | .text s => some s
  | _ => none

/-- The columns of a row as an `AuditRow`. -/
def auditRowOf (row : Row) : AuditRow where
  actorID := textOf (row "actor_id")
  actorIP := textOf (row "actor_ip")
  actorUserAgent := textOf (row "actor_user_agent")
  action := (textOf (row "action")).getD ""
  targetResource := textOf (row "target_resource")
  targetApp := textOf (row "target_app")
  beforeState := textOf (row "before_state")
  afterState := textOf (row "after_state")
  status := (textOf (row "status")).getD ""
  traceID := textOf (row "trace_id")
  timestamp :=
    match row "timestamp" with
    | .time t => some t
    | _ => none

/-- SQLite rejects no row. -/
def sqliteAudit : AuditDatabase where
  rejects := fun _ => false
  maxRows := 32766 / 11

/-- The row of a stamped entry. -/
theorem auditRowOf_logRow {p : AuditEntry × Nat} (h : p.1.timestamp.isSome) :
    auditRowOf (logRow p) = auditRow p.1 := by
  obtain ⟨t, ht⟩ := Option.isSome_iff_exists.mp h
  have htext (o : Option String) : textOf (.ofOption o) = o := by
    cases o <;> rfl
  have hrow : auditRowOf (logRow p) =
      { auditRow p.1 with
        actorID := textOf (.ofOption (nullableString p.1.actorID))
        actorIP := textOf (.ofOption (nullableString p.1.actorIP))
        actorUserAgent := textOf (.ofOption (nullableString p.1.actorUserAgent))
        targetResource := textOf (.ofOption (nullableString p.1.targetResource))
        targetApp := textOf (.ofOption (nullableString p.1.targetApp))
        beforeState := textOf (.ofOption (nullableString p.1.beforeState))
        afterState := textOf (.ofOption (nullableString p.1.afterState))
        traceID := textOf (.ofOption (nullableString p.1.traceID))
        timestamp := some p.1.time } := by
    rw [logRow_eq]
    rfl
  simp only [hrow, htext, AuditEntry.time, ht, Option.getD_some, auditRow]

/-- **The statement stores the rows** that `insertBatch` stores on a database that rejects
none. -/
theorem execInsertBatch_refines (driver : DBDriver) (t : Table) {entries : List AuditEntry}
    (hne : entries ≠ []) (hstamped : ∀ e ∈ entries, e.timestamp.isSome) :
    (execInsertBatch driver t entries).map (fun t => t.rows.map auditRowOf) =
      insertBatch sqliteAudit (t.rows.map auditRowOf) entries := by
  have hrows : ((entries.zipIdx t.nextID).map logRow).map auditRowOf = entries.map auditRow := by
    rw [List.map_map]
    refine Eq.trans (List.map_congr_left (g := auditRow ∘ Prod.fst) fun p hp => ?_) ?_
    · exact auditRowOf_logRow (hstamped p.1 (List.fst_mem_of_mem_zipIdx hp))
    · rw [← List.map_map, List.zipIdx_map_fst]
  have htakes : sqliteAudit.Takes (entries.map auditRow) ↔
      entries.length * 11 ≤ auditSchema.maxParameters := by
    have hnone : ∀ row ∈ entries.map auditRow, sqliteAudit.rejects row = false := fun _ _ => rfl
    rw [AuditDatabase.Takes, and_iff_left hnone, List.length_map]
    exact Nat.le_div_iff_mul_le (by decide)
  rw [execInsertBatch_eq, insertBatch]
  simp only [hne, ne_eq, not_false_iff, true_and, htakes]
  split_ifs
  · rw [Option.map_some, List.map_append, hrows]
  · rfl

/-! ### Reading -/

/-- `audit.Filter`. -/
structure AuditFilter where
  actorID : String
  action : String
  targetApp : String
  status : String
  since : Option Int
  untilTime : Option Int
  limit : Int
  offset : Int
  deriving DecidableEq, Repr

/-- `audit.Record`. -/
structure AuditRecord where
  id : Int
  actorID : String
  actorIP : String
  actorUserAgent : String
  action : String
  targetResource : String
  targetApp : String
  beforeState : String
  afterState : String
  status : String
  traceID : String
  timestamp : Int
  deriving DecidableEq, Repr

/-- The column of the timestamps, as the driver spells it. -/
def tsCol : DBDriver → String
  | .mysql | .sqlite => "timestamp"
  | .mssql => "[timestamp]"
  | .postgres => "\"timestamp\""

/-- The conditions and the arguments of a query so far. -/
structure WhereArgs where
  conditions : List Condition
  args : List Value
  deriving DecidableEq, Repr

/-- `add`. -/
def WhereArgs.add (driver : DBDriver) (w : WhereArgs) (b : Bound) : WhereArgs :=
  let args := w.args ++ [b.value]
  ⟨w.conditions ++ [.compare b.column b.op (driver.placeholder args.length)], args⟩

namespace AuditFilter

variable (f : AuditFilter)

/-- The limit that `Query` uses. -/
def effectiveLimit : Int :=
  if f.limit ≤ 0 ∨ 1000 < f.limit then 100 else f.limit

/-- The conditions and arguments that `Query` collects from the fields that are set. -/
def whereArgs (driver : DBDriver) : WhereArgs :=
  let w : WhereArgs := ⟨[.always], []⟩
  let w := if f.actorID ≠ "" then w.add driver ⟨"actor_id", .eq, .text f.actorID⟩ else w
  let w := if f.action ≠ "" then w.add driver ⟨"action", .eq, .text f.action⟩ else w
  let w := if f.targetApp ≠ "" then w.add driver ⟨"target_app", .eq, .text f.targetApp⟩ else w
  let w := if f.status ≠ "" then w.add driver ⟨"status", .eq, .text f.status⟩ else w
  let w :=
    match f.since with
    | some t => w.add driver ⟨tsCol driver, .ge, .time t⟩
    | none => w
  match f.untilTime with
  | some t => w.add driver ⟨tsCol driver, .le, .time t⟩
  | none => w

/-- The columns of the statement of `Query`. -/
def selectColumns (driver : DBDriver) : List String :=
  ["id", "actor_id", "actor_ip", "actor_user_agent", "action", "target_resource", "target_app",
    "before_state", "after_state", "status", "trace_id", tsCol driver]

/-- The statement of `Query` and its arguments. -/
def statement (driver : DBDriver) : Select × List Value :=
  let w := f.whereArgs driver
  let args := w.args ++ [.int f.effectiveLimit]
  let limitPh := driver.placeholder args.length
  let args := args ++ [.int f.offset]
  let offsetPh := driver.placeholder args.length
  (⟨selectColumns driver, w.conditions, tsCol driver, limitPh, offsetPh⟩, args)

end AuditFilter

/-- `nullString.Scan`. The text of a time, which it is never given, is that of its number. -/
def nullString : Value → String
  | .null => ""
  | .text s => s
  | .int n => toString n
  | .time t => toString t

/-- A scan into a plain string, which takes no `NULL`. -/
def scanString (v : Value) : Option String :=
  if v = .null then none else some (nullString v)

/-- The `Scan` of a row into a record. -/
def scanRecord : List Value → Option AuditRecord
  | [.int id, actorID, actorIP, actorUA, action, targetResource, targetApp, before, after, status,
      traceID, .time timestamp] =>
      (scanString action).bind fun action => (scanString status).map fun status =>
        { id := id
          actorID := nullString actorID
          actorIP := nullString actorIP
          actorUserAgent := nullString actorUA
          action := action
          targetResource := nullString targetResource
          targetApp := nullString targetApp
          beforeState := nullString before
          afterState := nullString after
          status := status
          traceID := nullString traceID
          timestamp := timestamp }
  | _ => none

/-- `Query`, or `none` for an error. -/
def auditQuery (driver : DBDriver) (order : RowOrder) (t : Table) (f : AuditFilter) :
    Option (List AuditRecord) :=
  let (stmt, args) := f.statement driver
  (stmt.exec order t args).bind fun rows => rows.mapM scanRecord

/-! ### What a query returns -/

/-- The entry satisfies every field that is set. -/
def AuditFilter.Matches (f : AuditFilter) (e : AuditEntry) : Prop :=
  (f.actorID ≠ "" → e.actorID = f.actorID) ∧ (f.action ≠ "" → e.action = f.action) ∧
    (f.targetApp ≠ "" → e.targetApp = f.targetApp) ∧ (f.status ≠ "" → e.status = f.status) ∧
    (∀ t ∈ f.since, t ≤ e.time) ∧ ∀ t ∈ f.untilTime, e.time ≤ t

instance (f : AuditFilter) (e : AuditEntry) : Decidable (f.Matches e) :=
  inferInstanceAs (Decidable (_ ∧ _))

/-- The record of an entry, with its number. -/
def AuditEntry.record (p : AuditEntry × Nat) : AuditRecord where
  id := p.2
  actorID := p.1.actorID
  actorIP := p.1.actorIP
  actorUserAgent := p.1.actorUserAgent
  action := p.1.action
  targetResource := p.1.targetResource
  targetApp := p.1.targetApp
  beforeState := p.1.beforeState
  afterState := p.1.afterState
  status := p.1.status
  traceID := p.1.traceID
  timestamp := p.1.time

/-- The comparisons of the fields that are set. -/
def AuditFilter.bounds (f : AuditFilter) (driver : DBDriver) : List Bound :=
  (if f.actorID ≠ "" then [⟨"actor_id", .eq, .text f.actorID⟩] else []) ++
    (if f.action ≠ "" then [⟨"action", .eq, .text f.action⟩] else []) ++
    (if f.targetApp ≠ "" then [⟨"target_app", .eq, .text f.targetApp⟩] else []) ++
    (if f.status ≠ "" then [⟨"status", .eq, .text f.status⟩] else []) ++
    (f.since.toList.map fun t => ⟨tsCol driver, .ge, .time t⟩) ++
    f.untilTime.toList.map fun t => ⟨tsCol driver, .le, .time t⟩

/-- Comparisons that are added one after the other are numbered. -/
theorem foldl_add (driver : DBDriver) (bounds : List Bound) :
    bounds.foldl (WhereArgs.add driver) ⟨[.always], []⟩ =
      ⟨.always :: numbered driver.placeholder 0 bounds, bounds.map Bound.value⟩ := by
  induction bounds using List.reverseRecOn with
  | nil => rfl
  | append_singleton bounds b ih =>
      rw [List.foldl_append, ih, List.foldl_cons, List.foldl_nil, WhereArgs.add]
      simp [numbered, List.zipIdx_append]

/-- A comparison that is added under a condition. -/
theorem ite_add (driver : DBDriver) (w : WhereArgs) (p : Prop) [Decidable p] (b : Bound) :
    (if p then w.add driver b else w) =
      (if p then [b] else []).foldl (WhereArgs.add driver) w := by
  split_ifs <;> rfl

/-- **The conditions and values of a query** are those of the fields that are set. -/
theorem whereArgs_eq (f : AuditFilter) (driver : DBDriver) :
    f.whereArgs driver =
      ⟨.always :: numbered driver.placeholder 0 (f.bounds driver),
        (f.bounds driver).map Bound.value⟩ := by
  rw [← foldl_add, AuditFilter.bounds]
  simp only [List.foldl_append, ← ite_add, AuditFilter.whereArgs]
  cases f.since <;> cases f.untilTime <;> rfl

/-- The driver's spelling names the column. -/
theorem identifier_tsCol (driver : DBDriver) : identifier (tsCol driver) = "timestamp" := by
  cases driver <;> decide

/-- A text compares equal to a nonempty one when it is that one. -/
theorem holds_eq_nullableString {s t : String} (ht : t ≠ "") :
    Op.eq.holds (.ofOption (nullableString s)) (.text t) = true ↔ s = t := by
  by_cases hs : s = ""
  · subst hs
    simp [Op.holds, nullableString, Value.ofOption, ht.symm]
  · simp [Op.holds, nullableString_eq_some hs, Value.ofOption]

/-- A comparison under a condition. -/
theorem all_ite {p : Prop} [Decidable p] {b : Bound} {row : Row} :
    ((if p then [b] else []).all fun b => b.holds row) = true ↔ (p → b.holds row = true) := by
  split_ifs with h <;> simp [h]

/-- **The row of an entry meets the comparisons** when the entry satisfies the filter. -/
theorem bounds_hold_logRow (f : AuditFilter) (driver : DBDriver) (p : AuditEntry × Nat) :
    ((f.bounds driver).all fun b => b.holds (logRow p)) = true ↔ f.Matches p.1 := by
  have hactor (h : f.actorID ≠ "") :
      Bound.holds ⟨"actor_id", .eq, .text f.actorID⟩ (logRow p) = true ↔
        p.1.actorID = f.actorID := by
    have hcol : logRow p (identifier "actor_id") = .ofOption (nullableString p.1.actorID) := by
      rw [logRow_eq]
      rfl
    rw [Bound.holds, hcol, holds_eq_nullableString h]
  have haction : Bound.holds ⟨"action", .eq, .text f.action⟩ (logRow p) = true ↔
      p.1.action = f.action := by
    have hcol : logRow p (identifier "action") = .text p.1.action := by
      rw [logRow_eq]
      rfl
    rw [Bound.holds, hcol]
    simp [Op.holds]
  have htargetApp (h : f.targetApp ≠ "") :
      Bound.holds ⟨"target_app", .eq, .text f.targetApp⟩ (logRow p) = true ↔
        p.1.targetApp = f.targetApp := by
    have hcol : logRow p (identifier "target_app") = .ofOption (nullableString p.1.targetApp) := by
      rw [logRow_eq]
      rfl
    rw [Bound.holds, hcol, holds_eq_nullableString h]
  have hstatus : Bound.holds ⟨"status", .eq, .text f.status⟩ (logRow p) = true ↔
      p.1.status = f.status := by
    have hcol : logRow p (identifier "status") = .text p.1.status := by
      rw [logRow_eq]
      rfl
    rw [Bound.holds, hcol]
    simp [Op.holds]
  have htime (op : Op) (t : Int) : Bound.holds ⟨tsCol driver, op, .time t⟩ (logRow p) =
      op.holds (.time p.1.time) (.time t) := by
    rw [Bound.holds, identifier_tsCol, logRow_eq]
    rfl
  simp only [AuditFilter.bounds, List.all_append, Bool.and_eq_true, all_ite, List.all_map,
    and_assoc]
  rw [AuditFilter.Matches]
  refine and_congr (forall_congr' hactor) (and_congr (imp_congr_right fun _ => haction) ?_)
  refine and_congr (forall_congr' htargetApp) (and_congr (imp_congr_right fun _ => hstatus) ?_)
  cases f.since <;> cases f.untilTime <;> simp [htime, Op.holds, Value.le]

/-- **The row of an entry is scanned as its record.** -/
theorem scanRecord_logRow (driver : DBDriver) (p : AuditEntry × Nat) :
    scanRecord ((AuditFilter.selectColumns driver).map fun c => logRow p (identifier c)) =
      some (AuditEntry.record p) := by
  have hscan (s : String) : nullString (.ofOption (nullableString s)) = s := by
    by_cases hs : s = ""
    · subst hs
      rfl
    · rw [nullableString_eq_some hs]
      rfl
  have hvalues : ((AuditFilter.selectColumns driver).map fun c => logRow p (identifier c)) =
      .int p.2 :: insertArgs p.1 := by
    simp only [AuditFilter.selectColumns, List.map_cons, List.map_nil, identifier_tsCol,
      logRow_eq]
    rfl
  rw [hvalues, insertArgs]
  simp only [scanRecord, scanString, hscan, reduceCtorEq, if_false, Option.bind_some,
    Option.map_some]
  rfl

/-- The limit is positive, so the window is cut from the front. -/
theorem window_effectiveLimit {α : Type*} (f : AuditFilter) (xs : List α) :
    window f.effectiveLimit f.offset xs =
      (xs.drop f.offset.toNat).take f.effectiveLimit.toNat := by
  have hpos : ¬ f.effectiveLimit < 0 := by
    rw [AuditFilter.effectiveLimit]
    split_ifs <;> omega
  rw [window, if_neg hpos]

/-- What a query reads: the rows that meet its comparisons, in their order, cut to the window. -/
theorem auditQuery_eq (driver : DBDriver) (order : RowOrder) (t : Table) (f : AuditFilter) :
    auditQuery driver order t f =
      (((order.sort (fun row => row "timestamp")
        (t.rows.filter fun row => (f.bounds driver).all fun b => b.holds row)).drop
          f.offset.toNat).take f.effectiveLimit.toNat).mapM fun row =>
            scanRecord ((AuditFilter.selectColumns driver).map fun c => row (identifier c)) := by
  have hexec := select_exec (sequential_placeholder driver) order t
    (AuditFilter.selectColumns driver) (f.bounds driver) (tsCol driver) f.effectiveLimit f.offset
  rw [identifier_tsCol, window_effectiveLimit] at hexec
  have hstatement : f.statement driver =
      (⟨AuditFilter.selectColumns driver,
        .always :: numbered driver.placeholder 0 (f.bounds driver), tsCol driver,
        driver.placeholder ((f.bounds driver).length + 1),
        driver.placeholder ((f.bounds driver).length + 2)⟩,
        (f.bounds driver).map Bound.value ++ [.int f.effectiveLimit, .int f.offset]) := by
    simp [AuditFilter.statement, whereArgs_eq]
  rw [auditQuery, hstatement]
  dsimp only
  rw [hexec, Option.bind_some, List.mapM_map]
  rfl

/-- Three entries at different times, in two batches. -/
def exampleBatches : List (List AuditEntry) :=
  [[{ exampleEntry "user.create" with timestamp := some 3, actorID := "u" },
      { exampleEntry "user.delete" with timestamp := some 5 }],
    [{ exampleEntry "user.create" with timestamp := some 4, actorID := "v" }]]

end IdpForge
