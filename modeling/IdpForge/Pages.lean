import IdpForge.AuditQuery
import IdpForge.Paging

/-!
# Pages of Listings

The audit log, the events of devices and the users are listed page by page, each page by a query
of its own with a limit and an offset. `ORDER BY` sorts the rows by a time alone: rows with the
same time come in whichever order the database chooses, and in another one for the next page.

Statements are read as in standard SQL, where double quotes delimit a name.

## Main results

* `pagesPartition_iff`: exactly when every row is on one page.
* `pages_partition_iff`: the same of the three endpoints.
* `unsplit_of_nodup`: rows of different times always are.
-/

open Sql Paging

namespace IdpForge

/-! ### Orders of rows -/

/-- A row may come before another in the descending order of a key. -/
def ByKey (key : Row → Value) (a b : Row) : Prop := (key b).le (key a) = true

instance (key : Row → Value) : DecidableRel (ByKey key) :=
  fun a b => inferInstanceAs (Decidable ((key b).le (key a) = true))

instance (key : Row → Value) : Std.Refl (ByKey key) :=
  ⟨fun a => by simpa [ByKey] using Value.total (key a) (key a)⟩

instance (key : Row → Value) : IsTrans Row (ByKey key) :=
  ⟨fun _ _ _ hab hbc => Value.trans _ _ _ hbc hab⟩

/-- What a database returns is an arrangement of the rows. -/
theorem arranges_sort (order : RowOrder) (key : Row → Value) (rows : List Row) :
    Arranges (ByKey key) rows (order.sort key rows) :=
  ⟨order.perm key rows, order.sorted key rows⟩

/-- The rows of one key stay in the order of their numbers, but for those at a position and the
next one. -/
def exchangingOrder (m : Nat) : RowOrder where
  sort := fun key rows => swapTied (ByKey key) m (RowOrder.stable.sort key rows)
  perm := fun key rows => ((arranges_sort .stable key rows).swapTied m).perm
  sorted := fun key rows => ((arranges_sort .stable key rows).swapTied m).sorted

/-! ### Pages -/

/-- A size of pages up to the cap of an endpoint. -/
structure PageSize (cap : Nat) where
  size : Nat
  pos : 0 < size
  le_cap : size ≤ cap

/-- The content of a table: its rows can be read, and the column `id` tells them apart. -/
structure Content {β : Type} (read : Row → Option β) where
  table : Table
  readable : ∀ row ∈ table.rows, (read row).isSome
  distinct : (table.rows.map fun row => row "id").Nodup

section Partition

variable {β : Type} {read : Row → Option β} {key : Row → Value} {size : Nat} {found : List Row}
  {pages : RowOrder → Nat → Option (List β)}

/-- Every row is on exactly one page, as it is read there, whichever order the query for each page
meets. -/
def PagesPartition (read : Row → Option β) (pages : RowOrder → Nat → Option (List β))
    (found : List Row) : Prop :=
  ∀ orders : Nat → RowOrder, ∀ row ∈ found, ∀ b, read row = some b →
    ∃! i, ∃ p, pages (orders i) i = some p ∧ b ∈ p

/-- Rows that can be read are read one by one. -/
theorem mapM_eq_filterMap {rows : List Row} (h : ∀ row ∈ rows, (read row).isSome) :
    rows.mapM read = some (rows.filterMap read) := by
  induction rows with
  | nil => rfl
  | cons row rows ih =>
      obtain ⟨hrow, hrows⟩ := List.forall_mem_cons.mp h
      obtain ⟨b, hb⟩ := Option.isSome_iff_exists.mp hrow
      rw [List.mapM_cons, ih hrows, hb, List.filterMap_cons_some hb]
      rfl

/-- A row of the content is told by what is read of it, if that has the row's id. -/
theorem Content.eq_of_read (c : Content read) (id : β → Value)
    (hid : ∀ row b, read row = some b → row "id" = id b) {row row' : Row} {b : β}
    (hmem : row ∈ c.table.rows) (hmem' : row' ∈ c.table.rows) (hb : read row = some b)
    (hb' : read row' = some b) : row = row' :=
  List.inj_on_of_nodup_map c.distinct hmem hmem' ((hid row b hb).trans (hid row' b hb').symm)

/-- **Pages partition the rows** exactly when no boundary between two pages falls among rows with
the same key. -/
theorem pagesPartition_iff
    (hpages : ∀ (order : RowOrder) (i : Nat),
      pages order i = (page size i (order.sort key found)).mapM read)
    (hreadable : ∀ row ∈ found, (read row).isSome)
    (hinj : ∀ row ∈ found, ∀ row' ∈ found, ∀ b, read row = some b → read row' = some b →
      row = row')
    (hsize : 0 < size) :
    PagesPartition read pages found ↔ Unsplit (ByKey key) size found := by
  have hmem : ∀ (order : RowOrder) (i : Nat), ∀ row ∈ page size i (order.sort key found),
      row ∈ found := by
    intro order i row hrow
    obtain ⟨p, -, -, hp⟩ := mem_page_iff.mp hrow
    exact (order.perm key found).mem_iff.mp (List.mem_of_getElem? hp)
  have hon : ∀ (order : RowOrder) (i : Nat), ∀ row ∈ found, ∀ b, read row = some b →
      ((∃ p, pages order i = some p ∧ b ∈ p) ↔
        row ∈ page size i (order.sort key found)) := by
    intro order i row hrow b hb
    rw [hpages, mapM_eq_filterMap fun row hrow => hreadable row (hmem order i row hrow)]
    simp only [Option.some.injEq, exists_eq_left', List.mem_filterMap]
    constructor
    · rintro ⟨row', hrow', hb'⟩
      rwa [hinj row hrow row' (hmem order i row' hrow') b hb hb']
    · exact fun h => ⟨row, h, hb⟩
  constructor
  · intro hpartition
    by_contra hsplit
    obtain ⟨i, row, hrow, hfirst, hsecond⟩ :=
      mem_pages_swapTied (arranges_sort .stable key found) hsplit
    obtain ⟨b, hb⟩ := Option.isSome_iff_exists.mp (hreadable row hrow)
    -- the query for the second page meets the two rows at the boundary the other way around
    let orders : Nat → RowOrder := fun k =>
      if k = i then .stable else exchangingOrder ((i + 1) * size - 1)
    have hlower : ∃ p, pages (orders i) i = some p ∧ b ∈ p := by
      refine (hon _ i row hrow b hb).mpr ?_
      simpa only [orders, if_true] using hfirst
    have hupper : ∃ p, pages (orders (i + 1)) (i + 1) = some p ∧ b ∈ p := by
      refine (hon _ (i + 1) row hrow b hb).mpr ?_
      rw [show orders (i + 1) = exchangingOrder ((i + 1) * size - 1) from if_neg (by omega)]
      exact hsecond
    have hsame : i = i + 1 := (hpartition orders row hrow b hb).unique hlower hupper
    omega
  · intro hunsplit orders row hrow b hb
    simp only [hon _ _ row hrow b hb]
    exact existsUnique_page (fun i => arranges_sort (orders i) key found) hunsplit hsize hrow

/-- Rows with different keys are never split, so every listing of them is partitioned. -/
theorem unsplit_of_nodup (hkeys : (found.map key).Nodup) : Unsplit (ByKey key) size found :=
  unsplit_of_untied (List.Nodup.of_map key hkeys) fun _ ha _ hb hab hba =>
    List.inj_on_of_nodup_map hkeys ha hb (Value.antisymm hba hab)

end Partition

/-! ### The audit log -/

/-- A row of `audit_logs`, as `Query` reads it. -/
def readAudit (driver : DBDriver) (row : Row) : Option AuditRecord :=
  scanRecord ((AuditFilter.selectColumns driver).map fun c => row (identifier c))

/-- The rows that satisfy every field of the filter that is set. -/
def AuditFilter.matching (f : AuditFilter) (driver : DBDriver) (rows : List Row) : List Row :=
  rows.filter fun row => (f.bounds driver).all fun b => b.holds row

/-- The pages of `Query`. -/
def auditPages (driver : DBDriver) (t : Table) (f : AuditFilter) (size : PageSize 1000)
    (order : RowOrder) (i : Nat) : Option (List AuditRecord) :=
  auditQuery driver order t { f with limit := size.size, offset := (i * size.size : Nat) }

/-! ### The events of devices -/

/-- `iot.EventFilter`. -/
structure EventFilter where
  userID : String
  deviceID : String
  eventType : String
  resource : String
  since : Option Int
  untilTime : Option Int
  limit : Int
  offset : Int
  deriving DecidableEq, Repr

/-- `iot.Event`, as `QueryEvents` reads it. -/
structure ListedEvent where
  id : Int
  deviceID : String
  userID : String
  credentialType : String
  credentialRef : String
  eventType : String
  resource : String
  metadata : Option String
  status : String
  timestamp : Int
  deriving DecidableEq, Repr

/-- A limit between 1 and a cap, and a default in place of any other. -/
def cappedLimit (cap default limit : Int) : Int :=
  if limit ≤ 0 ∨ cap < limit then default else limit

namespace EventFilter

variable (f : EventFilter)

/-- The limit that `QueryEvents` uses. -/
def effectiveLimit : Int := cappedLimit 1000 100 f.limit

/-- The conditions and arguments that `QueryEvents` collects from the fields that are set. -/
def whereArgs (driver : DBDriver) : WhereArgs :=
  let w : WhereArgs := ⟨[.always], []⟩
  let w := if f.userID ≠ "" then w.add driver ⟨"user_id", .eq, .text f.userID⟩ else w
  let w := if f.deviceID ≠ "" then w.add driver ⟨"device_id", .eq, .text f.deviceID⟩ else w
  let w := if f.eventType ≠ "" then w.add driver ⟨"event_type", .eq, .text f.eventType⟩ else w
  let w := if f.resource ≠ "" then w.add driver ⟨"resource", .eq, .text f.resource⟩ else w
  let w :=
    match f.since with
    | some t => w.add driver ⟨"\"timestamp\"", .ge, .time t⟩
    | none => w
  match f.untilTime with
  | some t => w.add driver ⟨"\"timestamp\"", .le, .time t⟩
  | none => w

/-- The columns of the statement of `QueryEvents`. -/
def selectColumns : List String :=
  ["id", "device_id", "user_id", "credential_type", "credential_ref", "event_type", "resource",
    "metadata", "status", "\"timestamp\""]

/-- The statement of `QueryEvents` and its arguments. -/
def statement (driver : DBDriver) : Select × List Value :=
  let w := f.whereArgs driver
  let args := w.args ++ [.int f.effectiveLimit]
  let limitPh := driver.placeholder args.length
  let args := args ++ [.int f.offset]
  let offsetPh := driver.placeholder args.length
  (⟨selectColumns, w.conditions, "\"timestamp\"", limitPh, offsetPh⟩, args)

/-- The comparisons of the fields that are set. -/
def bounds : List Bound :=
  (if f.userID ≠ "" then [⟨"user_id", .eq, .text f.userID⟩] else []) ++
    (if f.deviceID ≠ "" then [⟨"device_id", .eq, .text f.deviceID⟩] else []) ++
    (if f.eventType ≠ "" then [⟨"event_type", .eq, .text f.eventType⟩] else []) ++
    (if f.resource ≠ "" then [⟨"resource", .eq, .text f.resource⟩] else []) ++
    (f.since.toList.map fun t => ⟨"\"timestamp\"", .ge, .time t⟩) ++
    f.untilTime.toList.map fun t => ⟨"\"timestamp\"", .le, .time t⟩

/-- The rows that satisfy every field that is set. -/
def matching (rows : List Row) : List Row :=
  rows.filter fun row => f.bounds.all fun b => b.holds row

end EventFilter

/-- The `Scan` of a row into an event. -/
def scanEvent : List Value → Option ListedEvent
  | [.int id, deviceID, userID, credType, credRef, eventType, resource, metadata, status,
      .time timestamp] =>
      (scanString deviceID).bind fun deviceID => (scanString eventType).bind fun eventType =>
        (scanString status).map fun status =>
          { id := id
            deviceID := deviceID
            userID := nullString userID
            credentialType := nullString credType
            credentialRef := nullString credRef
            eventType := eventType
            resource := nullString resource
            metadata := scanString metadata
            status := status
            timestamp := timestamp }
  | _ => none

/-- A row of `device_events`, as `QueryEvents` reads it. -/
def readEvent (row : Row) : Option ListedEvent :=
  scanEvent (EventFilter.selectColumns.map fun c => row (identifier c))

/-- `QueryEvents`, or `none` for an error. -/
def queryEvents (driver : DBDriver) (order : RowOrder) (t : Table) (f : EventFilter) :
    Option (List ListedEvent) :=
  let (stmt, args) := f.statement driver
  (stmt.exec order t args).bind fun rows => rows.mapM scanEvent

/-- The pages of `QueryEvents`. -/
def eventPages (driver : DBDriver) (t : Table) (f : EventFilter) (size : PageSize 1000)
    (order : RowOrder) (i : Nat) : Option (List ListedEvent) :=
  queryEvents driver order t { f with limit := size.size, offset := (i * size.size : Nat) }

/-! ### The users -/

/-- `users.User`. -/
structure ListedUser where
  id : String
  username : String
  email : String
  employeeID : String
  status : String
  mfaEnabled : Bool
  source : String
  externalID : String
  avatarURL : String
  forcePasswordChange : Bool
  createdAt : Int
  updatedAt : Int
  lastLoginAt : Option Int
  deriving DecidableEq, Repr

/-- `selectUserColumns`. -/
def selectUserColumns : List String :=
  ["id", "username", "email", "employee_id", "status", "mfa_enabled", "source", "external_id",
    "avatar_url", "force_password_change", "created_at", "updated_at", "last_login_at"]

/-- A scan into a boolean, which the database has as a number. -/
def scanBool : Value → Option Bool
  | .int 0 => some false
  | .int 1 => some true
  | _ => none

/-- `sql.NullTime`. -/
def nullTime : Value → Option (Option Int)
  | .null => some none
  | .time t => some (some t)
  | _ => none

/-- `scanRow`. -/
def scanUser : List Value → Option ListedUser
  | [.text id, username, email, employeeID, status, mfaEnabled, source, externalID, avatarURL,
      forcePasswordChange, .time createdAt, .time updatedAt, lastLoginAt] => do
      let username ← scanString username
      let email ← scanString email
      let status ← scanString status
      let mfaEnabled ← scanBool mfaEnabled
      let source ← scanString source
      let forcePasswordChange ← scanBool forcePasswordChange
      let lastLoginAt ← nullTime lastLoginAt
      some
        { id := id
          username := username
          email := email
          employeeID := nullString employeeID
          status := status
          mfaEnabled := mfaEnabled
          source := source
          externalID := nullString externalID
          avatarURL := nullString avatarURL
          forcePasswordChange := forcePasswordChange
          createdAt := createdAt
          updatedAt := updatedAt
          lastLoginAt := lastLoginAt }
  | _ => none

/-- A row of `users`, as `List` reads it. -/
def readUser (row : Row) : Option ListedUser :=
  scanUser (selectUserColumns.map fun c => row (identifier c))

/-- `List`, or `none` for an error. -/
def usersList (driver : DBDriver) (order : RowOrder) (t : Table) (limit offset : Int) :
    Option (List ListedUser) :=
  let stmt : Select :=
    ⟨selectUserColumns, [], "created_at", driver.placeholder 1, driver.placeholder 2⟩
  (stmt.exec order t [.int limit, .int offset]).bind fun rows => rows.mapM scanUser

/-- `handleListUsers`, up to the answer. -/
def handleListUsers (driver : DBDriver) (order : RowOrder) (t : Table) (limit offset : Int) :
    Option (List ListedUser) :=
  usersList driver order t (cappedLimit 500 50 limit) offset

/-- The pages of `handleListUsers`. -/
def userPages (driver : DBDriver) (t : Table) (size : PageSize 500) (order : RowOrder) (i : Nat) :
    Option (List ListedUser) :=
  handleListUsers driver order t size.size (i * size.size : Nat)

/-! ### Each endpoint -/

/-- The window of a page. -/
theorem window_page {α : Type} (size i : Nat) (xs : List α) :
    window (size : Int) (i * size : Nat) xs = page size i xs := by
  rw [window, if_neg (by omega), page, Int.toNat_natCast, Int.toNat_natCast]

/-- A limit within the cap is used as it is. -/
theorem cappedLimit_of_le {cap default : Int} {size : Nat} (hpos : 0 < size) (hle : size ≤ cap) :
    cappedLimit cap default size = size := by
  rw [cappedLimit, if_neg (by omega)]

/-- A page of the audit log. -/
theorem auditPages_eq (driver : DBDriver) (t : Table) (f : AuditFilter) (size : PageSize 1000)
    (order : RowOrder) (i : Nat) :
    auditPages driver t f size order i =
      (page size.size i (order.sort (fun row => row "timestamp")
        (f.matching driver t.rows))).mapM (readAudit driver) := by
  have hpos := size.pos
  have hle := size.le_cap
  have hlimit : AuditFilter.effectiveLimit
      { f with limit := size.size, offset := (i * size.size : Nat) } = size.size := by
    rw [AuditFilter.effectiveLimit, if_neg (by dsimp only; omega)]
  rw [auditPages, auditQuery_eq, hlimit]
  rfl

/-- The conditions and values that `QueryEvents` collects. -/
theorem EventFilter.whereArgs_eq (f : EventFilter) (driver : DBDriver) :
    f.whereArgs driver =
      ⟨.always :: numbered driver.placeholder 0 f.bounds, f.bounds.map Bound.value⟩ := by
  rw [← foldl_add, EventFilter.bounds]
  simp only [List.foldl_append, ← ite_add, EventFilter.whereArgs]
  cases f.since <;> cases f.untilTime <;> rfl

/-- What `QueryEvents` reads: the rows that satisfy its filter, in their order, cut to the
window. -/
theorem queryEvents_eq (driver : DBDriver) (order : RowOrder) (t : Table) (f : EventFilter) :
    queryEvents driver order t f =
      (window f.effectiveLimit f.offset
        (order.sort (fun row => row "timestamp") (f.matching t.rows))).mapM readEvent := by
  have hexec := select_exec (sequential_placeholder driver) order t EventFilter.selectColumns
    f.bounds "\"timestamp\"" f.effectiveLimit f.offset
  have hstatement : f.statement driver =
      (⟨EventFilter.selectColumns, .always :: numbered driver.placeholder 0 f.bounds,
        "\"timestamp\"", driver.placeholder (f.bounds.length + 1),
        driver.placeholder (f.bounds.length + 2)⟩,
        f.bounds.map Bound.value ++ [.int f.effectiveLimit, .int f.offset]) := by
    simp [EventFilter.statement, EventFilter.whereArgs_eq]
  have hkey : identifier "\"timestamp\"" = "timestamp" := by decide
  rw [hkey] at hexec
  rw [queryEvents, hstatement]
  dsimp only
  rw [hexec, Option.bind_some, List.mapM_map]
  rfl

/-- A page of the events. -/
theorem eventPages_eq (driver : DBDriver) (t : Table) (f : EventFilter) (size : PageSize 1000)
    (order : RowOrder) (i : Nat) :
    eventPages driver t f size order i =
      (page size.size i (order.sort (fun row => row "timestamp")
        (f.matching t.rows))).mapM readEvent := by
  have hlimit : EventFilter.effectiveLimit
      { f with limit := size.size, offset := (i * size.size : Nat) } = size.size :=
    cappedLimit_of_le size.pos (by exact_mod_cast size.le_cap)
  rw [eventPages, queryEvents_eq, hlimit]
  dsimp only
  rw [window_page]
  rfl

/-- What `List` reads: all rows, in their order, cut to the window. -/
theorem usersList_eq (driver : DBDriver) (order : RowOrder) (t : Table) (limit offset : Int) :
    usersList driver order t limit offset =
      (window limit offset (order.sort (fun row => row "created_at") t.rows)).mapM readUser := by
  have hbind : bind [.int limit, .int offset] [driver.placeholder 1, driver.placeholder 2] =
      some [.int limit, .int offset] :=
    bind_sequential (sequential_placeholder driver) [.int limit, .int offset]
  have hkey : identifier "created_at" = "created_at" := by decide
  have hall : t.rows.filter (meets [] [.int limit, .int offset]) = t.rows :=
    List.filter_eq_self.mpr fun _ _ => rfl
  rw [usersList, Select.exec, Select.markers, List.filterMap_nil, List.nil_append, hbind]
  simp only [Option.bind_some, List.reverse_cons, List.reverse_nil, List.nil_append,
    List.cons_append, hkey, hall, List.mapM_map]
  rfl

/-- A page of the users. -/
theorem userPages_eq (driver : DBDriver) (t : Table) (size : PageSize 500) (order : RowOrder)
    (i : Nat) :
    userPages driver t size order i =
      (page size.size i (order.sort (fun row => row "created_at") t.rows)).mapM readUser := by
  rw [userPages, handleListUsers, cappedLimit_of_le size.pos (by exact_mod_cast size.le_cap),
    usersList_eq, window_page]

/-- A record has the id of its row. -/
theorem id_of_readAudit {driver : DBDriver} {row : Row} {rec : AuditRecord}
    (h : readAudit driver row = some rec) : row "id" = .int rec.id := by
  have hscan : ∀ vs, scanRecord vs = some rec → vs.head? = some (.int rec.id) := by
    intro vs hvs
    rw [scanRecord.eq_def] at hvs
    split at hvs
    · obtain ⟨action, -, hvs⟩ := Option.bind_eq_some_iff.mp hvs
      obtain ⟨status, -, rfl⟩ := Option.map_eq_some_iff.mp hvs
      rfl
    · simp at hvs
  exact Option.some.inj (hscan _ h)

/-- An event has the id of its row. -/
theorem id_of_readEvent {row : Row} {e : ListedEvent} (h : readEvent row = some e) :
    row "id" = .int e.id := by
  have hscan : ∀ vs, scanEvent vs = some e → vs.head? = some (.int e.id) := by
    intro vs hvs
    rw [scanEvent.eq_def] at hvs
    split at hvs
    · obtain ⟨deviceID, -, hvs⟩ := Option.bind_eq_some_iff.mp hvs
      obtain ⟨eventType, -, hvs⟩ := Option.bind_eq_some_iff.mp hvs
      obtain ⟨status, -, rfl⟩ := Option.map_eq_some_iff.mp hvs
      rfl
    · simp at hvs
  exact Option.some.inj (hscan _ h)

/-- A user has the id of the row. -/
theorem id_of_readUser {row : Row} {u : ListedUser} (h : readUser row = some u) :
    row "id" = .text u.id := by
  have hscan : ∀ vs, scanUser vs = some u → vs.head? = some (.text u.id) := by
    intro vs hvs
    rw [scanUser.eq_def] at hvs
    split at hvs
    · simp only [Option.bind_eq_bind, Option.bind_eq_some_iff, Option.some.injEq] at hvs
      obtain ⟨_, -, _, -, _, -, _, -, _, -, _, -, _, -, rfl⟩ := hvs
      rfl
    · simp at hvs
  exact Option.some.inj (hscan _ h)

/-- **Pages partition the result** of `Query`, of `QueryEvents` and of `List` exactly when no
boundary between two pages falls among matching rows of the same time: for every content of the
table, every filter and every size of pages up to the cap, each matching row is on exactly one
page, however the database orders rows of the same time in each query, if and only if the rows of
each time are all on one page. -/
theorem pages_partition_iff (driver : DBDriver) :
    (∀ (c : Content (readAudit driver)) (f : AuditFilter) (size : PageSize 1000),
        PagesPartition (readAudit driver) (auditPages driver c.table f size)
            (f.matching driver c.table.rows) ↔
          Unsplit (ByKey fun row => row "timestamp") size.size (f.matching driver c.table.rows)) ∧
      (∀ (c : Content readEvent) (f : EventFilter) (size : PageSize 1000),
        PagesPartition readEvent (eventPages driver c.table f size) (f.matching c.table.rows) ↔
          Unsplit (ByKey fun row => row "timestamp") size.size (f.matching c.table.rows)) ∧
      ∀ (c : Content readUser) (size : PageSize 500),
        PagesPartition readUser (userPages driver c.table size) c.table.rows ↔
          Unsplit (ByKey fun row => row "created_at") size.size c.table.rows := by
  refine ⟨fun c f size => ?_, fun c f size => ?_, fun c size => ?_⟩
  · have hmem : ∀ row ∈ f.matching driver c.table.rows, row ∈ c.table.rows :=
      fun _ hrow => List.mem_of_mem_filter hrow
    exact pagesPartition_iff (auditPages_eq driver c.table f size)
      (fun row hrow => c.readable row (hmem row hrow))
      (fun row hrow row' hrow' b => c.eq_of_read (fun rec => .int rec.id)
        (fun _ _ => id_of_readAudit) (hmem row hrow) (hmem row' hrow'))
      size.pos
  · have hmem : ∀ row ∈ f.matching c.table.rows, row ∈ c.table.rows :=
      fun _ hrow => List.mem_of_mem_filter hrow
    exact pagesPartition_iff (eventPages_eq driver c.table f size)
      (fun row hrow => c.readable row (hmem row hrow))
      (fun row hrow row' hrow' b => c.eq_of_read (fun e => .int e.id)
        (fun _ _ => id_of_readEvent) (hmem row hrow) (hmem row' hrow'))
      size.pos
  · exact pagesPartition_iff (userPages_eq driver c.table size) c.readable
      (fun row hrow row' hrow' b => c.eq_of_read (fun u => .text u.id)
        (fun _ _ => id_of_readUser) hrow hrow')
      size.pos

/-! ### A burst of entries -/

/-- Two entries logged within one tick of the clock. -/
def burstEntries : List AuditEntry :=
  [{ exampleEntry "user.create" with timestamp := some 3 },
    { exampleEntry "role.assign" with timestamp := some 3 }]

/-- The audit log with these two. -/
def burst : Content (readAudit .sqlite) where
  table := ⟨(burstEntries.zipIdx 1).map logRow, 3⟩
  readable := by
    intro row hrow
    obtain ⟨p, -, rfl⟩ := List.mem_map.mp hrow
    exact Option.isSome_iff_exists.mpr ⟨_, scanRecord_logRow .sqlite p⟩
  distinct := by decide +kernel

/-- Pages of one entry each. -/
def singly : PageSize 1000 := ⟨1, by decide, by decide⟩

/-- **An entry on two pages.** The query for the second page meets the two entries the other way
around: both pages show the first entry, and none shows the second. -/
theorem entry_on_two_pages :
    execInsertBatch .sqlite Table.empty burstEntries = some burst.table ∧
      auditPages .sqlite burst.table ⟨"", "", "", "", none, none, 0, 0⟩ singly .stable 0 =
        some [AuditEntry.record (burstEntries[0], 1)] ∧
      auditPages .sqlite burst.table ⟨"", "", "", "", none, none, 0, 0⟩ singly
        (exchangingOrder 0) 1 = some [AuditEntry.record (burstEntries[0], 1)] ∧
      ¬ PagesPartition (readAudit .sqlite)
        (auditPages .sqlite burst.table ⟨"", "", "", "", none, none, 0, 0⟩ singly)
        (AuditFilter.matching ⟨"", "", "", "", none, none, 0, 0⟩ .sqlite burst.table.rows) := by
  have hfirst : auditPages .sqlite burst.table ⟨"", "", "", "", none, none, 0, 0⟩ singly .stable 0 =
      some [AuditEntry.record (burstEntries[0], 1)] := by decide +kernel
  have hsecond : auditPages .sqlite burst.table ⟨"", "", "", "", none, none, 0, 0⟩ singly
      (exchangingOrder 0) 1 = some [AuditEntry.record (burstEntries[0], 1)] := by decide +kernel
  refine ⟨?_, hfirst, hsecond, fun hpartition => ?_⟩
  · rw [execInsertBatch_eq, if_pos (by decide)]
    rfl
  · let orders : Nat → RowOrder := fun k => if k = 0 then .stable else exchangingOrder 0
    have hrow : logRow (burstEntries[0], 1) ∈
        AuditFilter.matching ⟨"", "", "", "", none, none, 0, 0⟩ .sqlite burst.table.rows :=
      List.mem_cons_self
    have hunique := hpartition orders _ hrow _ (scanRecord_logRow .sqlite (burstEntries[0], 1))
    have hsame : 0 = 1 :=
      hunique.unique ⟨_, hfirst, List.mem_cons_self⟩ ⟨_, hsecond, List.mem_cons_self⟩
    omega

end IdpForge
