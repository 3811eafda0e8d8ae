import IdpForge.AuditedRequests
import IdpForge.JsonTree
import IdpForge.LeaderLease
import IdpForge.UniqueRows
import Mathlib.Data.List.Find

/-!
# The Keys of API Clients and Devices

An API client and a device are created with a key that is drawn at random and shown once; the
table keeps its hash. A request with a key is answered with the row of that hash, whose lists are
read from columns of JSON. A name is unique, a hash is not, and no drawn key has the hash of one
that is kept.

A column of type `JSON` may hold another text than was written, of the same value. A statement
may fail, or be executed without its answer arriving, in which case nobody is shown the key of the
new row.

## Main results

* `apiClients_iff`: over every run, which client a key stands for.
* `devices_iff`: over every run, which device a key stands for.
-/

open JsonTree TransitionSystem

namespace IdpForge

/-! ### Columns -/

/-- What a column of JSON holds when a text is written to it, `none` when the statement is
refused. -/
abbrev JsonColumn := String → Option String

/-- The column holds a text of the same value. -/
def JsonColumn.KeepsValues (column : JsonColumn) : Prop :=
  ∀ text held, column text = some held → parse held.toList = parse text.toList

/-- The JSON of a slice of strings, which may be nil if it is empty. -/
def stringsJson (isNil : Bool) (xs : List String) : Json :=
  if isNil && xs.isEmpty then .null else .arr (xs.map .str)

/-- `json.Unmarshal`, into a slice of strings. -/
def unmarshalStrings : String → Option (List String) :=
  unmarshal (decodeSlice (decodeString ""))

/-- A slice of strings is read back, up to being nil. -/
theorem decodeSlice_stringsJson (isNil : Bool) (xs : List String) :
    decodeSlice (decodeString "") (stringsJson isNil xs) = some xs := by
  have hall : (xs.map Json.str).mapM (decodeString "") = some xs := by
    induction xs with
    | nil => rfl
    | cons x xs ih => rw [List.map_cons, List.mapM_cons, ih]; rfl
  rw [stringsJson]
  split
  · next hnil =>
      obtain rfl : xs = [] := by simpa using (Bool.and_eq_true_iff.mp hnil).2
      rfl
  · exact hall

/-- What a column holds is read back. -/
theorem unmarshalStrings_column {column : JsonColumn} (hcolumn : column.KeepsValues)
    {isNil : Bool} {xs : List String} {held : String}
    (h : column (marshal (stringsJson isNil xs)) = some held) :
    unmarshalStrings held = some xs := by
  have hsame : unmarshalStrings held = unmarshalStrings (marshal (stringsJson isNil xs)) := by
    rw [unmarshalStrings, unmarshal, unmarshal, hcolumn _ _ h]
  rw [hsame, unmarshalStrings, JsonTree.unmarshal_marshal, decodeSlice_stringsJson]

/-- The `String` of a `sql.NullString`. -/
def sqlString (s? : Option String) : String := s?.getD ""

/-- The empty string comes back from its `NULL`. -/
@[simp] theorem sqlString_nullableString (s : String) : sqlString (nullableString s) = s := by
  rw [nullableString, sqlString]
  split
  · next h => exact h.symm
  · rfl

/-- The scan of a column that may be `NULL` or empty, and keeps the slice nil then. -/
def scanStrings (column : String) : Option String → Except String (List String)
  | none => .ok []
  | some text =>
      if text = "" then .ok []
      else
        match unmarshalStrings text with
        | none => .error ("decode " ++ column)
        | some xs => .ok xs

/-- What a column holds is scanned. -/
theorem scanStrings_column {column : JsonColumn} (hcolumn : column.KeepsValues) (name : String)
    {isNil : Bool} {xs : List String} {held : String}
    (h : column (marshal (stringsJson isNil xs)) = some held) :
    scanStrings name (some held) = .ok xs := by
  have hread := unmarshalStrings_column hcolumn h
  rw [scanStrings, if_neg, hread]
  rintro rfl
  have hempty : unmarshalStrings "" = none := by decide +kernel
  rw [hempty] at hread
  cases hread

/-! ### The tables -/

/-- The database: its columns of JSON, when it takes two names for the same, and the hash of a
key. -/
structure KeyStore where
  column : JsonColumn
  sameName : String → String → Bool
  hashKey : String → String

/-- What the database is relied on for. -/
structure KeyStore.Lawful (db : KeyStore) : Prop where
  column : db.column.KeepsValues
  sameName_comm : ∀ name name', db.sameName name name' = db.sameName name' name

/-- The errors of `Authenticate` and `AuthenticateDevice`. -/
inductive KeyError where
  | notFound
  | scan (text : String)
  deriving DecidableEq, Repr

section Keys

variable {ρ δ : Type}

/-- The rows have keys of one hash. -/
def sameHash (hash : ρ → String) (row row' : ρ) : Bool := hash row = hash row'

/-- `Authenticate` and `AuthenticateDevice`: the row of an enabled key with the hash. -/
def authenticateKey (hash : ρ → String) (enabled : ρ → Bool) (scan : ρ → Except String δ)
    (rows : List ρ) (h : String) : Except KeyError δ :=
  match rows.find? fun row => hash row = h && enabled row with
  | none => .error .notFound
  | some row => (scan row).mapError .scan

/-- **A key is answered with what was inserted under its hash**, if all rows are enabled and
readable. -/
theorem authenticateKey_iff {α : Type} {clash : ρ → ρ → Bool} {hash : ρ → String}
    {enabled : ρ → Bool} {scan : ρ → Except String δ} {shown : α → Option δ}
    {effect : α → Option (UniqueRows.Change ρ)} {as : List α} {rows : List ρ}
    (hclash : ∀ r r', clash r r' = clash r' r)
    (hread : ∀ a row, effect a = some (.insert row) →
      enabled row = true ∧ ∃ c, shown a = some c ∧ scan row = .ok c)
    (hrun : run (UniqueRows.step clash (sameHash hash) effect) [] as = some rows) (h : String) :
    (∀ c, authenticateKey hash enabled scan rows h = .ok c ↔
      ∃ a row, UniqueRows.Stands clash (sameHash hash) effect as a row ∧ hash row = h ∧
        shown a = some c) ∧
    ∀ e, authenticateKey hash enabled scan rows h = .error e → e = .notFound := by
  have hinserted : ∀ {a row}, UniqueRows.Stands clash (sameHash hash) effect as a row →
      enabled row = true ∧ ∃ c, shown a = some c ∧ scan row = .ok c := by
    rintro a row ⟨-, -, -, -, -, heffect, -⟩
    exact hread a row heffect
  have hfind : ∀ row, (rows.find? fun row => hash row = h && enabled row) = some row ↔
      (∃ a, UniqueRows.Stands clash (sameHash hash) effect as a row) ∧ hash row = h := by
    intro row
    have hmeets : ∀ r r', sameHash hash r r' = sameHash hash r' r := fun r r' =>
      decide_eq_decide.mpr eq_comm
    rw [← UniqueRows.find?_eq_some_iff hash hclash hmeets
      (fun r r' hr => Or.inr (decide_eq_true hr)) hrun]
    refine Eq.congr_left (List.find?_congr fun row hrow => ?_)
    obtain ⟨a, ha⟩ := (UniqueRows.mem_iff_stands hrun row).mp hrow
    rw [(hinserted ha).1, Bool.and_true]
  have hanswer : ∀ row, (rows.find? fun row => hash row = h && enabled row) = some row →
      ∃ a c, UniqueRows.Stands clash (sameHash hash) effect as a row ∧ hash row = h ∧
        shown a = some c ∧ authenticateKey hash enabled scan rows h = .ok c := by
    intro row hrow
    obtain ⟨⟨a, ha⟩, hhash⟩ := (hfind row).mp hrow
    obtain ⟨-, c, hc, hscan⟩ := hinserted ha
    refine ⟨a, c, ha, hhash, hc, ?_⟩
    rw [authenticateKey, hrow]
    dsimp only
    rw [hscan]
    rfl
  constructor
  · intro c
    constructor
    · intro hok
      cases hrow : rows.find? fun row => hash row = h && enabled row with
      | none =>
          rw [authenticateKey, hrow] at hok
          cases hok
      | some row =>
          obtain ⟨a, c', ha, hhash, hc', hok'⟩ := hanswer row hrow
          rw [hok] at hok'
          exact ⟨a, row, ha, hhash, hc'.trans (congrArg some (Except.ok.inj hok').symm)⟩
    · rintro ⟨a, row, ha, hhash, hc⟩
      obtain ⟨-, c', hc', hscan⟩ := hinserted ha
      rw [authenticateKey, (hfind row).mpr ⟨⟨a, ha⟩, hhash⟩]
      dsimp only
      rw [hscan, Option.some.inj (hc'.symm.trans hc)]
      rfl
  · intro e he
    cases hrow : rows.find? fun row => hash row = h && enabled row with
    | none =>
        rw [authenticateKey, hrow] at he
        exact (Except.error.inj he).symm
    | some row =>
        obtain ⟨a, c, -, -, -, hok⟩ := hanswer row hrow
        rw [he] at hok
        cases hok

end Keys

/-! ### API clients -/

/-- `apiclient.Client`. The zero time is `none`. -/
structure ClientDetails where
  client : ApiClient
  folder : String
  createdAt : Option Int
  deriving DecidableEq, Repr

/-- A row of `api_clients`. -/
structure ClientRow where
  id : String
  name : String
  folder : Option String
  apiKeyHash : String
  allowedFields : String
  scopes : Option String
  allowedIPs : Option String
  rateLimitMax : Int
  rateLimitWindowSeconds : Int
  enabled : Bool
  createdAt : Int
  deriving DecidableEq, Repr

/-- `scanClient`. -/
def ClientRow.scan (row : ClientRow) : Except String ClientDetails :=
  match unmarshalStrings row.allowedFields with
  | none => .error "decode allowed_fields"
  | some allowedFields => do
      let scopes ← scanStrings "scopes" row.scopes
      let allowedIPs ← scanStrings "allowed_ips" row.allowedIPs
      .ok {
        client := {
          id := row.id
          name := row.name
          allowedFields := allowedFields
          scopes := scopes
          allowedIPs := allowedIPs
          rateLimitMax := row.rateLimitMax
          rateLimitWindowSeconds := row.rateLimitWindowSeconds
          enabled := row.enabled }
        folder := sqlString row.folder
        createdAt := some row.createdAt }

/-- A call of `Create`: the id and the key it draws, when its row is inserted, its arguments,
which of the empty slices are nil, and how its statement ends. -/
structure ClientCreation where
  id : String
  key : String
  now : Int
  folder : String
  request : CreateAPIClientRequest
  scopesNil : Bool
  allowedIPsNil : Bool
  ending : StatementEnd
  deriving DecidableEq, Repr

section Clients

variable (db : KeyStore)

/-- The client that `Create` makes. -/
def ClientCreation.details (x : ClientCreation) : Option ClientDetails :=
  (createAPIClient x.request x.id true).map fun client => ⟨client, x.folder, none⟩

/-- What is read of the client later. -/
def ClientCreation.listed (x : ClientCreation) : Option ClientDetails :=
  x.details.map fun details => { details with createdAt := some x.now }

/-- The row that `Create` inserts, if the columns take it. -/
def ClientCreation.row (x : ClientCreation) : Option ClientRow := do
  let client ← createAPIClient x.request x.id true
  let allowedFields ← db.column (marshal (stringsJson false client.allowedFields))
  let scopes ← db.column (marshal (stringsJson x.scopesNil client.scopes))
  let allowedIPs ← db.column (marshal (stringsJson x.allowedIPsNil client.allowedIPs))
  some {
    id := client.id
    name := client.name
    folder := nullableString x.folder
    apiKeyHash := db.hashKey x.key
    allowedFields := allowedFields
    scopes := some scopes
    allowedIPs := some allowedIPs
    rateLimitMax := client.rateLimitMax
    rateLimitWindowSeconds := client.rateLimitWindowSeconds
    enabled := true
    createdAt := x.now }

/-- The calls that write to `api_clients`. -/
inductive ClientAction where
  | create (x : ClientCreation)
  | delete (id : String) (ending : StatementEnd)
  deriving DecidableEq, Repr

/-- What a call does to the table. -/
def ClientAction.effect : ClientAction → Option (UniqueRows.Change ClientRow)
  | .create x => if x.ending.executes then (x.row db).map .insert else none
  | .delete id ending => if ending.executes then some (.remove fun row => row.id = id) else none

/-- Rows that may not be in the table together. -/
def ClientRow.clash (row row' : ClientRow) : Bool :=
  row.id = row'.id || db.sameName row.name row'.name

/-- The step function. -/
def clientStep : List ClientRow → ClientAction → Option (List ClientRow) :=
  UniqueRows.step (ClientRow.clash db) (sameHash ClientRow.apiKeyHash) (ClientAction.effect db)

/-- The client of a creation, as it is read later. -/
def ClientAction.shown : ClientAction → Option ClientDetails
  | .create x => x.listed
  | .delete _ _ => none

/-- What `Create` returns: the client and its key. -/
def createClient (rows : List ClientRow) (x : ClientCreation) :
    Option (ClientDetails × String) :=
  match x.row db with
  | none => none
  | some row =>
      if x.ending = .done ∧ rows.any (row.clash db) = false then
        x.details.map fun details => (details, x.key)
      else none

/-- `Authenticate`. -/
def authenticateApiClient (rows : List ClientRow) (apiKey : String) :
    Except KeyError ClientDetails :=
  authenticateKey ClientRow.apiKeyHash ClientRow.enabled ClientRow.scan rows (db.hashKey apiKey)

/-- `List`, with the rows in the order of the database. -/
def listClients (rows : List ClientRow) : Except String (List ClientDetails) :=
  rows.mapM ClientRow.scan

/-- The row of a creation was inserted into the table. -/
def ClientCreation.Stored (rows : List ClientRow) (x : ClientCreation) : Prop :=
  x.ending.executes = true ∧ ∃ row, x.row db = some row ∧ rows.any (row.clash db) = false

/-- The client was created in the run and has not been deleted since. -/
def ClientStands (as : List ClientAction) (x : ClientCreation) : Prop :=
  ∃ before after rows, as = before ++ .create x :: after ∧
    run (clientStep db) [] before = some rows ∧ x.Stored db rows ∧
    ∀ ending, .delete x.id ending ∈ after → ending.executes = false

variable {db} {as : List ClientAction} {rows : List ClientRow}

/-- What `Create` returns was inserted. -/
theorem stored_of_createClient {x : ClientCreation} {details : ClientDetails} {key : String}
    (h : createClient db rows x = some (details, key)) :
    x.Stored db rows ∧ x.details = some details ∧ x.key = key := by
  rw [createClient] at h
  split at h
  · cases h
  · next row hrow =>
      rw [Option.ite_none_right_eq_some] at h
      obtain ⟨⟨hending, hclash⟩, hmap⟩ := h
      obtain ⟨details', hdetails, hpair⟩ := Option.map_eq_some_iff.mp hmap
      obtain ⟨rfl, rfl⟩ := Prod.mk.inj hpair
      exact ⟨⟨by rw [hending]; rfl, row, hrow, hclash⟩, hdetails, rfl⟩

/-- The row of a creation reads as the client that was made. -/
theorem ClientCreation.row_spec (hdb : db.Lawful) {x : ClientCreation} {row : ClientRow}
    (h : x.row db = some row) :
    row.id = x.id ∧ row.apiKeyHash = db.hashKey x.key ∧ row.enabled = true ∧
      ∃ c, x.listed = some c ∧ row.scan = .ok c := by
  simp only [ClientCreation.row, createAPIClient, if_true, Option.bind_eq_bind, Option.bind_some,
    Option.bind_eq_some_iff, Option.some.injEq] at h
  obtain ⟨allowedFields, hfields, scopes, hscopes, allowedIPs, hips, rfl⟩ := h
  have hfields' := unmarshalStrings_column hdb.column hfields
  have hscopes' := scanStrings_column hdb.column "scopes" hscopes
  have hips' := scanStrings_column hdb.column "allowed_ips" hips
  refine ⟨rfl, rfl, rfl, _, rfl, ?_⟩
  rw [ClientRow.scan]
  simp only [hfields', hscopes', hips', sqlString_nullableString]
  rfl

/-- The insertion of a creation. -/
theorem ClientAction.effect_eq_insert_iff {a : ClientAction} {row : ClientRow} :
    a.effect db = some (.insert row) ↔
      ∃ x, a = .create x ∧ x.ending.executes = true ∧ x.row db = some row := by
  cases a with
  | create x =>
      rw [effect]
      cases hending : x.ending.executes <;> simp [hending]
  | delete id ending =>
      rw [effect]
      cases ending.executes <;> simp

/-- The removal of a deletion. -/
theorem ClientAction.effect_eq_remove_iff {a : ClientAction} {p : ClientRow → Bool} :
    a.effect db = some (.remove p) ↔
      ∃ id ending, a = .delete id ending ∧ ending.executes = true ∧
        p = fun row => decide (row.id = id) := by
  cases a with
  | create x =>
      rw [effect]
      cases x.ending.executes <;> simp
  | delete id ending =>
      rw [effect]
      constructor
      · intro h
        obtain ⟨hexecutes, hp⟩ := Option.ite_none_right_eq_some.mp h
        exact ⟨id, ending, rfl, hexecutes, (UniqueRows.Change.remove.inj (Option.some.inj hp)).symm⟩
      · rintro ⟨id', ending', heq, hexecutes, rfl⟩
        obtain ⟨rfl, rfl⟩ := ClientAction.delete.inj heq
        exact if_pos hexecutes

/-- What stands in the table is what stands of the creations. -/
theorem stands_iff_clientStands (hdb : db.Lawful) {a : ClientAction} {row : ClientRow} :
    UniqueRows.Stands (ClientRow.clash db) (sameHash ClientRow.apiKeyHash)
        (ClientAction.effect db) as a row ↔
      ∃ x, a = .create x ∧ x.row db = some row ∧ ClientStands db as x := by
  constructor
  · rintro ⟨before, after, rows, has, hrun, heffect, hclash, hafter⟩
    obtain ⟨x, rfl, hending, hrow⟩ := ClientAction.effect_eq_insert_iff.mp heffect
    refine ⟨x, rfl, hrow, before, after, rows, has, hrun, ⟨hending, row, hrow, hclash⟩, ?_⟩
    intro ending hmem
    by_contra hexecutes
    have hremove := hafter _ hmem (fun row => decide (row.id = x.id))
      (ClientAction.effect_eq_remove_iff.mpr ⟨_, _, rfl, by simpa using hexecutes, rfl⟩)
    exact absurd (ClientCreation.row_spec hdb hrow).1 (of_decide_eq_false hremove)
  · rintro ⟨x, rfl, hrow, before, after, rows, has, hrun, ⟨hending, row', hrow', hclash⟩, hafter⟩
    obtain rfl := Option.some.inj (hrow.symm.trans hrow')
    refine ⟨before, after, rows, has, hrun,
      ClientAction.effect_eq_insert_iff.mpr ⟨x, rfl, hending, hrow⟩, hclash, ?_⟩
    intro a ha p hp
    obtain ⟨id, ending, rfl, hexecutes, rfl⟩ := ClientAction.effect_eq_remove_iff.mp hp
    rw [decide_eq_false_iff_not, (ClientCreation.row_spec hdb hrow).1]
    rintro rfl
    simp [hafter ending ha] at hexecutes

/-- **Which client a key stands for**, in every run of creations and deletions: the one that was
created with a key of the same hash and has not been deleted, as it was created. No column fails
to be read, and the list has all of these clients. -/
theorem apiClients_iff (hdb : db.Lawful) (hrun : run (clientStep db) [] as = some rows) :
    (∀ apiKey c, authenticateApiClient db rows apiKey = .ok c ↔
      ∃ x, ClientStands db as x ∧ db.hashKey x.key = db.hashKey apiKey ∧ x.listed = some c) ∧
    (∀ apiKey e, authenticateApiClient db rows apiKey = .error e → e = .notFound) ∧
    ∃ l, listClients rows = .ok l ∧
      ∀ c, c ∈ l ↔ ∃ x, ClientStands db as x ∧ x.listed = some c := by
  have hclash : ∀ r r' : ClientRow, r.clash db r' = r'.clash db r := by
    intro r r'
    rw [ClientRow.clash, ClientRow.clash, hdb.sameName_comm]
    congr 1
    exact decide_eq_decide.mpr eq_comm
  have hread : ∀ (a : ClientAction) (row : ClientRow), a.effect db = some (.insert row) →
      row.enabled = true ∧ ∃ c, a.shown = some c ∧ row.scan = .ok c := by
    intro a row ha
    obtain ⟨x, rfl, -, hrow⟩ := ClientAction.effect_eq_insert_iff.mp ha
    exact (ClientCreation.row_spec hdb hrow).2.2
  have hstands (h : String) (c : ClientDetails) :
      (∃ a row, UniqueRows.Stands (ClientRow.clash db) (sameHash ClientRow.apiKeyHash)
        (ClientAction.effect db) as a row ∧ row.apiKeyHash = h ∧ a.shown = some c) ↔
      ∃ x, ClientStands db as x ∧ db.hashKey x.key = h ∧ x.listed = some c := by
    simp only [stands_iff_clientStands hdb]
    constructor
    · rintro ⟨-, row, ⟨x, rfl, hrow, hx⟩, rfl, hc⟩
      exact ⟨x, hx, (ClientCreation.row_spec hdb hrow).2.1.symm, hc⟩
    · rintro ⟨x, hx, rfl, hc⟩
      obtain ⟨-, -, -, -, -, ⟨-, row, hrow, -⟩, -⟩ := id hx
      exact ⟨_, row, ⟨x, rfl, hrow, hx⟩, (ClientCreation.row_spec hdb hrow).2.1, hc⟩
  obtain ⟨l, hl, hmem⟩ := UniqueRows.mapM_iff_stands (fun a row ha => (hread a row ha).2) hrun
  refine ⟨fun apiKey c => ?_, fun apiKey e => ?_, l, hl, fun c => ?_⟩
  · rw [← hstands]
    exact (authenticateKey_iff hclash hread hrun (db.hashKey apiKey)).1 c
  · exact (authenticateKey_iff hclash hread hrun (db.hashKey apiKey)).2 e
  · rw [hmem]
    constructor
    · rintro ⟨a, row, ha, hc⟩
      obtain ⟨x, hx, -, hc⟩ := (hstands _ c).mp ⟨a, row, ha, rfl, hc⟩
      exact ⟨x, hx, hc⟩
    · rintro ⟨x, hx, hc⟩
      obtain ⟨a, row, ha, -, hc⟩ := (hstands _ c).mpr ⟨x, hx, rfl, hc⟩
      exact ⟨a, row, ha, hc⟩

/-- The key that `Create` returns stands for the client it returns, until that is deleted. -/
theorem authenticate_created (hdb : db.Lawful) {before after : List ClientAction}
    {x : ClientCreation} {rows₀ : List ClientRow} {details : ClientDetails} {key : String}
    (hbefore : run (clientStep db) [] before = some rows₀)
    (hcreate : createClient db rows₀ x = some (details, key))
    (hafter : ∀ ending, .delete x.id ending ∈ after → ending.executes = false)
    (hrun : run (clientStep db) [] (before ++ .create x :: after) = some rows) :
    authenticateApiClient db rows key = .ok { details with createdAt := some x.now } := by
  obtain ⟨hstored, hdetails, rfl⟩ := stored_of_createClient hcreate
  refine ((apiClients_iff hdb hrun).1 x.key _).mpr ⟨x, ?_, rfl, ?_⟩
  · exact ⟨before, after, rows₀, rfl, hbefore, hstored, hafter⟩
  · rw [ClientCreation.listed, hdetails]
    rfl

end Clients

/-- Columns that keep the text, names told apart by their spelling, and keys as their own
hashes. -/
def exampleKeyStore : KeyStore := ⟨some, fun name name' => name = name', id⟩

/-- The client `n` with the key `k`, of a name and with scopes. -/
def exampleCreation (id key name : String) (scopes : List String) (ending : StatementEnd) :
    ClientCreation :=
  ⟨id, key, 7, "team", ⟨name, [], scopes, [], 60, 60⟩, false, true, ending⟩

/-- A client, another of the same name, one whose insertion is not answered, and a deletion. -/
def exampleClientRun : List ClientAction :=
  [.create (exampleCreation "1" "k1" "hr" ["users:read"] .done),
    .create (exampleCreation "2" "k2" "hr" [] .done),
    .create (exampleCreation "3" "k3" "bot" ["a\"b:c"] .lost), .delete "1" .done]

/-- The example database is lawful. -/
theorem exampleKeyStore_lawful : exampleKeyStore.Lawful where
  column text held h := by rw [Option.some.inj h]
  sameName_comm name name' := decide_eq_decide.mpr eq_comm

/-- The client whose answer was lost stands, and its name and scopes are read back. -/
theorem apiClients_iff_example :
    ∃ rows, run (clientStep exampleKeyStore) [] exampleClientRun = some rows ∧
      (∃ x, ClientStands exampleKeyStore exampleClientRun x ∧ x.key = "k3") ∧
      ∀ x, ClientStands exampleKeyStore exampleClientRun x → x.key ≠ "k1" := by
  have hanswers : (run (clientStep exampleKeyStore) [] exampleClientRun).map (fun rows =>
      (authenticateApiClient exampleKeyStore rows "k3",
        authenticateApiClient exampleKeyStore rows "k1")) =
      some (.ok ⟨⟨"3", "bot", ["id", "username"], ["a\"b:c"], [], 60, 60, true⟩, "team", some 7⟩,
        .error .notFound) := by
    decide +kernel
  obtain ⟨rows, hrun, hpair⟩ := Option.map_eq_some_iff.mp hanswers
  obtain ⟨hk3, hk1⟩ := Prod.mk.inj hpair
  obtain ⟨hok, -, -⟩ := apiClients_iff exampleKeyStore_lawful hrun
  refine ⟨rows, hrun, ?_, fun x hx hkey => ?_⟩
  · obtain ⟨x, hx, hkey, -⟩ := (hok "k3" _).mp hk3
    exact ⟨x, hx, hkey⟩
  · obtain ⟨-, -, -, -, -, ⟨-, row, hrow, -⟩, -⟩ := id hx
    obtain ⟨-, -, -, c, hc, -⟩ := ClientCreation.row_spec exampleKeyStore_lawful hrow
    have hfound := (hok "k1" c).mpr ⟨x, hx, hkey, hc⟩
    rw [hk1] at hfound
    cases hfound

/-! ### Devices -/

/-- `iot.Device`. The zero time is `none`. -/
structure DeviceDetails where
  id : String
  name : String
  deviceType : String
  location : String
  folder : String
  allowedIPs : List String
  enabled : Bool
  createdAt : Option Int
  deriving DecidableEq, Repr

/-- A row of `iot_devices`. -/
structure DeviceRow where
  id : String
  name : String
  deviceType : String
  location : Option String
  folder : Option String
  apiKeyHash : String
  allowedIPs : Option String
  enabled : Bool
  createdAt : Int
  deriving DecidableEq, Repr

/-- `scanDevice`. -/
def DeviceRow.scan (row : DeviceRow) : Except String DeviceDetails := do
  let allowedIPs ← scanStrings "allowed_ips" row.allowedIPs
  .ok {
    id := row.id
    name := row.name
    deviceType := row.deviceType
    location := sqlString row.location
    folder := sqlString row.folder
    allowedIPs := allowedIPs
    enabled := row.enabled
    createdAt := some row.createdAt }

/-- A call of `CreateDevice`: the id and the key it draws, when its row is inserted, its
arguments, whether an empty list is nil, and how its statement ends. -/
structure DeviceCreation where
  id : String
  key : String
  now : Int
  request : CreateDeviceRequest
  allowedIPsNil : Bool
  ending : StatementEnd
  deriving DecidableEq, Repr

section Devices

variable (db : KeyStore)

/-- The device that `CreateDevice` makes. -/
def DeviceCreation.details (x : DeviceCreation) : DeviceDetails where
  id := x.id
  name := x.request.name
  deviceType := x.request.deviceType
  location := x.request.location
  folder := x.request.folder
  allowedIPs := x.request.allowedIPs
  enabled := true
  createdAt := none

/-- The device of a creation, as it is read later. -/
def DeviceCreation.listed (x : DeviceCreation) : DeviceDetails :=
  { x.details with createdAt := some x.now }

/-- The row that `CreateDevice` inserts, if the column takes it. -/
def DeviceCreation.row (x : DeviceCreation) : Option DeviceRow := do
  let allowedIPs ← db.column (marshal (stringsJson x.allowedIPsNil x.request.allowedIPs))
  some {
    id := x.id
    name := x.request.name
    deviceType := x.request.deviceType
    location := some x.request.location
    folder := nullableString x.request.folder
    apiKeyHash := db.hashKey x.key
    allowedIPs := some allowedIPs
    enabled := true
    createdAt := x.now }

/-- What a creation does to the table. -/
def DeviceCreation.effect (x : DeviceCreation) : Option (UniqueRows.Change DeviceRow) :=
  if x.ending.executes then (x.row db).map .insert else none

/-- Rows that may not be in the table together. -/
def DeviceRow.clash (row row' : DeviceRow) : Bool :=
  row.id = row'.id || db.sameName row.name row'.name

/-- The step function. No call removes a device. -/
def deviceStep : List DeviceRow → DeviceCreation → Option (List DeviceRow) :=
  UniqueRows.step (DeviceRow.clash db) (sameHash DeviceRow.apiKeyHash) (DeviceCreation.effect db)

/-- What `CreateDevice` returns: the device and its key. -/
def createDevice (rows : List DeviceRow) (x : DeviceCreation) : Option (DeviceDetails × String) :=
  match x.row db with
  | none => none
  | some row =>
      if x.ending = .done ∧ rows.any (row.clash db) = false then some (x.details, x.key) else none

/-- `AuthenticateDevice`. -/
def authenticateDevice (rows : List DeviceRow) (apiKey : String) : Except KeyError DeviceDetails :=
  authenticateKey DeviceRow.apiKeyHash DeviceRow.enabled DeviceRow.scan rows (db.hashKey apiKey)

/-- `ListDevices`, with the rows in the order of the database. -/
def listDevices (rows : List DeviceRow) : Except String (List DeviceDetails) :=
  rows.mapM DeviceRow.scan

/-- The device was created in the run. -/
def DeviceStands (xs : List DeviceCreation) (x : DeviceCreation) : Prop :=
  ∃ before after rows row, xs = before ++ x :: after ∧
    run (deviceStep db) [] before = some rows ∧ x.ending.executes = true ∧
    x.row db = some row ∧ rows.any (row.clash db) = false

variable {db} {xs : List DeviceCreation} {rows : List DeviceRow}

/-- The row of a creation reads as the device that was made. -/
theorem DeviceCreation.row_spec (hdb : db.Lawful) {x : DeviceCreation} {row : DeviceRow}
    (h : x.row db = some row) :
    row.apiKeyHash = db.hashKey x.key ∧ row.enabled = true ∧ row.scan = .ok x.listed := by
  simp only [DeviceCreation.row, Option.bind_eq_bind, Option.bind_eq_some_iff,
    Option.some.injEq] at h
  obtain ⟨allowedIPs, hips, rfl⟩ := h
  have hips' := scanStrings_column hdb.column "allowed_ips" hips
  refine ⟨rfl, rfl, ?_⟩
  rw [DeviceRow.scan]
  simp only [hips', sqlString_nullableString]
  rfl

/-- What stands in the table is what stands of the creations. -/
theorem stands_iff_deviceStands {x : DeviceCreation} {row : DeviceRow} :
    UniqueRows.Stands (DeviceRow.clash db) (sameHash DeviceRow.apiKeyHash)
        (DeviceCreation.effect db) xs x row ↔ x.row db = some row ∧ DeviceStands db xs x := by
  have hinsert : x.effect db = some (.insert row) ↔
      x.ending.executes = true ∧ x.row db = some row := by
    rw [DeviceCreation.effect]
    cases x.ending.executes <;> simp
  constructor
  · rintro ⟨before, after, rows, hxs, hrun, heffect, hclash, -⟩
    obtain ⟨hending, hrow⟩ := hinsert.mp heffect
    exact ⟨hrow, before, after, rows, row, hxs, hrun, hending, hrow, hclash⟩
  · rintro ⟨hrow, before, after, rows, row', hxs, hrun, hending, hrow', hclash⟩
    obtain rfl := Option.some.inj (hrow.symm.trans hrow')
    refine ⟨before, after, rows, hxs, hrun, hinsert.mpr ⟨hending, hrow⟩, hclash, ?_⟩
    intro x' _ p hp
    rw [DeviceCreation.effect] at hp
    obtain ⟨-, hp⟩ := Option.ite_none_right_eq_some.mp hp
    obtain ⟨_, -, hp⟩ := Option.map_eq_some_iff.mp hp
    cases hp

/-- **Which device a key stands for**, in every run of creations: the one that was created with a
key of the same hash, as it was created. No column fails to be read, and the list has all of these
devices. -/
theorem devices_iff (hdb : db.Lawful) (hrun : run (deviceStep db) [] xs = some rows) :
    (∀ apiKey d, authenticateDevice db rows apiKey = .ok d ↔
      ∃ x, DeviceStands db xs x ∧ db.hashKey x.key = db.hashKey apiKey ∧ x.listed = d) ∧
    (∀ apiKey e, authenticateDevice db rows apiKey = .error e → e = .notFound) ∧
    ∃ l, listDevices rows = .ok l ∧
      ∀ d, d ∈ l ↔ ∃ x, DeviceStands db xs x ∧ x.listed = d := by
  have hclash : ∀ r r' : DeviceRow, r.clash db r' = r'.clash db r := by
    intro r r'
    rw [DeviceRow.clash, DeviceRow.clash, hdb.sameName_comm]
    congr 1
    exact decide_eq_decide.mpr eq_comm
  have hread : ∀ (x : DeviceCreation) (row : DeviceRow), x.effect db = some (.insert row) →
      row.enabled = true ∧ ∃ d, some x.listed = some d ∧ row.scan = .ok d := by
    intro x row hx
    rw [DeviceCreation.effect] at hx
    obtain ⟨-, hx⟩ := Option.ite_none_right_eq_some.mp hx
    obtain ⟨row', hrow, hinsert⟩ := Option.map_eq_some_iff.mp hx
    obtain rfl := UniqueRows.Change.insert.inj hinsert
    obtain ⟨-, henabled, hscan⟩ := DeviceCreation.row_spec hdb hrow
    exact ⟨henabled, x.listed, rfl, hscan⟩
  have hstands (h : String) (d : DeviceDetails) :
      (∃ x row, UniqueRows.Stands (DeviceRow.clash db) (sameHash DeviceRow.apiKeyHash)
        (DeviceCreation.effect db) xs x row ∧ row.apiKeyHash = h ∧ some x.listed = some d) ↔
      ∃ x, DeviceStands db xs x ∧ db.hashKey x.key = h ∧ x.listed = d := by
    simp only [stands_iff_deviceStands, Option.some.injEq]
    constructor
    · rintro ⟨x, row, ⟨hrow, hx⟩, rfl, hd⟩
      exact ⟨x, hx, (DeviceCreation.row_spec hdb hrow).1.symm, hd⟩
    · rintro ⟨x, hx, rfl, hd⟩
      obtain ⟨-, -, -, row, -, -, -, hrow, -⟩ := id hx
      exact ⟨x, row, ⟨hrow, hx⟩, (DeviceCreation.row_spec hdb hrow).1, hd⟩
  obtain ⟨l, hl, hmem⟩ := UniqueRows.mapM_iff_stands (fun x row hx => (hread x row hx).2) hrun
  refine ⟨fun apiKey d => ?_, fun apiKey e => ?_, l, hl, fun d => ?_⟩
  · rw [← hstands]
    exact (authenticateKey_iff hclash hread hrun (db.hashKey apiKey)).1 d
  · exact (authenticateKey_iff hclash hread hrun (db.hashKey apiKey)).2 e
  · rw [hmem]
    constructor
    · rintro ⟨x, row, hx, hd⟩
      obtain ⟨x, hx, -, hd⟩ := (hstands _ d).mp ⟨x, row, hx, rfl, hd⟩
      exact ⟨x, hx, hd⟩
    · rintro ⟨x, hx, hd⟩
      obtain ⟨x, row, hx, -, hd⟩ := (hstands _ d).mpr ⟨x, hx, rfl, hd⟩
      exact ⟨x, row, hx, hd⟩

end Devices

/-- Two devices of one name, of which the second is refused. -/
def exampleDeviceRun : List DeviceCreation :=
  [⟨"1", "k1", 7, ⟨"door", "reader", "", "Building A", ["10.0.0.0/8"]⟩, true, .done⟩,
    ⟨"2", "k2", 8, ⟨"door", "kiosk", "hall", "", []⟩, true, .done⟩]

/-- The key of the first device stands for it as it was created. -/
theorem devices_iff_example :
    ∃ rows, run (deviceStep exampleKeyStore) [] exampleDeviceRun = some rows ∧
      ∃ x, DeviceStands exampleKeyStore exampleDeviceRun x ∧ x.key = "k1" ∧
        x.listed.allowedIPs = ["10.0.0.0/8"] := by
  have hanswer : (run (deviceStep exampleKeyStore) [] exampleDeviceRun).map (fun rows =>
      authenticateDevice exampleKeyStore rows "k1") =
      some (.ok ⟨"1", "door", "reader", "", "Building A", ["10.0.0.0/8"], true, some 7⟩) := by
    decide +kernel
  obtain ⟨rows, hrun, hk1⟩ := Option.map_eq_some_iff.mp hanswer
  obtain ⟨x, hx, hkey, hlisted⟩ := ((devices_iff exampleKeyStore_lawful hrun).1 "k1" _).mp hk1
  exact ⟨rows, hrun, x, hx, hkey, by rw [hlisted]⟩

end IdpForge
