import IdpForge.Authorization
import IdpForge.RbacTables
import IdpForge.TransitionSystem

/-!
# Device Check-ins

A reader sends the scanned credentials, `handleDeviceCheckin` resolves them to a user,
records the event and answers whether the user has already been there today. The event is
recorded before the events of the day are counted, so the count includes it. An event
without a resource is stored with `NULL`, which equals no string, so it is never counted.

Times are nanoseconds since the epoch. The handler reads the clock twice, when it records
the event and when it counts.

## Main results

* `resolveUser_eq_ok_iff`, `resolveUser_agreement`: the proofs agree on a user.
* `handleDeviceCheckin_already_iff`: what the count amounts to.
* `alreadyToday_truthful_iff`: in any sequence of check-ins, exactly when the answer is
  right.
-/

open TransitionSystem

namespace IdpForge

/-- `CredentialProof`, without the confidence, which nothing reads. -/
structure CredentialProof where
  credentialType : String
  credentialRef : String
  deriving DecidableEq, Repr

/-- `CheckinRequest`, with the metadata as the JSON text it is stored as. -/
structure CheckinRequest where
  credentials : List CredentialProof
  eventType : String
  resource : String
  metadata : String
  deriving DecidableEq, Repr

/-- `CheckinResponse`. -/
structure CheckinResponse where
  allowed : Bool := false
  alreadyToday : Bool := false
  userID : String := ""
  eventID : Int := 0
  reason : String := ""
  deriving DecidableEq, Repr

/-- A row of `device_credentials`. -/
structure DeviceCredential where
  id : String
  userID : String
  credentialType : String
  credentialRef : String
  deriving DecidableEq, Repr

/-- `iot.Event`, as the handler fills it in. -/
structure IotEvent where
  deviceID : String
  userID : String
  credentialType : String
  credentialRef : String
  eventType : String
  resource : String
  metadata : String
  status : String
  timestamp : Int
  deriving DecidableEq, Repr

/-- A row of `device_events`. -/
structure EventRow where
  id : Int
  deviceID : String
  userID : Option String
  credentialType : Option String
  credentialRef : Option String
  eventType : String
  resource : Option String
  metadata : String
  status : String
  timestamp : Int
  deriving DecidableEq, Repr

/-- The errors of `ResolveUser`. -/
inductive IotError where
  | notFound
  | credentialMismatch
  | noCredentials
  | database (text : String)
  deriving DecidableEq, Repr

/-- `Error`. -/
def IotError.text : IotError → String
  | .notFound => "not found"
  | .credentialMismatch => "credentials resolve to different users"
  | .noCredentials => "no credentials supplied"
  | .database text => text

/-- What one check-in meets: the two readings of the clock, the credential table, the
resolver, and the statements that fail. -/
structure CheckinEnvironment where
  recordedAt : Int
  queriedAt : Int
  credentials : List DeviceCredential
  resolve : String → Option Resolved
  /-- The error of a credential's lookup. -/
  lookupError : CredentialProof → Option String := fun _ => none
  insertFails : Bool := false
  countFails : Bool := false

/-! ### Resolving the credentials -/

section Resolve

variable (env : CheckinEnvironment)

/-- `resolveCredential`. -/
def resolveCredential (p : CredentialProof) : Except IotError String :=
  match env.lookupError p with
  | some text => .error (.database text)
  | none =>
      match env.credentials.find? fun row =>
        row.credentialType = p.credentialType && row.credentialRef = p.credentialRef with
      | some row => .ok row.userID
      | none => .error .notFound

/-- The loop of `ResolveUser` after the first proof. -/
def resolveUserLoop (userID : String) : List CredentialProof → Except IotError String
  | [] => .ok userID
  | p :: proofs =>
      match resolveCredential env p with
      | .error e => .error e
      | .ok resolved =>
          if resolved ≠ userID then .error .credentialMismatch
          else resolveUserLoop userID proofs

/-- `ResolveUser`. -/
def resolveUser : List CredentialProof → Except IotError String
  | [] => .error .noCredentials
  | p :: proofs =>
      match resolveCredential env p with
      | .error e => .error e
      | .ok resolved => resolveUserLoop env resolved proofs

variable {env}

/-- The loop accepts when every further proof resolves to the user of the first. -/
theorem resolveUserLoop_eq_ok_iff {userID u : String} {proofs : List CredentialProof} :
    resolveUserLoop env userID proofs = .ok u ↔
      userID = u ∧ ∀ p ∈ proofs, resolveCredential env p = .ok userID := by
  induction proofs with
  | nil => simp [resolveUserLoop]
  | cons p proofs ih =>
      rw [resolveUserLoop]
      cases hp : resolveCredential env p with
      | error e => simp [hp]
      | ok resolved =>
          by_cases hne : resolved = userID
          · simp [hne, hp, ih]
          · simp [hne, hp]

/-- `ResolveUser` finds a user when there is a proof and every proof resolves to the
user. -/
theorem resolveUser_eq_ok_iff {u : String} {proofs : List CredentialProof} :
    resolveUser env proofs = .ok u ↔
      proofs ≠ [] ∧ ∀ p ∈ proofs, resolveCredential env p = .ok u := by
  cases proofs with
  | nil => simp [resolveUser]
  | cons p proofs =>
      rw [resolveUser]
      cases hp : resolveCredential env p with
      | error e => simp [hp]
      | ok resolved =>
          simp only [resolveUserLoop_eq_ok_iff, ne_eq, reduceCtorEq, not_false_eq_true, true_and,
            List.forall_mem_cons, hp, Except.ok.injEq]
          refine and_congr_right ?_
          rintro rfl
          exact Iff.rfl

/-- Each credential belongs to at most one user. -/
def CredentialsUnique (table : List DeviceCredential) : Prop :=
  ∀ a ∈ table, ∀ b ∈ table, a.credentialType = b.credentialType →
    a.credentialRef = b.credentialRef → a.userID = b.userID

instance (table : List DeviceCredential) : Decidable (CredentialsUnique table) :=
  inferInstanceAs (Decidable (∀ _ ∈ _, _))

/-- The proof is one of the user's: its lookup goes through, and the table has the row. -/
def CredentialProof.BelongsTo (env : CheckinEnvironment) (p : CredentialProof) (u : String) :
    Prop :=
  env.lookupError p = none ∧ ∃ row ∈ env.credentials,
    row.credentialType = p.credentialType ∧ row.credentialRef = p.credentialRef ∧ row.userID = u

/-- The lookup of a proof finds its user. -/
theorem resolveCredential_eq_ok_iff (hunique : CredentialsUnique env.credentials)
    {p : CredentialProof} {u : String} :
    resolveCredential env p = .ok u ↔ p.BelongsTo env u := by
  rw [resolveCredential, CredentialProof.BelongsTo]
  cases hlookup : env.lookupError p with
  | some text => simp
  | none =>
      simp only [true_and]
      cases hfind : env.credentials.find? fun row =>
          row.credentialType = p.credentialType && row.credentialRef = p.credentialRef with
      | none =>
          have hnone := List.find?_eq_none.mp hfind
          simp only [reduceCtorEq, false_iff]
          rintro ⟨row, hrow, htype, href, -⟩
          exact hnone row hrow (by simp [htype, href])
      | some row =>
          have hrow := List.mem_of_find?_eq_some hfind
          have hmatch := List.find?_some hfind
          simp only [Bool.and_eq_true, decide_eq_true_eq] at hmatch
          simp only [Except.ok.injEq]
          constructor
          · rintro rfl
            exact ⟨row, hrow, hmatch.1, hmatch.2, rfl⟩
          · rintro ⟨other, hother, htype, href, rfl⟩
            exact hunique row hrow other hother (hmatch.1.trans htype.symm)
              (hmatch.2.trans href.symm)

/-- **The proofs must agree.** When no credential belongs to two users, `ResolveUser` returns a
user exactly when there is a proof and every proof is one of the user's. Only which proofs there
are matters, not their order or number; and no user is returned when two proofs belong to
different users, or one to nobody. -/
theorem resolveUser_agreement (hunique : CredentialsUnique env.credentials)
    (proofs : List CredentialProof) :
    (∀ u, resolveUser env proofs = .ok u ↔ proofs ≠ [] ∧ ∀ p ∈ proofs, p.BelongsTo env u) ∧
      (∀ proofs', (∀ p, p ∈ proofs' ↔ p ∈ proofs) →
        ∀ u, resolveUser env proofs' = .ok u ↔ resolveUser env proofs = .ok u) ∧
      (∀ p ∈ proofs, ∀ q ∈ proofs, ∀ u v, p.BelongsTo env u → q.BelongsTo env v → u ≠ v →
        ∀ w, resolveUser env proofs ≠ .ok w) ∧
      ∀ p ∈ proofs, (∀ u, ¬ p.BelongsTo env u) → ∀ w, resolveUser env proofs ≠ .ok w := by
  have hspec : ∀ (ps : List CredentialProof) u, resolveUser env ps = .ok u ↔
      ps ≠ [] ∧ ∀ p ∈ ps, p.BelongsTo env u := fun ps u => by
    simp only [resolveUser_eq_ok_iff, resolveCredential_eq_ok_iff hunique]
  refine ⟨hspec proofs, fun proofs' hsame u => ?_, fun p hp q hq u v hu hv hne w hw => ?_,
    fun p hp hnone w hw => ?_⟩
  · have hempty : proofs' ≠ [] ↔ proofs ≠ [] := by
      simp only [ne_eq, List.eq_nil_iff_forall_not_mem, hsame]
    simp only [hspec, hempty, hsame]
  · have hall := ((hspec proofs w).mp hw).2
    have hw₁ := (resolveCredential_eq_ok_iff hunique).mpr (hall p hp)
    have hw₂ := (resolveCredential_eq_ok_iff hunique).mpr (hall q hq)
    have hu := (resolveCredential_eq_ok_iff hunique).mpr hu
    have hv := (resolveCredential_eq_ok_iff hunique).mpr hv
    refine hne ?_
    rw [hu, Except.ok.injEq] at hw₁
    rw [hv, Except.ok.injEq] at hw₂
    exact hw₁.trans hw₂.symm
  · exact hnone w (((hspec proofs w).mp hw).2 p hp)

/-- Two credentials of one user, and one of another. -/
def exampleCredentials : CheckinEnvironment where
  recordedAt := 0
  queriedAt := 0
  credentials := [⟨"c1", "alice", "card", "1"⟩, ⟨"c2", "alice", "face", "2"⟩,
    ⟨"c3", "bob", "card", "3"⟩]
  resolve := fun _ => none

/-- The user's card and face, the card twice, and someone else's card. -/
theorem resolveUser_agreement_example :
    resolveUser exampleCredentials [⟨"card", "1"⟩, ⟨"face", "2"⟩, ⟨"card", "1"⟩] = .ok "alice" ∧
      ∀ w, resolveUser exampleCredentials [⟨"card", "1"⟩, ⟨"face", "2"⟩, ⟨"card", "3"⟩] ≠
        .ok w := by
  have hunique : CredentialsUnique exampleCredentials.credentials := by decide
  have hagree := resolveUser_agreement hunique
  refine ⟨((hagree _).1 "alice").mpr ⟨by simp, ?_⟩, ?_⟩
  · simp [CredentialProof.BelongsTo, exampleCredentials]
  · exact (hagree _).2.2.1 ⟨"card", "1"⟩ (by simp) ⟨"card", "3"⟩ (by simp) "alice" "bob"
      (by simp [CredentialProof.BelongsTo, exampleCredentials])
      (by simp [CredentialProof.BelongsTo, exampleCredentials]) (by simp)

end Resolve

/-! ### Recording and counting -/

/-- The driver reports the id of an inserted row. -/
def DBDriver.supportsLastInsertId : DBDriver → Bool
  | .sqlite | .mysql => true
  | .postgres | .mssql => false

/-- The row an event is stored as. -/
def IotEvent.row (e : IotEvent) (id : Int) : EventRow where
  id := id
  deviceID := e.deviceID
  userID := nullableString e.userID
  credentialType := nullableString e.credentialType
  credentialRef := nullableString e.credentialRef
  eventType := e.eventType
  resource := nullableString e.resource
  metadata := if e.metadata = "" then "\x7b\x7d" else e.metadata
  status := e.status
  timestamp := e.timestamp

/-- `RecordEvent`: the id and the table with the new row, or `none` when the insert fails.
Nothing ever deletes a row, so the ids count them. -/
def recordEvent (driver : DBDriver) (rows : List EventRow) (e : IotEvent) (fails : Bool) :
    Option (Int × List EventRow) :=
  if fails then none
  else
    let id : Int := rows.length + 1
    some (if driver.supportsLastInsertId then id else 0, e.row id :: rows)

/-- A day in nanoseconds. -/
def dayLength : Int := 86400000000000

/-- `Truncate(24 * time.Hour)`. -/
def startOfDay (t : Int) : Int := t - t % dayLength

/-- Two times fall on the same UTC day. -/
def SameDay (t t' : Int) : Prop := t / dayLength = t' / dayLength

instance (t t' : Int) : Decidable (SameDay t t') :=
  inferInstanceAs (Decidable (t / dayLength = t' / dayLength))

/-- The condition of the query: `NULL` equals no string. -/
def EventRow.matches (row : EventRow) (userID eventType resource : String) (since : Int) :
    Bool :=
  row.userID = some userID && row.eventType = eventType && row.resource = some resource &&
    since ≤ row.timestamp

/-- `HasEventToday`, `none` when the query fails. -/
def hasEventToday (rows : List EventRow) (now : Int) (userID eventType resource : String)
    (fails : Bool) : Option Bool :=
  if fails then none
  else
    some (0 < rows.countP fun row => row.matches userID eventType resource (startOfDay now))

/-- An earlier time is past the start of the day of a later one when they share the day. -/
theorem startOfDay_le_iff {t now : Int} (h : t ≤ now) : startOfDay now ≤ t ↔ SameDay t now := by
  simp only [startOfDay, SameDay, dayLength]
  omega

/-- A count finds a row. -/
theorem hasEventToday_eq_true_iff {rows : List EventRow} {now : Int} {u e r : String} :
    hasEventToday rows now u e r false = some true ↔
      ∃ row ∈ rows, row.userID = some u ∧ row.eventType = e ∧ row.resource = some r ∧
        startOfDay now ≤ row.timestamp := by
  simp [hasEventToday, EventRow.matches, List.countP_pos_iff, and_assoc]

/-! ### The handler -/

/-- The user id and the status an event is recorded with. -/
def eventUser : Except IotError String → String × String
  | .ok userID => (userID, "matched")
  | .error .credentialMismatch => ("", "mismatch")
  | .error _ => ("", "unmatched")

/-- The event the handler records. -/
def checkinEvent (env : CheckinEnvironment) (deviceID : String) (req : CheckinRequest)
    (primary : CredentialProof) : IotEvent where
  deviceID := deviceID
  userID := (eventUser (resolveUser env req.credentials)).1
  credentialType := primary.credentialType
  credentialRef := primary.credentialRef
  eventType := req.eventType
  resource := req.resource
  metadata := req.metadata
  status := (eventUser (resolveUser env req.credentials)).2
  timestamp := env.recordedAt

/-- `handleDeviceCheckin` for an authenticated device; the body is `none` when it does not
parse. -/
def handleDeviceCheckin (driver : DBDriver) (env : CheckinEnvironment) (deviceID : String)
    (body : Option CheckinRequest) (rows : List EventRow) :
    Except FiberError CheckinResponse × List EventRow :=
  match body with
  | none => (newError 400 "invalid request body", rows)
  | some req =>
      match req.credentials with
      | [] => (newError 400 "credentials and event_type are required", rows)
      | primary :: _ =>
          if req.eventType = "" then
            (newError 400 "credentials and event_type are required", rows)
          else
            match recordEvent driver rows (checkinEvent env deviceID req primary)
              env.insertFails with
            | none => (newError 500 "could not record event", rows)
            | some (eventID, rows') =>
                match resolveUser env req.credentials with
                | .error e => (.ok { eventID := eventID, reason := e.text }, rows')
                | .ok userID =>
                    (.ok {
                      allowed := if req.resource = "" then true
                        else (hasPermission env.resolve userID req.resource "access").getD false
                      alreadyToday := (hasEventToday rows' env.queriedAt userID req.eventType
                        req.resource env.countFails).getD false
                      userID := userID
                      eventID := eventID }, rows')

/-- No statement of the check-in fails. -/
structure CheckinEnvironment.NonFailing (env : CheckinEnvironment) : Prop where
  lookup : ∀ p, env.lookupError p = none
  insert : env.insertFails = false
  count : env.countFails = false

/-- A check-in, and what it meets. -/
structure Checkin where
  deviceID : String
  env : CheckinEnvironment
  body : Option CheckinRequest

/-- The check-in is accepted and resolves to the user, for the event type and resource. -/
def Checkin.ResolvesTo (c : Checkin) (u e r : String) : Prop :=
  ∃ req, c.body = some req ∧ req.eventType = e ∧ req.resource = r ∧ e ≠ "" ∧
    resolveUser c.env req.credentials = .ok u

/-! ### The table -/

/-- The rows that check-ins leave behind up to some time: none is younger, and no empty
string is stored. -/
structure EventsInv (rows : List EventRow) (now : Int) : Prop where
  clock : ∀ row ∈ rows, row.timestamp ≤ now
  user : ∀ row ∈ rows, row.userID ≠ some ""
  resource : ∀ row ∈ rows, row.resource ≠ some ""

/-- Time passes. -/
theorem EventsInv.mono {rows : List EventRow} {now now' : Int} (h : EventsInv rows now)
    (hle : now ≤ now') : EventsInv rows now' where
  clock := fun row hrow => by
    have := h.clock row hrow
    omega
  user := h.user
  resource := h.resource

/-- An event of the present is recorded. -/
theorem EventsInv.cons {rows : List EventRow} {e : IotEvent} (h : EventsInv rows e.timestamp)
    (id : Int) : EventsInv (e.row id :: rows) e.timestamp where
  clock := List.forall_mem_cons.mpr ⟨Int.le_refl _, h.clock⟩
  user := List.forall_mem_cons.mpr ⟨nullableString_ne_empty _, h.user⟩
  resource := List.forall_mem_cons.mpr ⟨nullableString_ne_empty _, h.resource⟩

/-- A check-in records one event at most. -/
theorem EventsInv.handleDeviceCheckin {driver : DBDriver} {env : CheckinEnvironment}
    {deviceID : String} {body : Option CheckinRequest} {rows : List EventRow}
    (h : EventsInv rows env.recordedAt) :
    EventsInv (handleDeviceCheckin driver env deviceID body rows).2 env.recordedAt := by
  rw [handleDeviceCheckin.eq_def]
  split
  · exact h
  · next req =>
      split
      · exact h
      · next primary proofs hcreds =>
          split
          · exact h
          · split
            · exact h
            · next eventID rows' hrecord =>
                rw [recordEvent] at hrecord
                split at hrecord
                · simp at hrecord
                · obtain ⟨-, rfl⟩ := Prod.mk.inj (Option.some.inj hrecord)
                  have hcons := h.cons (e := checkinEvent env deviceID req primary)
                    (rows.length + 1)
                  split <;> exact hcons

/-! ### The answer -/

/-- The answer to a check-in that resolves to a user comes from a count that includes the
row of the check-in itself. -/
theorem handleDeviceCheckin_answer (driver : DBDriver) {c : Checkin} (rows : List EventRow)
    {u e r : String} (hok : c.env.NonFailing) (hres : c.ResolvesTo u e r) :
    ∃ (event : IotEvent) (id : Int) (resp : CheckinResponse), event.userID = u ∧
      event.eventType = e ∧ event.resource = r ∧ event.timestamp = c.env.recordedAt ∧
      (handleDeviceCheckin driver c.env c.deviceID c.body rows).1 = .ok resp ∧
      resp.userID = u ∧ (resp.alreadyToday = true ↔
        hasEventToday (event.row id :: rows) c.env.queriedAt u e r false = some true) := by
  obtain ⟨req, hbody, rfl, rfl, htype, hres⟩ := hres
  obtain ⟨hne, -⟩ := resolveUser_eq_ok_iff.mp hres
  obtain ⟨primary, proofs, hcreds⟩ := List.exists_cons_of_ne_nil hne
  refine ⟨checkinEvent c.env c.deviceID req primary, rows.length + 1, ?_⟩
  simp only [handleDeviceCheckin, hbody, hcreds, if_neg htype, recordEvent, hok.insert, hok.count,
    Bool.false_eq_true, if_false]
  rw [← hcreds, hres]
  refine ⟨_, by simp [checkinEvent, hres, eventUser], rfl, rfl, rfl, rfl, rfl, ?_⟩
  simp [hasEventToday]

/-- **What `already_used_today` amounts to.** It tells whether the query can find the user
and the resource at all, and the clock has not passed midnight between the recording and
the counting. -/
theorem handleDeviceCheckin_already_iff {driver : DBDriver} {c : Checkin} {rows : List EventRow}
    {u e r : String} (hok : c.env.NonFailing) (hres : c.ResolvesTo u e r)
    (hclock : c.env.recordedAt ≤ c.env.queriedAt) (hrows : EventsInv rows c.env.recordedAt) :
    ∃ resp, (handleDeviceCheckin driver c.env c.deviceID c.body rows).1 = .ok resp ∧
      resp.userID = u ∧ (resp.alreadyToday = true ↔
        u ≠ "" ∧ r ≠ "" ∧ SameDay c.env.recordedAt c.env.queriedAt) := by
  obtain ⟨event, id, resp, hu, he, hr, ht, hresp, huser, halready⟩ :=
    handleDeviceCheckin_answer driver rows hok hres
  have hinv : EventsInv (event.row id :: rows) c.env.recordedAt := ht ▸ (ht ▸ hrows).cons id
  refine ⟨resp, hresp, huser, ?_⟩
  rw [halready, hasEventToday_eq_true_iff, ← startOfDay_le_iff hclock]
  constructor
  · rintro ⟨row, hmem, hfu, -, hfr, hday⟩
    refine ⟨?_, ?_, ?_⟩
    · rintro rfl
      exact hinv.user row hmem hfu
    · rintro rfl
      exact hinv.resource row hmem hfr
    · have := hinv.clock row hmem
      omega
  · rintro ⟨hu', hr', hday⟩
    refine ⟨event.row id, List.mem_cons_self, ?_, he, ?_, ?_⟩
    · exact hu ▸ nullableString_eq_some (hu ▸ hu')
    · exact hr ▸ nullableString_eq_some (hr ▸ hr')
    · exact (show (event.row id).timestamp = c.env.recordedAt from ht) ▸ hday

/-- A check-in that is allowed was recorded and resolves to the user it answers with, who has
access to the resource if one is named. -/
theorem handleDeviceCheckin_allowed {driver : DBDriver} {c : Checkin} {rows : List EventRow}
    {resp : CheckinResponse}
    (h : (handleDeviceCheckin driver c.env c.deviceID c.body rows).1 = .ok resp)
    (hallowed : resp.allowed = true) :
    c.env.insertFails = false ∧ ∃ e r, c.ResolvesTo resp.userID e r ∧
      (r ≠ "" → hasPermission c.env.resolve resp.userID r "access" = some true) := by
  rw [handleDeviceCheckin.eq_def] at h
  split at h
  · simp [newError] at h
  · next req hbody =>
      split at h
      · simp [newError] at h
      · split at h
        · simp [newError] at h
        · next htype =>
            split at h
            · simp [newError] at h
            · next hrecord =>
                rw [recordEvent] at hrecord
                split at hrecord
                · simp at hrecord
                · next hinsert =>
                    split at h
                    · obtain rfl := Except.ok.inj h
                      simp at hallowed
                    · next userID hres =>
                        obtain rfl := Except.ok.inj h
                        refine ⟨by simpa using hinsert, req.eventType, req.resource,
                          ⟨req, hbody, rfl, rfl, htype, hres⟩, ?_⟩
                        intro hresource
                        simp only [if_neg hresource] at hallowed
                        cases hperm : hasPermission c.env.resolve userID req.resource "access" with
                        | none => simp [hperm] at hallowed
                        | some allowed => simpa [hperm] using hallowed

/-- A check-in that is recorded and resolves to a user is allowed when the user has access to
the resource, or none is named. -/
theorem handleDeviceCheckin_allows (driver : DBDriver) {c : Checkin} (rows : List EventRow)
    {u e r : String} (hres : c.ResolvesTo u e r) (hinsert : c.env.insertFails = false)
    (hperm : r ≠ "" → hasPermission c.env.resolve u r "access" = some true) :
    ∃ resp, (handleDeviceCheckin driver c.env c.deviceID c.body rows).1 = .ok resp ∧
      resp.userID = u ∧ resp.allowed = true := by
  obtain ⟨req, hbody, rfl, rfl, htype, hres⟩ := hres
  obtain ⟨hne, -⟩ := resolveUser_eq_ok_iff.mp hres
  obtain ⟨primary, proofs, hcreds⟩ := List.exists_cons_of_ne_nil hne
  simp only [handleDeviceCheckin, hbody, hcreds, if_neg htype, recordEvent, hinsert,
    Bool.false_eq_true, if_false]
  rw [← hcreds, hres]
  refine ⟨_, rfl, rfl, ?_⟩
  by_cases hresource : req.resource = ""
  · simp [hresource]
  · simp [hresource, hperm hresource]

/-! ### Sequences of check-ins -/

/-- The clock, the event table, and the check-ins answered so far, the latest first. -/
structure CheckinState where
  now : Int
  events : List EventRow
  answers : List (Checkin × Except FiberError CheckinResponse)

/-- One check-in, no earlier than the ones before. -/
def checkinStep (driver : DBDriver) (s : CheckinState) (c : Checkin) : Option CheckinState :=
  if s.now ≤ c.env.recordedAt ∧ c.env.recordedAt ≤ c.env.queriedAt then
    let result := handleDeviceCheckin driver c.env c.deviceID c.body s.events
    some ⟨c.env.queriedAt, result.2, (c, result.1) :: s.answers⟩
  else none

/-- Before any check-in. -/
def CheckinState.start (now : Int) : CheckinState := ⟨now, [], []⟩

/-- What every answer given so far amounts to. -/
structure CheckinInv (s : CheckinState) : Prop where
  events : EventsInv s.events s.now
  answers : ∀ c answer, (c, answer) ∈ s.answers → c.env.NonFailing →
    ∀ u e r, c.ResolvesTo u e r → ∃ resp, answer = .ok resp ∧ resp.userID = u ∧
      (resp.alreadyToday = true ↔ u ≠ "" ∧ r ≠ "" ∧ SameDay c.env.recordedAt c.env.queriedAt)

/-- One more check-in. -/
theorem checkinInv_step {driver : DBDriver} {s s' : CheckinState} {c : Checkin}
    (h : CheckinInv s) (hstep : checkinStep driver s c = some s') : CheckinInv s' := by
  rw [checkinStep] at hstep
  split at hstep
  · next hclock =>
      obtain rfl := Option.some.inj hstep
      have hevents := h.events.mono hclock.1
      refine ⟨hevents.handleDeviceCheckin.mono hclock.2, fun c' answer hmem hok u e r hres => ?_⟩
      rcases List.mem_cons.mp hmem with heq | hmem
      · obtain ⟨rfl, rfl⟩ := Prod.mk.inj heq
        exact handleDeviceCheckin_already_iff hok hres hclock.2 hevents
      · exact h.answers c' answer hmem hok u e r hres
  · simp at hstep

/-- An earlier check-in of the same UTC day was resolved to the same user, event type and
resource. -/
def EarlierToday (earlier : List (Checkin × Except FiberError CheckinResponse)) (c : Checkin)
    (u e r : String) : Prop :=
  ∃ p ∈ earlier, p.1.ResolvesTo u e r ∧ SameDay p.1.env.recordedAt c.env.recordedAt

/-- **When `already_used_today` is right.** In any sequence of check-ins, the answer to one
that resolves to a user tells whether there was an earlier one that day, exactly when there
was one and the query finds the check-in itself, or there was none and it does not. -/
theorem alreadyToday_truthful_iff (driver : DBDriver) (now : Int) (cs : List Checkin)
    (s : CheckinState) (hrun : run (checkinStep driver) (CheckinState.start now) cs = some s)
    (c : Checkin) (answer : Except FiberError CheckinResponse)
    (earlier : List (Checkin × Except FiberError CheckinResponse))
    (hanswer : ((c, answer) :: earlier) <:+ s.answers) (hok : c.env.NonFailing)
    (u e r : String) (hres : c.ResolvesTo u e r) :
    ∃ resp, answer = .ok resp ∧ resp.userID = u ∧
      ((resp.alreadyToday = true ↔ EarlierToday earlier c u e r) ↔
        (EarlierToday earlier c u e r ↔
          u ≠ "" ∧ r ≠ "" ∧ SameDay c.env.recordedAt c.env.queriedAt)) := by
  have hstart : CheckinInv (CheckinState.start now) :=
    ⟨⟨by simp [CheckinState.start], by simp [CheckinState.start], by simp [CheckinState.start]⟩,
      by simp [CheckinState.start]⟩
  have hinv := run_invariant (fun _ _ _ h hs => checkinInv_step h hs) hstart hrun
  have hmem : (c, answer) ∈ s.answers := hanswer.subset List.mem_cons_self
  obtain ⟨resp, hresp, huser, halready⟩ := hinv.answers c answer hmem hok u e r hres
  refine ⟨resp, hresp, huser, ?_⟩
  rw [halready]
  exact ⟨Iff.symm, Iff.symm⟩

/-- A card at a reader, noon of the first day. -/
def exampleCheckin (resource : String) : Checkin where
  deviceID := "kiosk"
  env := {
    recordedAt := 43200000000000
    queriedAt := 43200000000000
    credentials := [⟨"d1", "alice", "card", "CARD-ALICE"⟩]
    resolve := fun _ => none }
  body := some ⟨[⟨"card", "CARD-ALICE"⟩], "food_discount", resource, "null"⟩

/-- The first check-in for a resource is told that it is a repetition, the second one without
a resource that it is none. -/
theorem alreadyToday_wrong :
    (run (checkinStep .sqlite) (CheckinState.start 0) [exampleCheckin "canteen"]).map
        (fun s => s.answers.map fun p => p.2.toOption) =
      some [some { alreadyToday := true, userID := "alice", eventID := 1 }] ∧
    (run (checkinStep .sqlite) (CheckinState.start 0) [exampleCheckin "", exampleCheckin ""]).map
        (fun s => s.answers.map fun p => p.2.toOption) =
      some [some { allowed := true, alreadyToday := false, userID := "alice", eventID := 2 },
        some { allowed := true, alreadyToday := false, userID := "alice", eventID := 1 }] := by
  decide +kernel

/-- The answer to the first check-in without a resource is right. -/
theorem alreadyToday_truthful_iff_example :
    ∃ s answer resp,
      run (checkinStep .sqlite) (CheckinState.start 0) [exampleCheckin ""] = some s ∧
        s.answers = [(exampleCheckin "", answer)] ∧ answer = .ok resp ∧
          (resp.alreadyToday = true ↔
            EarlierToday [] (exampleCheckin "") "alice" "food_discount" "") := by
  have hres : (exampleCheckin "").ResolvesTo "alice" "food_discount" "" :=
    ⟨_, rfl, rfl, rfl, by decide, by decide⟩
  have hrun : run (checkinStep .sqlite) (CheckinState.start 0) [exampleCheckin ""] = some _ := rfl
  obtain ⟨resp, hresp, -, hright⟩ := alreadyToday_truthful_iff .sqlite 0 _ _ hrun _ _ []
    (List.suffix_refl _) ⟨fun _ => rfl, rfl, rfl⟩ "alice" "food_discount" "" hres
  refine ⟨_, _, resp, hrun, rfl, hresp, hright.mpr ?_⟩
  simp [EarlierToday]

end IdpForge
