import Mathlib
import IdpForge.Accounts
import IdpForge.JsonTree

/-!
# What an API Client Is Shown of a User

The requests under `/external/v1` answer with the fields of a user that the client may see. The
user is marshalled, the object read into a map, the map filtered and marshalled again. A map is
written in the order of its keys. A client sees nothing but these texts, so two servers whose
answers it cannot tell apart are those that agree on the fields it may see, on which requests
are refused, and on how.

The columns of `users` that logins do not read come apart from the rows of the accounts, with
times by their texts.

## Main results

* `getElem?_filterUserForClient`: a field is shown when it is allowed and the user has it.
* `filterText_eq_iff`: two users give the same text exactly when their allowed fields agree.
* `external_disclosure`: what the answers of a server disclose to a client, no more and no
  less.
-/

open JsonTree

namespace IdpForge

/-! ### Maps -/

/-- `map[string]interface{}`. -/
abbrev JsonMap := Std.ExtTreeMap String Json

/-- The map of an object. -/
def decodeMap : Json → Option JsonMap
  | .null => some ∅
  | .obj ms => some (.ofList ms)
  | _ => none

/-- The object of a map, its members in the order of their keys. -/
def encodeMap (m : JsonMap) : Json := .obj m.toList

/-- `FilterFields`. -/
def filterFields (full : JsonMap) (allowed : List String) : JsonMap :=
  allowed.foldl
    (fun out field =>
      match full[field]? with
      | some v => out.insert field v
      | none => out)
    ∅

/-- Different maps have different texts. -/
theorem marshal_encodeMap_injective {m m' : JsonMap}
    (h : marshal (encodeMap m) = marshal (encodeMap m')) : m = m' := by
  have htext : writeJson (encodeMap m) = writeJson (encodeMap m') := String.ofList_injective h
  have hmembers : m.toList = m'.toList := Json.obj.inj (writeJson_injective htext)
  exact Std.ExtTreeMap.toList_inj.mp hmembers

/-- The fields that pass the filter. -/
theorem getElem?_filterFields (full : JsonMap) (allowed : List String) (k : String) :
    (filterFields full allowed)[k]? = if k ∈ allowed then full[k]? else none := by
  have hfold : ∀ (allowed : List String) (out : JsonMap),
      (allowed.foldl (fun out field =>
        match full[field]? with
        | some v => out.insert field v
        | none => out) out)[k]? =
        if k ∈ allowed ∧ full[k]?.isSome then full[k]? else out[k]? := by
    intro allowed
    induction allowed with
    | nil => simp
    | cons field allowed ih =>
        intro out
        rw [List.foldl_cons, ih]
        cases hfield : full[field]? with
        | none =>
            by_cases hk : k = field
            · subst hk
              simp [hfield]
            · simp [hk]
        | some v =>
            by_cases hk : k = field
            · subst hk
              simp [hfield]
            · have hne : ¬ field = k := fun h => hk h.symm
              simp [hk, Std.ExtTreeMap.getElem?_insert, hne]
  rw [filterFields, hfold]
  by_cases hk : k ∈ allowed
  · cases hfull : full[k]? <;> simp [hk]
  · simp [hk]

/-- A map is read back from its object. -/
theorem decodeMap_encodeMap (m : JsonMap) : decodeMap (encodeMap m) = some m := by
  refine congrArg some (Std.ExtTreeMap.ext_getElem? fun k => ?_)
  have hdistinct : m.toList.Pairwise fun a b => ¬ compare a.1 b.1 = .eq :=
    Std.ExtTreeMap.distinct_keys_toList
  cases hk : m[k]? with
  | some v =>
      exact Std.ExtTreeMap.getElem?_ofList_of_mem Std.ReflCmp.compare_self hdistinct
        (Std.ExtTreeMap.mem_toList_iff_getElem?_eq_some.mpr hk)
  | none =>
      refine Std.ExtTreeMap.getElem?_ofList_of_contains_eq_false ?_
      rw [Bool.eq_false_iff, ne_eq, List.contains_iff_mem]
      intro hmem
      obtain ⟨⟨k', v⟩, hmember, rfl⟩ := List.mem_map.mp hmem
      rw [Std.ExtTreeMap.mem_toList_iff_getElem?_eq_some.mp hmember] at hk
      exact absurd hk (by simp)

/-! ### Users -/

/-- The columns of a user that logins do not read. -/
structure ProfileRow where
  source : String
  externalID : Option String
  avatarURL : Option String
  createdAt : String
  updatedAt : String
  lastLoginAt : Option String
  deriving DecidableEq, Repr

/-- `users.User`. -/
structure User where
  id : String
  username : String
  email : String
  employeeID : String
  status : String
  mfaEnabled : Bool
  source : String
  externalID : String
  avatarURL : String
  forcePasswordChange : Bool
  createdAt : String
  updatedAt : String
  lastLoginAt : Option String
  deriving DecidableEq, Repr

/-- `scanOne`. -/
def scanOne (row : UserRow) (profile : ProfileRow) : User where
  id := row.id
  username := row.username
  email := row.email
  employeeID := row.employeeID.getD ""
  status := row.status
  mfaEnabled := row.mfaEnabled
  source := profile.source
  externalID := profile.externalID.getD ""
  avatarURL := profile.avatarURL.getD ""
  forcePasswordChange := row.forcePasswordChange
  createdAt := profile.createdAt
  updatedAt := profile.updatedAt
  lastLoginAt := profile.lastLoginAt

/-- A member that is left out when it is empty. -/
def omitEmpty (key value : String) : List (String × Json) :=
  if value = "" then [] else [(key, .str value)]

/-- `json.Marshal` of a user, as a value. -/
def User.json (u : User) : Json :=
  .obj ([("id", .str u.id), ("username", .str u.username), ("email", .str u.email)] ++
    omitEmpty "employee_id" u.employeeID ++
    [("status", .str u.status), ("mfa_enabled", .bool u.mfaEnabled), ("source", .str u.source)] ++
    omitEmpty "external_id" u.externalID ++ omitEmpty "avatar_url" u.avatarURL ++
    [("force_password_change", .bool u.forcePasswordChange), ("created_at", .str u.createdAt),
      ("updated_at", .str u.updatedAt)] ++
    (u.lastLoginAt.map fun t => ("last_login_at", .str t)).toList)

/-- The fields of a user. -/
def User.fields (u : User) : JsonMap := (decodeMap u.json).getD ∅

/-- The names of the fields of users. -/
def userFieldNames : List String :=
  ["id", "username", "email", "employee_id", "status", "mfa_enabled", "source", "external_id",
    "avatar_url", "force_password_change", "created_at", "updated_at", "last_login_at"]

/-- A member that may be left out is left out or there. -/
theorem mem_omitEmpty {key value : String} {m : String × Json} (h : m ∈ omitEmpty key value) :
    m.1 = key := by
  rw [omitEmpty] at h
  split at h
  · exact absurd h List.not_mem_nil
  · rw [List.mem_singleton.mp h]

/-- A user has no other fields. -/
theorem getElem?_fields_of_notMem (u : User) {k : String} (hk : k ∉ userFieldNames) :
    u.fields[k]? = none := by
  refine Std.ExtTreeMap.getElem?_ofList_of_contains_eq_false ?_
  rw [Bool.eq_false_iff, ne_eq, List.contains_iff_mem]
  intro hmem
  obtain ⟨m, hm, rfl⟩ := List.mem_map.mp hmem
  simp only [userFieldNames, List.mem_cons, List.not_mem_nil, or_false, not_or] at hk
  simp only [List.mem_append, List.mem_cons, List.not_mem_nil, or_false, Option.mem_toList,
    Option.map_eq_some_iff] at hm
  rcases hm with (((((((rfl | rfl | rfl) | hm) | (rfl | rfl | rfl)) | hm) | hm) |
    (rfl | rfl | rfl)) | ⟨t, -, rfl⟩)
  · exact hk.1 rfl
  · exact hk.2.1 rfl
  · exact hk.2.2.1 rfl
  · exact hk.2.2.2.1 (mem_omitEmpty hm)
  · exact hk.2.2.2.2.1 rfl
  · exact hk.2.2.2.2.2.1 rfl
  · exact hk.2.2.2.2.2.2.1 rfl
  · exact hk.2.2.2.2.2.2.2.1 (mem_omitEmpty hm)
  · exact hk.2.2.2.2.2.2.2.2.1 (mem_omitEmpty hm)
  · exact hk.2.2.2.2.2.2.2.2.2.1 rfl
  · exact hk.2.2.2.2.2.2.2.2.2.2.1 rfl
  · exact hk.2.2.2.2.2.2.2.2.2.2.2.1 rfl
  · exact hk.2.2.2.2.2.2.2.2.2.2.2.2 rfl

/-- `filterUserForClient`. -/
def filterUserForClient (user : User) (allowedFields : List String) : JsonMap :=
  filterFields ((unmarshal decodeMap (marshal user.json)).getD ∅) allowedFields

/-- The text of the filtered user. -/
def filterText (user : User) (allowedFields : List String) : String :=
  marshal (encodeMap (filterUserForClient user allowedFields))

section Text

variable {u u' : User} {allowed : List String}

/-- A field is shown when it is allowed and the user has it. -/
theorem getElem?_filterUserForClient (k : String) :
    (filterUserForClient u allowed)[k]? = if k ∈ allowed then u.fields[k]? else none := by
  rw [filterUserForClient, JsonTree.unmarshal_marshal, getElem?_filterFields, User.fields]

/-- The client reads the map from the text. -/
theorem unmarshal_filterText :
    unmarshal decodeMap (filterText u allowed) = some (filterUserForClient u allowed) := by
  rw [filterText, JsonTree.unmarshal_marshal, decodeMap_encodeMap]

/-- **Two users give the same text** exactly when their allowed fields agree. -/
theorem filterText_eq_iff :
    filterText u allowed = filterText u' allowed ↔
      ∀ field ∈ allowed, u.fields[field]? = u'.fields[field]? := by
  constructor
  · intro h field hfield
    have hmap := marshal_encodeMap_injective h
    have hshown := congrArg (fun m : JsonMap => m[field]?) hmap
    simpa [getElem?_filterUserForClient, hfield] using hshown
  · intro h
    have hmap : filterUserForClient u allowed = filterUserForClient u' allowed := by
      refine Std.ExtTreeMap.ext_getElem? fun k => ?_
      rw [getElem?_filterUserForClient, getElem?_filterUserForClient]
      split
      · next hk => exact h k hk
      · rfl
    rw [filterText, filterText, hmap]

end Text

/-! ### The requests of a client -/

/-- What a server knows of its users. -/
structure Directory where
  server : ServerState
  profiles : String → ProfileRow

/-- The requests under `/external/v1`; what the creation of a user draws comes with it. -/
inductive ExternalRequest where
  | getUser (id : String)
  | login (body : Option LoginRequest)
  | createUser (body : Option CreateUserRequest) (id : String) (hash : Option String)
      (profile : ProfileRow)

section Requests

variable (cfg : AccountConfig) (ctx : RequestContext) (client : ApiClient) (d : Directory)

/-- The user a request is about, where it is not refused. -/
def externalUser : ExternalRequest → Except FiberError User
  | .getUser id =>
      match usersGet ctx.fails d.server.users id with
      | none => newError 404 "user not found"
      | some row => .ok (scanOne row (d.profiles row.id))
  | .login body =>
      (handleExternalLogin cfg ctx d.server body).map fun row => scanOne row (d.profiles row.id)
  | .createUser body id hash profile =>
      (handleExternalCreateUser cfg ctx d.server client body id hash).1.map fun row =>
        scanOne row profile

/-- `handleExternalGetUser`, `handleExternalLogin` and `handleExternalCreateUser`: the text of
the answer. -/
def externalAnswer (req : ExternalRequest) : Except FiberError String :=
  (externalUser cfg ctx client d req).map fun user => filterText user client.allowedFields

end Requests

/-- Two results that show a client the same: the same refusal, or users that agree on the
fields the client may see. -/
inductive SameView (client : ApiClient) : Except FiberError User → Except FiberError User → Prop
  | refused (e : FiberError) : SameView client (.error e) (.error e)
  | shown {u u' : User} (h : ∀ field ∈ client.allowedFields, u.fields[field]? = u'.fields[field]?) :
      SameView client (.ok u) (.ok u')

/-- Results with the same text show the same. -/
theorem map_filterText_eq_iff {client : ApiClient} {r r' : Except FiberError User} :
    (r.map fun u => filterText u client.allowedFields) =
        (r'.map fun u => filterText u client.allowedFields) ↔ SameView client r r' := by
  constructor
  · intro h
    cases r with
    | error e =>
        cases r' with
        | error e' =>
            obtain rfl := Except.error.inj h
            exact .refused e
        | ok u' => exact absurd h (by simp [Except.map])
    | ok u =>
        cases r' with
        | error e' => exact absurd h (by simp [Except.map])
        | ok u' => exact .shown (filterText_eq_iff.mp (Except.ok.inj h))
  · rintro (e | h)
    · rfl
    · exact congrArg Except.ok (filterText_eq_iff.mpr h)

/-- A row without what only logins and password changes read. -/
def UserRow.disclosed (row : UserRow) : UserRow :=
  { row with passwordHash := none, mfaSecret := none, passwordChangedAt := 0 }

/-- The lookup of a user among rows without their secrets. -/
theorem usersGet_map_disclosed (fails : StoreOp → Bool) (rows : List UserRow) (id : String) :
    usersGet fails (rows.map UserRow.disclosed) id =
      (usersGet fails rows id).map UserRow.disclosed := by
  rw [usersGet, usersGet]
  split
  · rfl
  · rw [List.find?_map]
    rfl

/-- **What the answers of a server disclose.** Whatever a client asks for, the answer to it can
be read, and has the fields it may see as the user has them and no others. Two servers answer
all its requests alike if and only if they refuse the same ones, in the same way, and the users
agree on the fields it may see. Password hashes, second factors and the times of password
changes do not show in the lookups of any client. -/
theorem external_disclosure (cfg : AccountConfig) (ctx : RequestContext) (client : ApiClient)
    (d d' : Directory) :
    (∀ req text, externalAnswer cfg ctx client d req = .ok text →
        ∃ user shown, externalUser cfg ctx client d req = .ok user ∧
          unmarshal decodeMap text = some shown ∧
          ∀ k : String, shown[k]? =
            if k ∈ client.allowedFields ∧ k ∈ userFieldNames then user.fields[k]? else none) ∧
      ((∀ req, externalAnswer cfg ctx client d req = externalAnswer cfg ctx client d' req) ↔
        ∀ req, SameView client (externalUser cfg ctx client d req)
          (externalUser cfg ctx client d' req)) ∧
      (d.server.users.map UserRow.disclosed = d'.server.users.map UserRow.disclosed →
        d.profiles = d'.profiles →
        ∀ id, externalAnswer cfg ctx client d (.getUser id) =
          externalAnswer cfg ctx client d' (.getUser id)) := by
  refine ⟨fun req text htext => ?_, forall_congr' fun req => map_filterText_eq_iff, ?_⟩
  · rw [externalAnswer] at htext
    cases huser : externalUser cfg ctx client d req with
    | error e => exact absurd htext (by simp [huser, Except.map])
    | ok user =>
        rw [huser] at htext
        obtain rfl := Except.ok.inj htext
        refine ⟨user, _, rfl, unmarshal_filterText, fun k => ?_⟩
        rw [getElem?_filterUserForClient]
        by_cases hname : k ∈ userFieldNames
        · simp [hname]
        · simp [hname, getElem?_fields_of_notMem user hname]
  · intro hrows hprofiles id
    have hfound : (usersGet ctx.fails d.server.users id).map UserRow.disclosed =
        (usersGet ctx.fails d'.server.users id).map UserRow.disclosed := by
      rw [← usersGet_map_disclosed, ← usersGet_map_disclosed, hrows]
    have huser : externalUser cfg ctx client d (.getUser id) =
        externalUser cfg ctx client d' (.getUser id) := by
      rw [externalUser, externalUser, hprofiles]
      cases hget : usersGet ctx.fails d.server.users id with
      | none =>
          rw [hget, Option.map_none, eq_comm, Option.map_eq_none_iff] at hfound
          rw [hfound]
      | some row =>
          rw [hget, Option.map_some, eq_comm, Option.map_eq_some_iff] at hfound
          obtain ⟨row', hget', hsame⟩ := hfound
          rw [hget']
          have hscan : ∀ r profile, scanOne r profile = scanOne (UserRow.disclosed r) profile :=
            fun _ _ => rfl
          have hid : row'.disclosed.id = row.disclosed.id := by rw [hsame]
          change row'.id = row.id at hid
          simp only
          rw [hscan row', hscan row, hsame, hid]
    rw [externalAnswer, externalAnswer, huser]

end IdpForge
