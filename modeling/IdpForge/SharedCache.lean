import IdpForge.JsonTree
import IdpForge.KeyFamilies
import IdpForge.MemoryCache
import IdpForge.RateLimit
import IdpForge.WebAuthnCeremonies

/-!
# One Cache for Everything

The server keeps its sessions, authorization codes, refresh tokens, resolutions, lockout counters
and locks, pending WebAuthn ceremonies and rate-limit counters in one cache of strings. Each kind
has keys that begin with a text of its own, and values that are JSON, counters or the text `1`.
Parts of the keys come from requests: the cookie of a session, a code, a user name.

Requests run side by side. Each call of the cache is one step, with the halves of the reaper's
passes between them, so the calls of all requests are one sequence. The reference has a map of
values for each kind, of the kind that the models of those parts of the server keep.

The JSON of a ceremony is written and read by the WebAuthn library and is a parameter.

## Main results

* `cacheKey_injective`: the keys of the kinds are told apart, whatever they are made from.
* `sharedCache_refines`: every run of the cache answers as the separate maps do.
-/

open GoStrings JsonTree KeyFamilies PartialMap TransitionSystem

namespace IdpForge

/-! ### Keys -/

/-- The kinds of entries. -/
inductive CacheFamily where
  | session | code | refresh | resolved | loginFail | loginLock | ceremony | window
  deriving DecidableEq, Repr

namespace CacheFamily

/-- What an entry is found by. -/
abbrev Key : CacheFamily → Type
  | .ceremony => Ceremony × String
  | .window => String × Int
  | .session | .code | .refresh | .resolved | .loginFail | .loginLock => String

/-- What is kept; the state of the WebAuthn library has type `σ`. -/
abbrev Val (σ : Type) : CacheFamily → Type
  | .session => SessionData
  | .code => AuthCode
  | .refresh => RefreshRecord
  | .resolved => Resolved
  | .loginLock => Unit
  | .ceremony => WebAuthnSessionData σ
  | .loginFail | .window => Nat

instance instDecidableEqKey : ∀ i : CacheFamily, DecidableEq i.Key
  | .ceremony => inferInstanceAs (DecidableEq (Ceremony × String))
  | .window => inferInstanceAs (DecidableEq (String × Int))
  | .session | .code | .refresh | .resolved | .loginFail | .loginLock =>
      inferInstanceAs (DecidableEq String)

/-- The text that the keys begin with. -/
def tag : CacheFamily → String
  | .session => "session:"
  | .code => "oidc:code:"
  | .refresh => "oidc:refresh:"
  | .resolved => "rbac:user:"
  | .loginFail => "login_fail:"
  | .loginLock => "login_lock:"
  | .ceremony => "webauthn:session:"
  | .window => "apiclient_rl:"

/-- The rest of a key. -/
def rest : (i : CacheFamily) → i.Key → String
  | .ceremony, (kind, userID) => kind.pendingKey userID
  | .window, (clientID, n) => clientID ++ ":" ++ toString n
  | .session, key | .code, key | .refresh, key | .resolved, key | .loginFail, key
  | .loginLock, key => key

/-- The key of an entry. -/
def cacheKey (i : CacheFamily) (k : i.Key) : String := i.tag ++ i.rest k

/-- No kind's text begins with another's. -/
theorem tag_prefixFree (i j : CacheFamily) (h : i.tag.toList <+: j.tag.toList) : i = j := by
  have hall : ∀ i j : CacheFamily, i.tag.toList.isPrefixOf j.tag.toList = true → i = j := by
    intro i j
    cases i <;> cases j <;> decide +kernel
  exact hall i j (List.isPrefixOf_iff_prefix.mpr h)

/-- The keys that begin with a kind's text are the keys of the kind. -/
theorem hasPrefix_cacheKey (i j : CacheFamily) (k : j.Key) :
    hasPrefix (j.cacheKey k) i.tag = decide (j = i) := by
  rw [Bool.eq_iff_iff, decide_eq_true_eq, hasPrefix, List.isPrefixOf_iff_prefix, cacheKey,
    String.toList_append, tag_isPrefix_iff tag_prefixFree]
  exact eq_comm

end CacheFamily

/-- A number is written without a colon. -/
theorem colon_notMem_toString (n : Int) : ':' ∉ (toString n).toList := by
  have hdigits (m : Nat) : ':' ∉ m.repr.toList := by
    intro h
    rw [Nat.toList_repr] at h
    have hdigit := Nat.isDigit_of_mem_toDigits (by decide) (by decide) h
    revert hdigit
    decide
  rw [Int.toString_eq_repr, Int.repr_eq_if]
  split
  · exact hdigits _
  · rw [String.toList_append, List.mem_append]
    rintro (h | h)
    · revert h
      decide
    · exact hdigits _ h

/-- A number is told by its spelling. -/
theorem toString_int_injective : Function.Injective (toString : Int → String) := by
  intro m n h
  have hnat {m n : Nat} (h : m.repr = n.repr) : m = n :=
    toString_natCast_inj.mp h
  have hsign {m n : Nat} (h : m.repr = "-" ++ n.repr) : False := by
    have hmem : '-' ∈ m.repr.toList := by simp [h]
    rw [Nat.toList_repr] at hmem
    have hdigit := Nat.isDigit_of_mem_toDigits (by decide) (by decide) hmem
    revert hdigit
    decide
  rw [Int.toString_eq_repr, Int.toString_eq_repr, Int.repr_eq_if, Int.repr_eq_if] at h
  split at h <;> split at h
  · have := hnat h
    omega
  · exact absurd h hsign
  · exact absurd h.symm hsign
  · have := hnat ((String.append_right_inj _).mp h)
    omega

namespace CacheFamily

/-- The rest of a key tells what it was made from. -/
theorem rest_injective (i : CacheFamily) {k l : i.Key} (h : i.rest k = i.rest l) : k = l := by
  cases i with
  | session | code | refresh | resolved | loginFail | loginLock => exact h
  | ceremony =>
      obtain ⟨kind, userID⟩ := k
      obtain ⟨kind', userID'⟩ := l
      have hinitial := congrArg (fun s : String => s.toList.head?) h
      rw [rest, rest] at h hinitial
      cases kind <;> cases kind' <;> simp only [Ceremony.pendingKey] at h hinitial
      · rw [(String.append_right_inj _).mp h]
      · simp at hinitial
      · simp at hinitial
      · rw [(String.append_right_inj _).mp h]
  | window =>
      obtain ⟨clientID, n⟩ := k
      obtain ⟨clientID', n'⟩ := l
      have htext : clientID.toList ++ ':' :: (toString n).toList =
          clientID'.toList ++ ':' :: (toString n').toList := by
        have hlist := congrArg String.toList h
        simpa [rest] using hlist
      obtain ⟨hclient, hn⟩ := append_cons_inj_right (colon_notMem_toString n)
        (colon_notMem_toString n') htext
      rw [String.toList_inj.mp hclient, toString_int_injective (String.toList_inj.mp hn)]

/-- **Keys are told apart** by their kinds and what they were made from. -/
theorem cacheKey_injective {i j : CacheFamily} {k : i.Key} {l : j.Key}
    (h : i.cacheKey k = j.cacheKey l) : (⟨i, k⟩ : Sigma Key) = ⟨j, l⟩ := by
  have htext : i.tag.toList ++ (i.rest k).toList = j.tag.toList ++ (j.rest l).toList := by
    rw [← String.toList_append, ← String.toList_append]
    exact congrArg String.toList h
  obtain ⟨rfl, hrest⟩ := tag_append_inj tag_prefixFree htext
  rw [i.rest_injective (String.toList_inj.mp hrest)]

end CacheFamily

/-! ### Values -/

/-- The JSON of `sessionData`. -/
def SessionData.json (d : SessionData) : Json :=
  .obj (("user_id", .str d.userID) ::
    if d.mustChangePassword then [("must_change_password", .bool true)] else [])

/-- `sessionData` from JSON. -/
def SessionData.ofJson : Json → Option SessionData :=
  decodeStruct
    [("user_id", fun d v => (decodeString d.userID v).map ({ d with userID := · })),
      ("must_change_password", fun d v =>
        (decodeBool d.mustChangePassword v).map ({ d with mustChangePassword := · }))]
    ⟨"", false⟩

/-- The JSON of `authCode`. -/
def AuthCode.json (c : AuthCode) : Json :=
  .obj [("ClientID", .str c.clientID), ("RedirectURI", .str c.redirectURI),
    ("Scope", .str c.scope), ("UserID", .str c.userID),
    ("CodeChallenge", .str c.codeChallenge),
    ("CodeChallengeMethod", .str c.codeChallengeMethod)]

/-- `authCode` from JSON. -/
def AuthCode.ofJson : Json → Option AuthCode :=
  decodeStruct
    [("ClientID", fun c v => (decodeString c.clientID v).map ({ c with clientID := · })),
      ("RedirectURI", fun c v => (decodeString c.redirectURI v).map ({ c with redirectURI := · })),
      ("Scope", fun c v => (decodeString c.scope v).map ({ c with scope := · })),
      ("UserID", fun c v => (decodeString c.userID v).map ({ c with userID := · })),
      ("CodeChallenge", fun c v =>
        (decodeString c.codeChallenge v).map ({ c with codeChallenge := · })),
      ("CodeChallengeMethod", fun c v =>
        (decodeString c.codeChallengeMethod v).map ({ c with codeChallengeMethod := · }))]
    ⟨"", "", "", "", "", ""⟩

/-- The JSON of the record behind a refresh token. -/
def RefreshRecord.json (r : RefreshRecord) : Json :=
  .obj [("ClientID", .str r.clientID), ("UserID", .str r.userID), ("Scope", .str r.scope)]

/-- The record behind a refresh token from JSON. -/
def RefreshRecord.ofJson : Json → Option RefreshRecord :=
  decodeStruct
    [("ClientID", fun r v => (decodeString r.clientID v).map ({ r with clientID := · })),
      ("UserID", fun r v => (decodeString r.userID v).map ({ r with userID := · })),
      ("Scope", fun r v => (decodeString r.scope v).map ({ r with scope := · }))]
    ⟨"", "", ""⟩

/-- The JSON of `Permission`. -/
def Permission.json (p : Permission) : Json :=
  .obj [("resource", .str p.resource), ("action", .str p.action)]

/-- `Permission` from JSON. -/
def Permission.ofJson : Json → Option Permission :=
  decodeStruct
    [("resource", fun p v => (decodeString p.resource v).map ({ p with resource := · })),
      ("action", fun p v => (decodeString p.action v).map ({ p with action := · }))]
    ⟨"", ""⟩

/-- The JSON of `Resolved`. -/
def Resolved.json (r : Resolved) : Json :=
  .obj [("user_id", .str r.userID), ("role_names", encodeSlice .str r.roleNames),
    ("permissions", encodeSlice Permission.json r.permissions)]

/-- `Resolved` from JSON. -/
def Resolved.ofJson : Json → Option Resolved :=
  decodeStruct
    [("user_id", fun r v => (decodeString r.userID v).map ({ r with userID := · })),
      ("role_names", fun r v =>
        (decodeSlice (decodeString "") v).map ({ r with roleNames := · })),
      ("permissions", fun r v =>
        (decodeSlice Permission.ofJson v).map ({ r with permissions := · }))]
    ⟨"", [], []⟩

/-- A session is read back. -/
theorem SessionData.ofJson_json (d : SessionData) : ofJson d.json = some d := by
  obtain ⟨userID, mustChangePassword⟩ := d
  cases mustChangePassword <;> rfl

/-- An authorization code is read back. -/
theorem AuthCode.ofJson_json (c : AuthCode) : ofJson c.json = some c := rfl

/-- The record behind a refresh token is read back. -/
theorem RefreshRecord.ofJson_json (r : RefreshRecord) : ofJson r.json = some r := rfl

/-- A permission is read back. -/
theorem Permission.ofJson_json (p : Permission) : ofJson p.json = some p := rfl

/-- A resolution is read back. -/
theorem Resolved.ofJson_json (r : Resolved) : ofJson r.json = some r := by
  have hroles : decodeSlice (decodeString "") (encodeSlice .str r.roleNames) = some r.roleNames :=
    decodeSlice_encodeSlice (fun s => show decodeString "" (.str s) = some s from rfl) r.roleNames
  have hpermissions := decodeSlice_encodeSlice Permission.ofJson_json r.permissions
  change ((decodeSlice (decodeString "") (encodeSlice .str r.roleNames)).map fun names =>
      (⟨r.userID, names, []⟩ : Resolved)).bind (fun r' =>
    ((decodeSlice Permission.ofJson (encodeSlice Permission.json r.permissions)).map fun ps =>
      { r' with permissions := ps }).bind some) = some r
  rw [hroles, hpermissions]
  rfl

/-! ### Calls -/

/-- `time.Second`, in nanoseconds. -/
def timeSecond : Int := 1000000000

/-- The hash of `hashToken`, and the JSON of a ceremony. -/
structure CacheEnv (σ : Type) where
  hashToken : String → String
  marshalCeremony : WebAuthnSessionData σ → String
  unmarshalCeremony : String → Option (WebAuthnSessionData σ)

/-- The calls that the server makes of the cache, with what they are made from. Lifetimes that
are configured are arguments. -/
inductive ServerCall (σ : Type) where
  /-- `sessionStore.create`. -/
  | createSession (id userID : String) (mustChangePassword : Bool)
  /-- `sessionStore.getFull`. -/
  | getSession (id : String)
  /-- `sessionStore.clearMustChangePassword`. -/
  | clearMustChangePassword (id userID : String)
  /-- `sessionStore.destroy`. -/
  | destroySession (id : String)
  /-- `Provider.Authorize`. -/
  | storeCode (code : String) (record : AuthCode)
  /-- `Provider.ExchangeCode`. -/
  | getCode (code : String)
  | deleteCode (code : String)
  /-- `Provider.issueTokens`. -/
  | storeRefresh (token : String) (record : RefreshRecord) (ttl : Int)
  /-- `Provider.RefreshTokens`. -/
  | getRefresh (token : String)
  | deleteRefresh (token : String)
  /-- `Resolver.Resolve`. -/
  | getResolved (userID : String)
  | storeResolved (userID : String) (r : Resolved)
  /-- `Resolver.Invalidate`. -/
  | invalidate (userID : String)
  /-- `Resolver.InvalidateAll`. -/
  | invalidateAll
  /-- `accountLocked`. -/
  | accountLocked (username : String)
  /-- `recordLoginFailure`. -/
  | countFailure (username : String) (window : Int)
  | lockAccount (username : String) (duration : Int)
  /-- `clearLoginFailures`. -/
  | clearLoginFailures (username : String)
  /-- `Service.putSession`. -/
  | putCeremony (kind : Ceremony) (userID : String) (data : WebAuthnSessionData σ)
  /-- `Service.getSession`. -/
  | getCeremony (kind : Ceremony) (userID : String)
  /-- `authenticateAny` and `requireAPIClient`, which read the clock for the key before. -/
  | countRequest (client : ApiClient) (readAt : Nat)

/-- What the server makes of the answer to a call. -/
inductive ServerAnswer (σ : Type) where
  | session (data : Option SessionData)
  | code (record : Option AuthCode)
  | refresh (record : Option RefreshRecord)
  | resolved (r : Option Resolved)
  | locked (yes : Bool)
  | ceremony (data : Option (WebAuthnSessionData σ))
  | count (n : Int)
  | done
  deriving DecidableEq

namespace ServerCall

variable {σ : Type} (env : CacheEnv σ)

/-- The call of the cache. -/
def cacheCall : ServerCall σ → CacheCall
  | .createSession id userID mustChangePassword =>
      .set ("session:" ++ id) (marshal (SessionData.json ⟨userID, mustChangePassword⟩))
        (sessionTTL * timeSecond)
  | .getSession id => .get ("session:" ++ id)
  | .clearMustChangePassword id userID =>
      .set ("session:" ++ id) (marshal (SessionData.json ⟨userID, false⟩))
        (sessionTTL * timeSecond)
  | .destroySession id => .delete ["session:" ++ id]
  | .storeCode code record => .set ("oidc:code:" ++ code) (marshal record.json) (120 * timeSecond)
  | .getCode code => .get ("oidc:code:" ++ code)
  | .deleteCode code => .delete ["oidc:code:" ++ code]
  | .storeRefresh token record ttl =>
      .set ("oidc:refresh:" ++ env.hashToken token) (marshal record.json) ttl
  | .getRefresh token => .get ("oidc:refresh:" ++ env.hashToken token)
  | .deleteRefresh token => .delete ["oidc:refresh:" ++ env.hashToken token]
  | .getResolved userID => .get ("rbac:user:" ++ userID)
  | .storeResolved userID r => .set ("rbac:user:" ++ userID) (marshal r.json) (300 * timeSecond)
  | .invalidate userID => .delete ["rbac:user:" ++ userID]
  | .invalidateAll => .deletePrefix "rbac:user:"
  | .accountLocked username => .get ("login_lock:" ++ username)
  | .countFailure username window => .increment ("login_fail:" ++ username) window
  | .lockAccount username duration => .set ("login_lock:" ++ username) "1" duration
  | .clearLoginFailures username =>
      .delete ["login_fail:" ++ username, "login_lock:" ++ username]
  | .putCeremony kind userID data =>
      .set (kind.cacheKey userID) (env.marshalCeremony data) (webauthnSessionTTL * timeSecond)
  | .getCeremony kind userID => .get (kind.cacheKey userID)
  | .countRequest client readAt =>
      .increment (windowKey client readAt) (windowDuration client.rateLimitWindowSeconds)

/-- What is made of the answer. A value that is not read counts as none. -/
def answer : ServerCall σ → CacheResult → ServerAnswer σ
  | .getSession _, .found raw => .session (raw.bind (unmarshal SessionData.ofJson))
  | .getCode _, .found raw => .code (raw.bind (unmarshal AuthCode.ofJson))
  | .getRefresh _, .found raw => .refresh (raw.bind (unmarshal RefreshRecord.ofJson))
  | .getResolved _, .found raw => .resolved (raw.bind (unmarshal Resolved.ofJson))
  | .accountLocked _, .found raw => .locked raw.isSome
  | .getCeremony _ _, .found raw => .ceremony (raw.bind env.unmarshalCeremony)
  | _, .count n => .count n
  | _, _ => .done

end ServerCall

/-! ### The reference -/

/-- A map of values for each kind of entries. -/
abbrev ServerCaches (σ : Type) := Maps CacheFamily.Key (CacheFamily.Val σ)

namespace ServerCall

variable {σ : Type} (env : CacheEnv σ) (t : ServerCaches σ) (now later : Int)

/-- A call on the separate maps. -/
def onMaps : ServerCall σ → ServerAnswer σ × ServerCaches σ
  | .createSession id userID mustChangePassword =>
      (.done, t.set now .session id ⟨userID, mustChangePassword⟩ (sessionTTL * timeSecond))
  | .getSession id => (.session (get (t .session) now id), t)
  | .clearMustChangePassword id userID =>
      (.done, t.set now .session id ⟨userID, false⟩ (sessionTTL * timeSecond))
  | .destroySession id => (.done, t.delete .session id)
  | .storeCode code record => (.done, t.set now .code code record (120 * timeSecond))
  | .getCode code => (.code (get (t .code) now code), t)
  | .deleteCode code => (.done, t.delete .code code)
  | .storeRefresh token record ttl =>
      (.done, t.set now .refresh (env.hashToken token) record ttl)
  | .getRefresh token => (.refresh (get (t .refresh) now (env.hashToken token)), t)
  | .deleteRefresh token => (.done, t.delete .refresh (env.hashToken token))
  | .getResolved userID => (.resolved (get (t .resolved) now userID), t)
  | .storeResolved userID r => (.done, t.set now .resolved userID r (300 * timeSecond))
  | .invalidate userID => (.done, t.delete .resolved userID)
  | .invalidateAll => (.done, t.clear .resolved)
  | .accountLocked username => (.locked (get (t .loginLock) now username).isSome, t)
  | .countFailure username window =>
      let (n, t) := t.bump now later .loginFail username (1 : Nat) Nat.succ window
      (.count (n : Nat), t)
  | .lockAccount username duration => (.done, t.set now .loginLock username () duration)
  | .clearLoginFailures username =>
      (.done, (t.delete .loginFail username).delete .loginLock username)
  | .putCeremony kind userID data =>
      (.done, t.set now .ceremony (kind, userID) data (webauthnSessionTTL * timeSecond))
  | .getCeremony kind userID => (.ceremony (get (t .ceremony) now (kind, userID)), t)
  | .countRequest client readAt =>
      let number := (unixSeconds readAt : Int).tdiv client.rateLimitWindowSeconds
      let (n, t) := t.bump now later .window (client.id, number) (1 : Nat) Nat.succ
        (windowDuration client.rateLimitWindowSeconds)
      (.count (n : Nat), t)

/-- A list of calls on empty maps: the answers, and the maps. -/
def runOnMaps (calls : List (Int × Int × ServerCall σ)) :
    List (ServerAnswer σ) × ServerCaches σ :=
  calls.foldl (fun (answers, t) (now, later, c) =>
    let (answer, t) := onMaps env t now later c
    (answers ++ [answer], t)) ([], fun _ _ => none)

end ServerCall

/-! ### One call -/

/-- The JSON of a ceremony is read back. -/
def CacheEnv.ReadsBack {σ : Type} (env : CacheEnv σ) : Prop :=
  ∀ data, env.unmarshalCeremony (env.marshalCeremony data) = some data

/-- What stands for a value in the cache. -/
def CacheFamily.Stores {σ : Type} (env : CacheEnv σ) :
    (i : CacheFamily) → CacheFamily.Val σ i → CacheValue → Prop
  | .session, d, w => w.value = marshal (SessionData.json d)
  | .code, c, w => w.value = marshal (AuthCode.json c)
  | .refresh, r, w => w.value = marshal (RefreshRecord.json r)
  | .resolved, r, w => w.value = marshal (Resolved.json r)
  | .loginLock, (), w => w.value = "1"
  | .ceremony, data, w => w.value = env.marshalCeremony data
  | .loginFail, n, w | .window, n, w => w.counter = (n : Nat)

/-- Where the entries stand. -/
def cacheLayout {σ : Type} (env : CacheEnv σ) :
    Layout CacheFamily.Key (CacheFamily.Val σ) String CacheValue :=
  ⟨CacheFamily.cacheKey, CacheFamily.Stores env, CacheFamily.cacheKey_injective⟩

/-- The value of a counter that counts one more. -/
def CacheValue.succ (w : CacheValue) : CacheValue := ⟨w.value, w.counter + 1⟩

/-- `Increment` goes on from an entry. -/
theorem perform_increment (m : CacheData) (now later : Int) (key : String) (ttl : Int) :
    m.perform now later (.increment key ttl) =
      (.count (bump m now later key ⟨"", 1⟩ CacheValue.succ ttl).1.counter,
        (bump m now later key ⟨"", 1⟩ CacheValue.succ ttl).2) := by
  have hvisible : ReferenceMap.visible m now key = reap m now key := rfl
  rw [cacheIncrement_eq, ReferenceMap.perform, hvisible, bump]
  cases reap m now key <;> rfl

/-- A counter stands for one more. -/
theorem succ_counter {n : Nat} {w : CacheValue} (h : w.counter = n) :
    w.succ.counter = (n.succ : Nat) := by
  rw [CacheValue.succ, h]
  rfl

/-- The key of a rate-limit counter. -/
theorem windowKey_eq_cacheKey (client : ApiClient) (readAt : Nat) :
    windowKey client readAt = CacheFamily.cacheKey .window
      (client.id, (unixSeconds readAt : Int).tdiv client.rateLimitWindowSeconds) := by
  rw [windowKey, counterPrefix, CacheFamily.cacheKey, CacheFamily.rest, CacheFamily.tag,
    String.append_assoc, String.append_assoc, String.append_assoc]

section Call

variable {σ : Type} {env : CacheEnv σ} {m : CacheData} {t : ServerCaches σ} {clock now later : Int}

/-- What a `Get` finds is read as what the separate map has. -/
theorem get_bind (h : (cacheLayout env).Holds m t now) (i : CacheFamily) (k : i.Key)
    (read : String → Option (CacheFamily.Val σ i))
    (hread : ∀ v w, CacheFamily.Stores env i v w → read w.value = some v) :
    (m.get now (i.cacheKey k)).bind read = get (t i) now k := by
  have hlookup : Option.Rel (CacheFamily.Stores env i) (get (t i) now k)
      (get m now (i.cacheKey k)) := h.lookup i k
  have hget : m.get now (i.cacheKey k) = (get m now (i.cacheKey k)).map (·.value) := by
    rw [cacheGet_eq, get_eq_map_reap m, Option.map_map]
    rfl
  rw [hget]
  cases hv : get (t i) now k <;> cases hw : get m now (i.cacheKey k) <;>
    rw [hv, hw] at hlookup <;> cases hlookup
  · rfl
  · next v w hvw => exact hread v w hvw

/-- What was marshalled is read back. -/
theorem unmarshal_of_eq {α : Type} {json : α → Json} {ofJson : Json → Option α}
    (h : ∀ x, ofJson (json x) = some x) (x : α) (w : CacheValue)
    (hw : w.value = marshal (json x)) : unmarshal ofJson w.value = some x := by
  rw [hw, JsonTree.unmarshal_marshal, h]

/-- **A call on the cache** answers as on the separate maps, and the cache holds what they
do. -/
theorem perform_onMaps (hceremony : env.ReadsBack) (h : (cacheLayout env).Holds m t clock)
    (hnow : clock ≤ now) (hlater : now ≤ later) (c : ServerCall σ) :
    c.answer env (m.perform now later (c.cacheCall env)).1 = (c.onMaps env t now later).1 ∧
      (cacheLayout env).Holds (m.perform now later (c.cacheCall env)).2
        (c.onMaps env t now later).2 later := by
  have hholds := h.of_le hnow
  have hstay := hholds.of_le hlater
  cases c with
  | createSession id userID mustChangePassword =>
      exact ⟨rfl, (hholds.set .session id (w := ⟨_, 0⟩) rfl _).of_le hlater⟩
  | getSession id =>
      exact ⟨congrArg ServerAnswer.session
        (get_bind hholds .session id _ (unmarshal_of_eq SessionData.ofJson_json)), hstay⟩
  | clearMustChangePassword id userID =>
      exact ⟨rfl, (hholds.set .session id (w := ⟨_, 0⟩) rfl _).of_le hlater⟩
  | destroySession id => exact ⟨rfl, (hholds.delete .session id).of_le hlater⟩
  | storeCode code record =>
      exact ⟨rfl, (hholds.set .code code (w := ⟨_, 0⟩) rfl _).of_le hlater⟩
  | getCode code =>
      exact ⟨congrArg ServerAnswer.code
        (get_bind hholds .code code _ (unmarshal_of_eq AuthCode.ofJson_json)), hstay⟩
  | deleteCode code => exact ⟨rfl, (hholds.delete .code code).of_le hlater⟩
  | storeRefresh token record ttl =>
      exact ⟨rfl, (hholds.set .refresh (env.hashToken token) (w := ⟨_, 0⟩) rfl _).of_le hlater⟩
  | getRefresh token =>
      exact ⟨congrArg ServerAnswer.refresh (get_bind hholds .refresh (env.hashToken token)
        _ (unmarshal_of_eq RefreshRecord.ofJson_json)), hstay⟩
  | deleteRefresh token =>
      exact ⟨rfl, (hholds.delete .refresh (env.hashToken token)).of_le hlater⟩
  | getResolved userID =>
      exact ⟨congrArg ServerAnswer.resolved
        (get_bind hholds .resolved userID _ (unmarshal_of_eq Resolved.ofJson_json)), hstay⟩
  | storeResolved userID r =>
      exact ⟨rfl, (hholds.set .resolved userID (w := ⟨_, 0⟩) rfl _).of_le hlater⟩
  | invalidate userID => exact ⟨rfl, (hholds.delete .resolved userID).of_le hlater⟩
  | invalidateAll =>
      exact ⟨rfl, (hholds.remove fun j l =>
        CacheFamily.hasPrefix_cacheKey .resolved j l).of_le hlater⟩
  | accountLocked username =>
      have hlock := get_bind hholds .loginLock username (fun _ => some ()) fun _ _ _ => rfl
      refine ⟨congrArg ServerAnswer.locked ?_, hstay⟩
      rw [← hlock]
      change (m.get now (CacheFamily.cacheKey .loginLock username)).isSome = _
      cases m.get now (CacheFamily.cacheKey .loginLock username) <;> rfl
  | countFailure username window =>
      obtain ⟨hcount, hbump⟩ := hholds.bump hlater .loginFail username (1 : Nat) Nat.succ ⟨"", 1⟩
        CacheValue.succ window rfl fun n w hn => succ_counter hn
      rw [ServerCall.cacheCall, perform_increment]
      exact ⟨congrArg ServerAnswer.count hcount, hbump⟩
  | lockAccount username duration =>
      exact ⟨rfl, (hholds.set .loginLock username (w := ⟨_, 0⟩) rfl _).of_le hlater⟩
  | clearLoginFailures username =>
      exact ⟨rfl, ((hholds.delete .loginFail username).delete .loginLock username).of_le hlater⟩
  | putCeremony kind userID data =>
      exact ⟨rfl, (hholds.set .ceremony (kind, userID) (w := ⟨_, 0⟩) rfl _).of_le hlater⟩
  | getCeremony kind userID =>
      exact ⟨congrArg ServerAnswer.ceremony (get_bind hholds .ceremony (kind, userID)
        _ fun data w hw => hw ▸ hceremony data), hstay⟩
  | countRequest client readAt =>
      obtain ⟨hcount, hbump⟩ := hholds.bump hlater .window
        (client.id, (unixSeconds readAt : Int).tdiv client.rateLimitWindowSeconds) (1 : Nat)
        Nat.succ ⟨"", 1⟩ CacheValue.succ (windowDuration client.rateLimitWindowSeconds) rfl
        fun n w hn => succ_counter hn
      rw [ServerCall.cacheCall, perform_increment, windowKey_eq_cacheKey]
      exact ⟨congrArg ServerAnswer.count hcount, hbump⟩

end Call

/-! ### Runs -/

/-- A call with its two readings of the clock, or one half of a pass of the reaper. -/
inductive SharedAction (σ : Type) where
  | call (now later : Int) (c : ServerCall σ)
  | reaperReads (now : Int)
  | reaperSweeps

section Runs

variable {σ : Type} (env : CacheEnv σ)

/-- What happens to the cache. -/
def SharedAction.onCache : SharedAction σ → MemoryAction
  | .call now later c => .call now later (c.cacheCall env)
  | .reaperReads now => .reaperReads now
  | .reaperSweeps => .reaperSweeps

/-- The call of an action. -/
def SharedAction.call? : SharedAction σ → Option (Int × Int × ServerCall σ)
  | .call now later c => some (now, later, c)
  | .reaperReads _ | .reaperSweeps => none

/-- The step function. -/
def sharedStep (s : MemoryCache) (a : SharedAction σ) : Option MemoryCache :=
  memoryStep s (a.onCache env)

/-- The calls of a run, in order. -/
def serverCalls (as : List (SharedAction σ)) : List (Int × Int × ServerCall σ) :=
  as.filterMap SharedAction.call?

/-- What the server makes of the answers to its calls. -/
def answers (calls : List (Int × Int × ServerCall σ)) (results : List CacheResult) :
    List (ServerAnswer σ) :=
  List.zipWith (fun (_, _, c) result => c.answer env result) calls results

variable {env}

/-- The relation between the actions of a run and the state they lead to: the server has had the
answers of the separate maps, the cache holds what they do, and the reading of the reaper is an
old one. -/
structure SharedAgree (env : CacheEnv σ) (as : List (SharedAction σ)) (s : MemoryCache) :
    Prop where
  length : s.results.length = (serverCalls as).length
  answers : answers env (serverCalls as) s.results = (ServerCall.runOnMaps env (serverCalls as)).1
  holds : (cacheLayout env).Holds s.data (ServerCall.runOnMaps env (serverCalls as)).2 s.clock
  reading : ∀ now, s.reading = some now → now ≤ s.clock

/-- One more call on the separate maps. -/
theorem runOnMaps_snoc (calls : List (Int × Int × ServerCall σ)) (now later : Int)
    (c : ServerCall σ) :
    ServerCall.runOnMaps env (calls ++ [(now, later, c)]) =
      let (answers, t) := ServerCall.runOnMaps env calls
      let (answer, t) := c.onMaps env t now later
      (answers ++ [answer], t) := by
  rw [ServerCall.runOnMaps, List.foldl_append]
  rfl

/-- A step of the cache is a step of the separate maps, if it is a call, and unseen otherwise. -/
theorem sharedAgree_step (hceremony : env.ReadsBack) {as : List (SharedAction σ)}
    {s s' : MemoryCache} {a : SharedAction σ} (h : SharedAgree env as s)
    (hstep : sharedStep env s a = some s') : SharedAgree env (as ++ [a]) s' := by
  cases a with
  | call now later c =>
      simp only [sharedStep, SharedAction.onCache, memoryStep, Option.ite_none_right_eq_some,
        Option.some.injEq] at hstep
      obtain ⟨⟨hnow, hlater⟩, rfl⟩ := hstep
      have hcalls : serverCalls (as ++ [.call now later c]) = serverCalls as ++ [(now, later, c)] := by
        simp [serverCalls, SharedAction.call?]
      obtain ⟨hanswer, hholds⟩ := perform_onMaps hceremony h.holds hnow hlater c
      refine ⟨?_, ?_, ?_, fun r hr => ?_⟩
      · simp [hcalls, h.length]
      · rw [hcalls, runOnMaps_snoc]
        simp only [IdpForge.answers]
        rw [List.zipWith_append h.length.symm]
        simp only [← h.answers, ← hanswer]
        rfl
      · rw [hcalls, runOnMaps_snoc]
        exact hholds
      · have := h.reading r hr
        dsimp only
        omega
  | reaperReads now =>
      obtain ⟨⟨hnow, -⟩, heq⟩ := Option.ite_none_right_eq_some.mp hstep
      obtain rfl := Option.some.inj heq
      have hcalls : serverCalls (as ++ [.reaperReads now]) = serverCalls as := by
        simp [serverCalls, SharedAction.call?]
      refine ⟨?_, ?_, ?_, fun r hr => ?_⟩
      · rw [hcalls]
        exact h.length
      · rw [hcalls]
        exact h.answers
      · rw [hcalls]
        exact h.holds.of_le hnow
      · exact Int.le_of_eq (Option.some.inj hr).symm
  | reaperSweeps =>
      have hcalls : serverCalls (as ++ [.reaperSweeps]) = serverCalls as := by
        simp [serverCalls, SharedAction.call?]
      rw [sharedStep, SharedAction.onCache, memoryStep] at hstep
      split at hstep
      case h_1 now hreading =>
        obtain rfl := Option.some.inj hstep
        refine ⟨?_, ?_, ?_, by simp⟩
        · rw [hcalls]
          exact h.length
        · rw [hcalls]
          exact h.answers
        · rw [hcalls]
          exact h.holds.reap (h.reading now hreading)
      case h_2 => simp at hstep

end Runs

/-- A library whose ceremonies are their challenges, and tokens that are their own hashes. -/
def exampleCacheEnv : CacheEnv Unit :=
  ⟨id, fun data => data.challenge, fun text => some ⟨text, ()⟩⟩

/-- A session, a lock and a code whose names are each other's keys, a resolution that is dropped
with all others, and a count that the reaper drops. -/
def exampleSharedRun : List (SharedAction Unit) :=
  [.call 0 1 (.createSession "login_lock:bob" "u" true),
    .call 2 2 (.accountLocked "bob"), .call 3 3 (.lockAccount "session:a" 50),
    .call 4 4 (.getSession "a"), .call 5 5 (.getSession "login_lock:bob"),
    .call 6 6 (.countFailure "bob" 10), .call 7 7 (.countFailure "bob" 10),
    .call 8 8 (.storeResolved "u" ⟨"u", [], [⟨"app/*", "read"⟩]⟩), .call 9 9 (.getResolved "u"),
    .call 10 10 .invalidateAll, .call 11 11 (.getResolved "u"),
    .reaperReads 20, .reaperSweeps, .call 21 22 (.countFailure "bob" 10),
    .call 23 23 (.accountLocked "session:a"), .call 60 60 (.accountLocked "session:a")]

end IdpForge
