import IdpForge.PartialMap
import IdpForge.Router
import IdpForge.ScopeIssuance
import IdpForge.TransitionSystem

/-!
# The Rate Limit of an API Client

Both doors for API clients, `authenticateAny` and `requireAPIClient`, count a request under a
key with the number of the current window, and refuse it when the count exceeds the client's
limit. The counter lives in the in-memory cache for as long as the window is, converted to a
64-bit number of nanoseconds; a counter that has expired starts anew.

A request reads the clock twice, once for the key and once inside `Increment`, and other
requests and the reaper of the cache act in between. Time is in nanoseconds since the epoch.

## Main results

* `authenticateAny_eq`, `requireAPIClient_eq`: either door lets a client past exactly when its
  count is within the limit.
* `windowDuration_eq`, `windowDuration_lt`: how a window's length is converted.
* `limitKept_of_guarded`: the limit holds along the runs in which no counter that has expired
  is counted on.
* `api_client_limit_iff`: the clients whose limit holds along every run in which a request is
  counted in the window it was keyed for.
* `api_client_limit_exceeded`: a window of more than 292 years.
-/

open GoStrings PartialMap TransitionSystem

namespace IdpForge

/-! ### Windows -/

/-- What a 64-bit register holds of an integer. -/
def wrapInt64 (x : Int) : Int :=
  (x + 9223372036854775808) % 18446744073709551616 - 9223372036854775808

/-- `time.Duration(seconds) * time.Second`. -/
def windowDuration (seconds : Int) : Int := wrapInt64 (seconds * 1000000000)

/-- `Unix`, of a time since the epoch. -/
def unixSeconds (t : Nat) : Nat := t / 1000000000

/-- The start of the keys of a client's counters. -/
def counterPrefix (client : ApiClient) : String := "apiclient_rl:" ++ client.id ++ ":"

/-- The key of the counter for a reading of the clock. -/
def windowKey (client : ApiClient) (readAt : Nat) : String :=
  counterPrefix client ++
    toString ((unixSeconds readAt : Int).tdiv client.rateLimitWindowSeconds)

/-- The aligned window a time falls into. -/
def windowOf (client : ApiClient) (t : Nat) : Int :=
  (unixSeconds t : Int) / client.rateLimitWindowSeconds

/-- A window of up to 292 years is converted as it is. -/
theorem windowDuration_eq {seconds : Int} (hpos : 0 < seconds) (h : seconds ≤ 9223372036) :
    windowDuration seconds = seconds * 1000000000 := by
  rw [windowDuration, wrapInt64]
  omega

/-- A longer one is converted to less than its length. -/
theorem windowDuration_lt {seconds : Int} (h : 9223372036 < seconds)
    (hpos : 0 < windowDuration seconds) :
    windowDuration seconds + 1 < seconds * 1000000000 := by
  rw [windowDuration, wrapInt64] at *
  omega

/-- Times of one window are less than its length apart. -/
theorem lt_add_of_windowOf_eq {client : ApiClient} {b t : Nat}
    (hpos : 0 < client.rateLimitWindowSeconds) (h : windowOf client b = windowOf client t) :
    (t : Int) < b + client.rateLimitWindowSeconds * 1000000000 := by
  have hstart := Int.ediv_mul_le (unixSeconds b : Int) hpos.ne'
  have hstop := Int.lt_ediv_add_one_mul_self (unixSeconds t : Int) hpos
  rw [windowOf, windowOf] at h
  rw [← h, Int.add_mul, Int.one_mul] at hstop
  have hseconds : (unixSeconds t : Int) < unixSeconds b + client.rateLimitWindowSeconds := by
    omega
  rw [unixSeconds, unixSeconds] at hseconds
  omega

/-- The window of a time, by its bounds. -/
theorem windowOf_eq_iff {client : ApiClient} {t : Nat} {k : Int}
    (hpos : 0 < client.rateLimitWindowSeconds) :
    windowOf client t = k ↔ k * client.rateLimitWindowSeconds ≤ unixSeconds t ∧
      (unixSeconds t : Int) < (k + 1) * client.rateLimitWindowSeconds := by
  rw [windowOf, ← Int.le_ediv_iff_mul_le hpos, ← Int.ediv_lt_iff_lt_mul hpos]
  omega

/-- Every window has a key of its own. -/
theorem windowKey_eq_iff {client : ApiClient} {t t' : Nat}
    (hpos : 0 < client.rateLimitWindowSeconds) :
    windowKey client t = windowKey client t' ↔ windowOf client t = windowOf client t' := by
  rw [windowKey, windowKey, String.append_right_inj, windowOf, windowOf,
    Int.tdiv_eq_ediv_of_nonneg (Int.natCast_nonneg _),
    Int.tdiv_eq_ediv_of_nonneg (Int.natCast_nonneg _)]
  obtain ⟨seconds, hseconds⟩ := Int.eq_ofNat_of_zero_le hpos.le
  rw [hseconds, ← Int.natCast_ediv, ← Int.natCast_ediv, Int.ofNat_inj]
  exact toString_natCast_inj

/-! ### The limiter -/

/-- The middleware that API clients come in by. -/
inductive ClientDoor where
  | authenticateAny | requireAPIClient
  deriving DecidableEq, Repr

/-- A request that was let past: when it read the clock for its key, and when it was
counted. -/
structure LetPast where
  door : ClientDoor
  readAt : Nat
  letPastAt : Nat
  deriving DecidableEq, Repr

/-- The clock, the counters, the requests between their two readings of the clock, when the
client's counters were begun, and the requests that were let past. -/
structure LimiterState where
  now : Nat
  cache : Expiring String Nat
  pending : Nat → Option (ClientDoor × Nat)
  began : String → Option Nat
  passes : List LetPast

/-- No request has been made yet. -/
def LimiterState.start (now : Nat) : LimiterState :=
  ⟨now, fun _ => none, fun _ => none, fun _ => none, []⟩

/-- A step of a request, of the clock, of the cache's reaper, or of something else that writes
to the cache. -/
inductive LimiterAction where
  | arrive (id : Nat) (door : ClientDoor)
  | increment (id : Nat)
  | tick (d : Nat)
  | reap
  | write (key : String) (entry : Option (Entry Nat))
  deriving DecidableEq, Repr

section Steps

variable (client : ApiClient) (s : LimiterState)

/-- `cache.Increment`, for a request that read the clock at this time. -/
def counted (readAt : Nat) : Nat × Expiring String Nat :=
  increment s.cache s.now (windowKey client readAt)
    (windowDuration client.rateLimitWindowSeconds)

/-- A request is counted, and let past when the count is within the limit. -/
def incrementStep (id : Nat) (door : ClientDoor) (readAt : Nat) : LimiterState :=
  { s with
    cache := (counted client s readAt).2
    pending := Function.update s.pending id none
    began := Function.update s.began (windowKey client readAt)
      (some ((s.began (windowKey client readAt)).getD s.now))
    passes :=
      if ((counted client s readAt).1 : Int) > client.rateLimitMax then s.passes
      else ⟨door, readAt, s.now⟩ :: s.passes }

/-- One step. The other keys of the cache do not start like those of this client. -/
def limiterStep : LimiterAction → Option LimiterState
  | .arrive id door =>
      if (s.pending id).isSome then none
      else some { s with pending := Function.update s.pending id (some (door, s.now)) }
  | .increment id =>
      match s.pending id with
      | some (door, readAt) => some (incrementStep client s id door readAt)
      | none => none
  | .tick d => some { s with now := s.now + d }
  | .reap => some { s with cache := reap s.cache s.now }
  | .write key entry =>
      if hasPrefix key (counterPrefix client) then none
      else some { s with cache := Function.update s.cache key entry }

end Steps

/-- In no aligned window more requests are let past than the client's limit. -/
def LimitKept (client : ApiClient) (s : LimiterState) : Prop :=
  ∀ k : Int, ((s.passes.filter fun p =>
    k * client.rateLimitWindowSeconds ≤ unixSeconds p.letPastAt ∧
      (unixSeconds p.letPastAt : Int) < (k + 1) * client.rateLimitWindowSeconds).length : Int) ≤
    client.rateLimitMax

/-- A request is counted in the window it read the clock in. -/
def InWindow (client : ApiClient) (s : LimiterState) : LimiterAction → Prop
  | .increment id => ∀ door readAt, s.pending id = some (door, readAt) →
      windowOf client readAt = windowOf client s.now
  | _ => True

/-- A request is not counted on a counter that was begun and has expired since. -/
def CounterHeld (client : ApiClient) (s : LimiterState) : LimiterAction → Prop
  | .increment id => ∀ door readAt, s.pending id = some (door, readAt) →
      ∀ b, s.began (windowKey client readAt) = some b →
        windowDuration client.rateLimitWindowSeconds ≤ 0 ∨
          (s.now : Int) ≤ b + windowDuration client.rateLimitWindowSeconds
  | _ => True

/-! ### The two doors -/

section Doors

variable {env : Environment} {req : Request} {locals : Locals} {client : ApiClient}

/-- A created client has a limit, and a window that can be divided by. -/
theorem handleCreateAPIClient_rateLimit {resolve : String → Option Resolved}
    {body : CreateAPIClientRequest} {id : String} {inserted : Bool}
    (h : handleCreateAPIClient resolve locals body id inserted = .ok client) :
    0 < client.rateLimitMax ∧ 0 < client.rateLimitWindowSeconds := by
  rw [handleCreateAPIClient] at h
  split at h
  · simp [newError] at h
  · cases hown : requireOwnScopes resolve locals body.scopes with
    | error e => simp [hown] at h
    | ok u =>
        cases inserted with
        | false => simp [hown, newError, createAPIClient] at h
        | true =>
            simp only [hown, createAPIClient, if_true, Except.ok.injEq] at h
            subst h
            dsimp only
            constructor <;> split <;> omega

/-- The admission of an API client divides by zero only where its window is empty. -/
theorem admitAPIClient_ne_panicked {missingKey : String}
    (hclient : env.authenticateClient req.apiKey = some client)
    (hwindow : client.rateLimitWindowSeconds ≠ 0) :
    admitAPIClient env req missingKey locals ≠ .done .panicked := by
  rw [admitAPIClient, hclient]
  simp only [hwindow, if_false]
  split
  · simp [refuse]
  · split
    · simp [refuse]
    · split
      · split <;> simp [refuse]
      · simp

/-- An API client comes in exactly when its count is within the limit. -/
theorem admitAPIClient_eq {missingKey : String} {s : LimiterState} {readAt : Nat}
    (hkey : req.apiKey ≠ "") (hclient : env.authenticateClient req.apiKey = some client)
    (hip : ipAllowed env req.ip client.allowedIPs = true)
    (hwindow : client.rateLimitWindowSeconds ≠ 0) (hread : env.nowUnix = unixSeconds readAt)
    (hcount : env.increment (windowKey client readAt) = some ((counted client s readAt).1 : Int)) :
    admitAPIClient env req missingKey locals =
      if ((counted client s readAt).1 : Int) > client.rateLimitMax then
        refuse 429 "rate limit exceeded for this API client"
      else .next { locals with apiClient := some client } := by
  have hwindowKey : rateLimitKey env client = windowKey client readAt := by
    rw [rateLimitKey, hread]
    rfl
  rw [admitAPIClient, hclient]
  simp [hkey, hip, hwindow, hwindowKey, hcount]

/-- The handler of a door. -/
def ClientDoor.handler : ClientDoor → Handler
  | .authenticateAny => .authenticateAny
  | .requireAPIClient => .requireAPIClient

/-- A request without a live session gets past either door when the limiter lets it past. -/
theorem execHandler_door_eq {door : ClientDoor} {s : LimiterState} {readAt : Nat}
    (hsession : sessionUser env req = none)
    (hkey : req.apiKey ≠ "") (hclient : env.authenticateClient req.apiKey = some client)
    (hip : ipAllowed env req.ip client.allowedIPs = true)
    (hwindow : client.rateLimitWindowSeconds ≠ 0) (hread : env.nowUnix = unixSeconds readAt)
    (hcount : env.increment (windowKey client readAt) = some ((counted client s readAt).1 : Int)) :
    execHandler env req door.handler locals =
      if ((counted client s readAt).1 : Int) > client.rateLimitMax then
        refuse 429 "rate limit exceeded for this API client"
      else .next { locals with apiClient := some client } := by
  cases door with
  | authenticateAny =>
      rw [ClientDoor.handler, execHandler, authenticateAny, hsession]
      exact admitAPIClient_eq hkey hclient hip hwindow hread hcount
  | requireAPIClient => exact admitAPIClient_eq hkey hclient hip hwindow hread hcount

end Doors

/-! ### Counters that do not expire too soon -/

section Invariant

variable {client : ApiClient} {s s' : LimiterState}

/-- How many requests were let past with this key. -/
def passesUnder (client : ApiClient) (s : LimiterState) (key : String) : Nat :=
  s.passes.countP fun p => windowKey client p.readAt = key

/-- A counter that was begun is at least as high as the number of requests it let past, or has
expired. -/
def CounterSound (client : ApiClient) (s : LimiterState) (key : String) : Prop :=
  match s.began key with
  | none => s.cache key = none ∧ passesUnder client s key = 0
  | some b =>
      (passesUnder client s key : Int) ≤ client.rateLimitMax ∧
        ((∃ count, s.cache key = some ⟨count,
              if 0 < windowDuration client.rateLimitWindowSeconds then
                some (b + windowDuration client.rateLimitWindowSeconds) else none⟩ ∧
            passesUnder client s key ≤ count) ∨
          0 < windowDuration client.rateLimitWindowSeconds ∧
            (b : Int) + windowDuration client.rateLimitWindowSeconds < s.now)

/-- A step that leaves the counter alone leaves it sound. -/
theorem CounterSound.of_unchanged {key : String} (h : CounterSound client s key)
    (hbegan : s'.began key = s.began key)
    (hpasses : passesUnder client s' key = passesUnder client s key)
    (hcache : s'.cache key = s.cache key) (hnow : s.now ≤ s'.now) :
    CounterSound client s' key := by
  rw [CounterSound] at *
  rw [hbegan, hpasses, hcache]
  cases hb : s.began key with
  | none => simpa [hb] using h
  | some b =>
      rw [hb] at h
      obtain ⟨hmax, hheld | ⟨hlife, hpast⟩⟩ := h
      · exact ⟨hmax, Or.inl hheld⟩
      · exact ⟨hmax, Or.inr ⟨hlife, by omega⟩⟩

/-- The reaper takes a counter only after it has expired. -/
theorem CounterSound.reap {key : String} (h : CounterSound client s key) :
    CounterSound client { s with cache := PartialMap.reap s.cache s.now } key := by
  rw [CounterSound] at *
  cases hb : s.began key with
  | none =>
      rw [hb] at h
      refine ⟨?_, h.2⟩
      simp [PartialMap.reap, h.1]
  | some b =>
      rw [hb] at h
      obtain ⟨hmax, ⟨count, hcache, hcount⟩ | hpast⟩ := h
      · refine ⟨hmax, ?_⟩
        by_cases hexpired : 0 < windowDuration client.rateLimitWindowSeconds ∧
            (b : Int) + windowDuration client.rateLimitWindowSeconds < s.now
        · exact Or.inr hexpired
        · refine Or.inl ⟨count, reap_eq_some_iff.mpr ⟨hcache, ?_⟩, hcount⟩
          exact Entry.not_expired_of_lifetime (by omega)
      · exact ⟨hmax, Or.inr hpast⟩

variable {id : Nat} {door : ClientDoor} {readAt : Nat}

/-- A count that exceeds the limit lets nobody past, any other one request. -/
theorem passesUnder_incrementStep :
    passesUnder client (incrementStep client s id door readAt) (windowKey client readAt) =
      passesUnder client s (windowKey client readAt) +
        if ((counted client s readAt).1 : Int) > client.rateLimitMax then 0 else 1 := by
  rw [passesUnder, incrementStep]
  dsimp only
  split
  · rfl
  · rw [List.countP_cons_of_pos (by simp)]
    rfl

/-- Other counters are left. -/
theorem CounterSound.incrementStep_of_ne {key : String} (h : CounterSound client s key)
    (hne : key ≠ windowKey client readAt) :
    CounterSound client (incrementStep client s id door readAt) key := by
  refine h.of_unchanged ?_ ?_ ?_ le_rfl
  · simp [incrementStep, hne]
  · rw [passesUnder, passesUnder, incrementStep]
    dsimp only
    split
    · rfl
    · rw [List.countP_cons_of_neg (by simpa using hne.symm)]
  · exact increment_of_ne hne

/-- Counting on a counter that has not expired keeps it sound. -/
theorem CounterSound.incrementStep (hmax : 0 < client.rateLimitMax)
    (h : CounterSound client s (windowKey client readAt))
    (hheld : ∀ b, s.began (windowKey client readAt) = some b →
      windowDuration client.rateLimitWindowSeconds ≤ 0 ∨
        (s.now : Int) ≤ b + windowDuration client.rateLimitWindowSeconds) :
    CounterSound client (incrementStep client s id door readAt) (windowKey client readAt) := by
  have hbegan : (IdpForge.incrementStep client s id door readAt).began (windowKey client readAt) =
      some ((s.began (windowKey client readAt)).getD s.now) := by simp [IdpForge.incrementStep]
  rw [CounterSound, hbegan, passesUnder_incrementStep]
  rw [CounterSound] at h
  cases hb : s.began (windowKey client readAt) with
  | none =>
      rw [hb] at h
      obtain ⟨hcache, hnone⟩ := h
      have hcounted : counted client s readAt = (1, PartialMap.set s.cache s.now
          (windowKey client readAt) 1 (windowDuration client.rateLimitWindowSeconds)) :=
        increment_of_none hcache
      refine ⟨?_, Or.inl ⟨1, ?_, ?_⟩⟩
      · rw [hnone, hcounted]
        split <;> omega
      · simp [IdpForge.incrementStep, hcounted, PartialMap.set]
      · rw [hnone]
        split <;> omega
  | some b =>
      rw [hb] at h
      obtain ⟨hle, ⟨count, hcache, hcount⟩ | ⟨hlife, hpast⟩⟩ := h
      · have hlive : (Entry.mk count (if 0 < windowDuration client.rateLimitWindowSeconds then
            some (b + windowDuration client.rateLimitWindowSeconds) else none)).expired s.now =
              false := Entry.not_expired_of_lifetime (hheld b hb)
        have hcounted : counted client s readAt = (count + 1, Function.update s.cache
            (windowKey client readAt) (some ⟨count + 1, _⟩)) := increment_of_held hcache hlive
        refine ⟨?_, Or.inl ⟨count + 1, ?_, ?_⟩⟩
        · rw [hcounted]
          dsimp only
          split <;> omega
        · simp [IdpForge.incrementStep, hcounted]
        · split <;> omega
      · have := hheld b hb
        omega

/-- Every counter of the client is sound, and every request was let past in the window it read
the clock in. -/
structure LimiterState.Sound (client : ApiClient) (s : LimiterState) : Prop where
  counters : ∀ readAt, CounterSound client s (windowKey client readAt)
  inWindow : ∀ p ∈ s.passes, windowOf client p.readAt = windowOf client p.letPastAt

/-- Nothing was counted at the start. -/
theorem LimiterState.sound_start (now : Nat) : (LimiterState.start now).Sound client :=
  ⟨fun _ => ⟨rfl, rfl⟩, by simp [LimiterState.start]⟩

/-- Keys that do not start like the client's are none of its keys. -/
theorem windowKey_ne_of_not_hasPrefix {key : String}
    (h : ¬ hasPrefix key (counterPrefix client) = true) : windowKey client readAt ≠ key := by
  rintro rfl
  exact h (hasPrefix_iff.mpr ⟨_, rfl⟩)

/-- **The step lemma.** Counting in the right window on a counter that has not expired keeps the
counters sound, and so does every other step. -/
theorem LimiterState.Sound.step (hmax : 0 < client.rateLimitMax) {a : LimiterAction}
    (h : s.Sound client) (hwindow : InWindow client s a) (hheld : CounterHeld client s a)
    (hstep : limiterStep client s a = some s') : s'.Sound client := by
  obtain ⟨hcounters, hpasses⟩ := h
  cases a with
  | arrive id door =>
      rw [limiterStep] at hstep
      split at hstep
      · cases hstep
      · obtain rfl := Option.some.inj hstep
        exact ⟨fun readAt => (hcounters readAt).of_unchanged rfl rfl rfl le_rfl, hpasses⟩
  | increment id =>
      rw [limiterStep] at hstep
      split at hstep
      · next door readAt hpending =>
          obtain rfl := Option.some.inj hstep
          refine ⟨fun readAt' => ?_, ?_⟩
          · by_cases hkey : windowKey client readAt' = windowKey client readAt
            · rw [hkey]
              exact (hcounters readAt).incrementStep hmax (hheld door readAt hpending)
            · exact (hcounters readAt').incrementStep_of_ne hkey
          · intro p hp
            rw [incrementStep] at hp
            dsimp only at hp
            split at hp
            · exact hpasses p hp
            · rcases List.mem_cons.mp hp with rfl | hbefore
              · exact hwindow door readAt hpending
              · exact hpasses p hbefore
      · cases hstep
  | tick d =>
      obtain rfl := Option.some.inj hstep
      exact ⟨fun readAt => (hcounters readAt).of_unchanged rfl rfl rfl (Nat.le_add_right ..),
        hpasses⟩
  | reap =>
      obtain rfl := Option.some.inj hstep
      exact ⟨fun readAt => (hcounters readAt).reap, hpasses⟩
  | write key entry =>
      rw [limiterStep] at hstep
      split at hstep
      · cases hstep
      · next hforeign =>
          obtain rfl := Option.some.inj hstep
          refine ⟨fun readAt => (hcounters readAt).of_unchanged rfl rfl ?_ le_rfl, hpasses⟩
          exact Function.update_of_ne (windowKey_ne_of_not_hasPrefix hforeign) ..

/-- Where the counters are sound, the limit is kept. -/
theorem LimiterState.Sound.limitKept (hmax : 0 < client.rateLimitMax)
    (hpos : 0 < client.rateLimitWindowSeconds) (h : s.Sound client) : LimitKept client s := by
  intro k
  rw [← List.countP_eq_length_filter]
  by_cases hany : ∃ p ∈ s.passes, windowOf client p.letPastAt = k
  · obtain ⟨p, hp, hk⟩ := hany
    have hle : (s.passes.countP fun q =>
        k * client.rateLimitWindowSeconds ≤ unixSeconds q.letPastAt ∧
          (unixSeconds q.letPastAt : Int) < (k + 1) * client.rateLimitWindowSeconds) ≤
        passesUnder client s (windowKey client p.readAt) := by
      refine List.countP_mono_left fun q hq hwindow => ?_
      have hqk := (windowOf_eq_iff hpos).mpr (of_decide_eq_true hwindow)
      rw [decide_eq_true_eq, windowKey_eq_iff hpos, h.inWindow q hq, h.inWindow p hp, hqk, hk]
    have hcounter := h.counters p.readAt
    rw [CounterSound] at hcounter
    split at hcounter
    · omega
    · omega
  · have hzero : (s.passes.countP fun q =>
        k * client.rateLimitWindowSeconds ≤ unixSeconds q.letPastAt ∧
          (unixSeconds q.letPastAt : Int) < (k + 1) * client.rateLimitWindowSeconds) = 0 := by
      refine List.countP_eq_zero.mpr fun q hq hwindow => hany ⟨q, hq, ?_⟩
      exact (windowOf_eq_iff hpos).mpr (of_decide_eq_true hwindow)
    omega

/-- **The limit.** Along a run in which a request is counted in the window it read the clock in,
and on no counter that has expired since it was begun, the limit is kept. -/
theorem limitKept_of_guarded (hmax : 0 < client.rateLimitMax)
    (hpos : 0 < client.rateLimitWindowSeconds) {now : Nat} {as : List LimiterAction}
    (hguard : Guarded (limiterStep client) (fun s a => InWindow client s a ∧ CounterHeld client s a)
      (.start now) as)
    (hrun : run (limiterStep client) (.start now) as = some s) : LimitKept client s :=
  (guarded_run_invariant (fun _ _ _ h hg => h.step hmax hg.1 hg.2)
    (LimiterState.sound_start now) hguard hrun).limitKept hmax hpos

/-! ### The windows a counter outlives -/

/-- Every counter was begun in its own window. -/
def BegunInWindow (client : ApiClient) (s : LimiterState) : Prop :=
  ∀ readAt b, s.began (windowKey client readAt) = some b →
    windowOf client readAt = windowOf client b

/-- A request that is counted in its window begins its counter there. -/
theorem BegunInWindow.step (hpos : 0 < client.rateLimitWindowSeconds) {a : LimiterAction}
    (h : BegunInWindow client s) (hwindow : InWindow client s a)
    (hstep : limiterStep client s a = some s') : BegunInWindow client s' := by
  cases a with
  | increment id =>
      rw [limiterStep] at hstep
      split at hstep
      · next door readAt hpending =>
          obtain rfl := Option.some.inj hstep
          intro readAt' b hb
          rcases PartialMap.update_eq_some_iff.mp hb with ⟨hkey, hbegan⟩ | ⟨-, hbefore⟩
          · cases hfirst : s.began (windowKey client readAt) with
            | none =>
                rw [hfirst] at hbegan
                obtain rfl := Option.some.inj hbegan
                rw [(windowKey_eq_iff hpos).mp hkey]
                exact hwindow door readAt hpending
            | some b' =>
                rw [hfirst] at hbegan
                obtain rfl := Option.some.inj hbegan
                exact h readAt' b' (hkey ▸ hfirst)
          · exact h readAt' b hbefore
      · cases hstep
  | arrive id door =>
      rw [limiterStep] at hstep
      split at hstep
      · cases hstep
      · exact Option.some.inj hstep ▸ h
  | tick d => exact Option.some.inj hstep ▸ h
  | reap => exact Option.some.inj hstep ▸ h
  | write key entry =>
      rw [limiterStep] at hstep
      split at hstep
      · cases hstep
      · exact Option.some.inj hstep ▸ h

/-- A counter that lives as long as its window, or for good, has not expired there. -/
theorem BegunInWindow.counterHeld (hpos : 0 < client.rateLimitWindowSeconds)
    (hlong : client.rateLimitWindowSeconds ≤ 9223372036 ∨
      windowDuration client.rateLimitWindowSeconds ≤ 0) {a : LimiterAction}
    (h : BegunInWindow client s) (hwindow : InWindow client s a) : CounterHeld client s a := by
  cases a with
  | increment id =>
      intro door readAt hpending b hb
      rcases hlong with hshort | hforever
      · refine Or.inr ?_
        have hsame := (h readAt b hb).symm.trans (hwindow door readAt hpending)
        have hlt := lt_add_of_windowOf_eq hpos hsame
        rw [windowDuration_eq hpos hshort]
        omega
      · exact Or.inl hforever
  | arrive id door => trivial
  | tick d => trivial
  | reap => trivial
  | write key entry => trivial

end Invariant

/-! ### The windows a counter does not outlive -/

section Overflow

variable {client : ApiClient} {s : LimiterState}

/-- A request that is counted at once. -/
def requestAtOnce : List LimiterAction := [.arrive 0 .requireAPIClient, .increment 0]

/-- What a request that is counted at once leaves. -/
def requested (client : ApiClient) (s : LimiterState) : LimiterState :=
  incrementStep client
    { s with pending := Function.update s.pending 0 (some (.requireAPIClient, s.now)) } 0
    .requireAPIClient s.now

/-- The counters after the request. -/
theorem requested_cache : (requested client s).cache = (counted client s s.now).2 := rfl

/-- The requests let past, after it. -/
theorem requested_passes : (requested client s).passes =
    if ((counted client s s.now).1 : Int) > client.rateLimitMax then s.passes
    else ⟨.requireAPIClient, s.now, s.now⟩ :: s.passes := rfl

variable (client) in
/-- A request can be made at any time, and is counted in its window when it is at once. -/
theorem run_requestAtOnce (h : s.pending 0 = none) :
    run (limiterStep client) s requestAtOnce = some (requested client s) ∧
      Guarded (limiterStep client) (InWindow client) s requestAtOnce := by
  have harrive : limiterStep client s (.arrive 0 .requireAPIClient) = some
      { s with pending := Function.update s.pending 0 (some (.requireAPIClient, s.now)) } := by
    simp [limiterStep, h]
  refine ⟨?_, trivial, fun t ht => ⟨?_, fun _ _ => trivial⟩⟩
  · rw [requestAtOnce, run_cons, harrive]
    simp [limiterStep, requested]
  · obtain rfl := Option.some.inj (harrive.symm.trans ht)
    intro door readAt hpending
    simp only [Function.update_self, Option.some.injEq, Prod.mk.injEq] at hpending
    rw [← hpending.2]

/-- The state after so many requests at the epoch. -/
structure Filled (client : ApiClient) (n : Nat) (s : LimiterState) : Prop where
  now : s.now = 0
  idle : s.pending 0 = none
  counter : s.cache (windowKey client 0) =
    if n = 0 then none else some ⟨n, some (windowDuration client.rateLimitWindowSeconds)⟩
  passes : s.passes = List.replicate n ⟨.requireAPIClient, 0, 0⟩

/-- One more request within the limit. -/
theorem Filled.requested {n : Nat} (hlife : 0 < windowDuration client.rateLimitWindowSeconds)
    (hn : ((n + 1 : Nat) : Int) ≤ client.rateLimitMax) (h : Filled client n s) :
    Filled client (n + 1) (requested client s) := by
  obtain ⟨hnow, hidle, hcounter, hpasses⟩ := h
  have hcounted : counted client s 0 = (n + 1, Function.update s.cache (windowKey client 0)
      (some ⟨n + 1, some (windowDuration client.rateLimitWindowSeconds)⟩)) := by
    by_cases hzero : n = 0
    · rw [if_pos hzero] at hcounter
      rw [counted, increment_of_none hcounter, PartialMap.set, if_pos hlife, hnow, hzero]
      simp
    · rw [if_neg hzero] at hcounter
      rw [counted, increment_of_held hcounter]
      rw [hnow, Entry.expired]
      simp [hlife.le]
  refine ⟨hnow, ?_, ?_, ?_⟩
  · simp [IdpForge.requested, incrementStep]
  · rw [requested_cache, hnow, hcounted]
    simp
  · rw [requested_passes, hnow, hcounted, if_neg (by omega), hpasses, List.replicate_succ]

/-- The limit can be used up at the epoch. -/
theorem exists_filled (hlife : 0 < windowDuration client.rateLimitWindowSeconds) (n : Nat)
    (hn : (n : Int) ≤ client.rateLimitMax) :
    ∃ as s, run (limiterStep client) (.start 0) as = some s ∧
      Guarded (limiterStep client) (InWindow client) (.start 0) as ∧ Filled client n s := by
  induction n with
  | zero => exact ⟨[], .start 0, rfl, trivial, rfl, rfl, rfl, rfl⟩
  | succ n ih =>
      obtain ⟨as, s, hrun, hguard, hfilled⟩ := ih (by omega)
      obtain ⟨hrun', hguard'⟩ := run_requestAtOnce client hfilled.idle
      refine ⟨as ++ requestAtOnce, _, ?_, guarded_append hrun hguard hguard',
        hfilled.requested hlife hn⟩
      rw [run_append, hrun]
      exact hrun'

/-- After its lifetime the counter starts anew, and one more request is let past. -/
theorem Filled.requested_late {n d : Nat} (hmax : 0 < client.rateLimitMax) (hn : n ≠ 0)
    (hpos : 0 < client.rateLimitWindowSeconds)
    (hlife : windowDuration client.rateLimitWindowSeconds = d)
    (hearly : windowOf client (d + 1) = windowOf client 0) (h : Filled client n s) :
    (IdpForge.requested client { s with now := s.now + (d + 1) }).passes =
      ⟨.requireAPIClient, d + 1, d + 1⟩ :: List.replicate n ⟨.requireAPIClient, 0, 0⟩ := by
  obtain ⟨hnow, -, hcounter, hpasses⟩ := h
  rw [if_neg hn, hlife, ← (windowKey_eq_iff hpos).mpr hearly] at hcounter
  have hexpired : (Entry.mk n (some (d : Int))).expired ((s.now + (d + 1) : Nat) : Int) = true := by
    rw [Entry.expired, hnow]
    simp
  have hcounted : counted client { s with now := s.now + (d + 1) } (d + 1) =
      (1, PartialMap.set s.cache _ (windowKey client (d + 1)) 1 _) :=
    increment_of_expired hcounter hexpired
  have hlate : s.now + (d + 1) = d + 1 := by rw [hnow, Nat.zero_add]
  rw [requested_passes]
  dsimp only
  rw [hlate] at hcounted ⊢
  rw [hcounted, if_neg (by omega), hpasses]

/-- **The overflow.** A window that is converted to a shorter lifetime lets one request more
past than the limit. -/
theorem exists_not_limitKept (hmax : 0 < client.rateLimitMax)
    (hlong : 9223372036 < client.rateLimitWindowSeconds)
    (hlife : 0 < windowDuration client.rateLimitWindowSeconds) :
    ∃ as s, run (limiterStep client) (.start 0) as = some s ∧
      Guarded (limiterStep client) (InWindow client) (.start 0) as ∧ ¬ LimitKept client s := by
  have hpos : 0 < client.rateLimitWindowSeconds := by omega
  obtain ⟨n, hn⟩ := Int.eq_ofNat_of_zero_le hmax.le
  obtain ⟨d, hd⟩ := Int.eq_ofNat_of_zero_le hlife.le
  obtain ⟨as, s, hrun, hguard, hfilled⟩ := exists_filled hlife n hn.ge
  -- the window is still the first one when the counter has expired
  have hzero : windowOf client 0 = 0 := by simp [windowOf, unixSeconds]
  have hfirst : windowOf client (d + 1) = 0 := by
    have hwindow := windowDuration_lt hlong hlife
    rw [windowOf_eq_iff hpos, unixSeconds]
    omega
  have hpasses := hfilled.requested_late hmax (by omega) hpos hd (hfirst.trans hzero.symm)
  obtain ⟨hrun', hguard'⟩ := run_requestAtOnce client
    (s := { s with now := s.now + (d + 1) }) hfilled.idle
  refine ⟨as ++ .tick (d + 1) :: requestAtOnce, requested client { s with now := s.now + (d + 1) },
    ?_, ?_, ?_⟩
  · rw [run_append, hrun]
    exact hrun'
  · exact guarded_append hrun hguard ⟨trivial, fun t ht => Option.some.inj ht ▸ hguard'⟩
  · intro hkept
    have hle := hkept 0
    have hall : ∀ p ∈ (requested client { s with now := s.now + (d + 1) }).passes,
        decide (0 * client.rateLimitWindowSeconds ≤ unixSeconds p.letPastAt ∧
          (unixSeconds p.letPastAt : Int) < (0 + 1) * client.rateLimitWindowSeconds) = true := by
      intro p hp
      rw [decide_eq_true_eq, ← windowOf_eq_iff hpos]
      rw [hpasses, List.mem_cons, List.mem_replicate] at hp
      rcases hp with rfl | ⟨-, rfl⟩
      · exact hfirst
      · exact hzero
    rw [List.filter_eq_self.mpr hall, hpasses, List.length_cons, List.length_replicate, hn] at hle
    omega

end Overflow

/-- **The rate limit.** A created client never divides the middleware by zero. Its limit is kept
in each aligned window along every run in which a request is counted in the window it read the
clock in, and on no counter that has expired since it was begun. The second of these is of no
account exactly for a window of at most 9223372036 seconds, or one that is converted to a
lifetime without end. -/
theorem api_client_limit_iff {resolve : String → Option Resolved} {locals : Locals}
    {body : CreateAPIClientRequest} {id : String} {inserted : Bool} {client : ApiClient}
    (h : handleCreateAPIClient resolve locals body id inserted = .ok client) :
    (∀ env req missingKey locals, env.authenticateClient req.apiKey = some client →
      admitAPIClient env req missingKey locals ≠ .done .panicked) ∧
    (∀ now as s,
      Guarded (limiterStep client) (fun s a => InWindow client s a ∧ CounterHeld client s a)
        (.start now) as →
      run (limiterStep client) (.start now) as = some s → LimitKept client s) ∧
    ((∀ now as s, Guarded (limiterStep client) (InWindow client) (.start now) as →
      run (limiterStep client) (.start now) as = some s → LimitKept client s) ↔
      client.rateLimitWindowSeconds ≤ 9223372036 ∨
        windowDuration client.rateLimitWindowSeconds ≤ 0) := by
  obtain ⟨hmax, hpos⟩ := handleCreateAPIClient_rateLimit h
  refine ⟨fun env req missingKey locals hclient => ?_, fun now as s hguard hrun => ?_, ?_, ?_⟩
  · exact admitAPIClient_ne_panicked hclient hpos.ne'
  · exact limitKept_of_guarded hmax hpos hguard hrun
  · intro hall
    by_contra hshort
    obtain ⟨hlong, hlife⟩ := not_or.mp hshort
    obtain ⟨as, s, hrun, hguard, hexceeded⟩ :=
      exists_not_limitKept hmax (Int.lt_of_not_ge hlong) (Int.lt_of_not_ge hlife)
    exact hexceeded (hall 0 as s hguard hrun)
  · intro hlong now as s hguard hrun
    have hsound : s.Sound client ∧ BegunInWindow client s :=
      guarded_run_invariant (P := fun s => s.Sound client ∧ BegunInWindow client s)
        (fun s a s' ⟨hs, hbegun⟩ hwindow hstep =>
          ⟨hs.step hmax hwindow (hbegun.counterHeld hpos hlong hwindow) hstep,
            hbegun.step hpos hwindow hstep⟩)
        ⟨LimiterState.sound_start now, by simp [BegunInWindow, LimiterState.start]⟩ hguard hrun
    exact hsound.1.limitKept hmax hpos

/-- A client with one request in 18446744074 seconds. -/
def slowClient : ApiClient :=
  ⟨"c", "probe", ["id", "username"], [], [], 1, 18446744074, true⟩

/-- The creation of that client. -/
theorem handleCreateAPIClient_slowClient : handleCreateAPIClient (fun _ => none) {}
    ⟨"probe", [], [], [], 1, 18446744074⟩ "c" true = .ok slowClient := by
  decide

/-- Its limit, and what it takes. -/
theorem api_client_limit_iff_example :
    (∀ now as s,
      Guarded (limiterStep slowClient)
        (fun s a => InWindow slowClient s a ∧ CounterHeld slowClient s a) (.start now) as →
      run (limiterStep slowClient) (.start now) as = some s → LimitKept slowClient s) ∧
    ¬ (slowClient.rateLimitWindowSeconds ≤ 9223372036 ∨
        windowDuration slowClient.rateLimitWindowSeconds ≤ 0) :=
  ⟨(api_client_limit_iff handleCreateAPIClient_slowClient).2.1, by decide⟩

/-- Its counter is gone after 0.3 seconds, and a second request is let past. -/
theorem api_client_limit_exceeded :
    handleCreateAPIClient (fun _ => none) {} ⟨"probe", [], [], [], 1, 18446744074⟩ "c" true =
      .ok slowClient ∧
    ∃ s, run (limiterStep slowClient) (.start 0)
        (requestAtOnce ++ .tick 290448385 :: requestAtOnce) = some s ∧
      ¬ LimitKept slowClient s := by
  refine ⟨handleCreateAPIClient_slowClient, _, rfl, fun hkept => ?_⟩
  have hle := hkept 0
  revert hle
  decide

end IdpForge
