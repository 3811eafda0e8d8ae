import IdpForge.GoStrings
import IdpForge.PartialMap
import IdpForge.TransitionSystem

/-!
# The Memory Cache

`MemoryCache` keeps values and counters in one map under a lock. A `Get` or an `Increment`
passes over an entry whose deadline is in the past, and the reaper removes such entries once a
minute, with a reading of the clock that it takes before the lock.

Each call holds the lock from its readings of the clock to its end, so the calls of any number
of callers are a sequence, with the two halves of the reaper's passes between them. The reference
is a map that nothing is removed from but by `Delete` and `DeletePrefix`.

## Main results

* `perform_agree`: a call answers alike on two maps that hold the same up to what has expired.
* `memoryAgree_step`: so do the cache and the reference, with the reaper between the calls.
* `memoryCache_refines`: every run of the cache answers as the reference does.
-/

open GoStrings PartialMap TransitionSystem

namespace IdpForge

/-- `memoryEntry`, apart from `expires`. -/
structure CacheValue where
  value : String
  counter : Int
  deriving DecidableEq, Repr

/-- `memoryEntry`; the zero `expires` is `none`. -/
abbrev MemoryEntry := PartialMap.Entry CacheValue

/-- The `data` of the cache. -/
abbrev CacheData := Expiring String CacheValue

/-- The `expires` of an entry that is made now. -/
def cacheExpires (now ttl : Int) : Option Int :=
  if 0 < ttl then some (now + ttl) else none

/-- What a call answers: the value of a `Get`, if it finds one, the count of an `Increment`, or
nothing. -/
inductive CacheResult where
  | found (value : Option String)
  | count (n : Int)
  | done
  deriving DecidableEq, Repr

namespace CacheData

variable (m : CacheData)

/-- `Get`. -/
def get (now : Int) (key : String) : Option String :=
  match m key with
  | none => none
  | some e => if e.expired now then none else some e.value.value

/-- `Set`. -/
def set (now : Int) (key value : String) (ttl : Int) : CacheData :=
  Function.update m key (some ⟨⟨value, 0⟩, cacheExpires now ttl⟩)

/-- `Delete`. -/
def delete (keys : List String) : CacheData :=
  keys.foldl (fun m k => Function.update m k none) m

/-- `DeletePrefix`. -/
def deletePrefix (pre : String) : CacheData :=
  fun k => if hasPrefix k pre then none else m k

/-- `Increment`, which reads the clock to see whether the entry has expired, and again for the
deadline of a new one. -/
def increment (now later : Int) (key : String) (ttl : Int) : Int × CacheData :=
  let fresh : MemoryEntry := ⟨⟨"", 0⟩, cacheExpires later ttl⟩
  let e : MemoryEntry :=
    match m key with
    | none => fresh
    | some e => if e.expired now then fresh else e
  let e : MemoryEntry := { e with value := { e.value with counter := e.value.counter + 1 } }
  (e.value.counter, Function.update m key (some e))

end CacheData

/-- The calls of the `Cache` interface. -/
inductive CacheCall where
  | get (key : String)
  | set (key value : String) (ttl : Int)
  | delete (keys : List String)
  | deletePrefix (pre : String)
  | increment (key : String) (ttl : Int)
  deriving DecidableEq, Repr

/-- A call, with its first reading of the clock and, for the `Increment` that takes two, the
second. -/
def CacheData.perform (m : CacheData) (now later : Int) : CacheCall → CacheResult × CacheData
  | .get key => (.found (m.get now key), m)
  | .set key value ttl => (.done, m.set now key value ttl)
  | .delete keys => (.done, m.delete keys)
  | .deletePrefix pre => (.done, m.deletePrefix pre)
  | .increment key ttl =>
      let (n, m) := m.increment now later key ttl
      (.count n, m)

/-- The cache, the last reading of the clock, the one that the reaper has taken for its next
pass, and the answers so far. -/
structure MemoryCache where
  clock : Int
  data : CacheData
  reading : Option Int
  results : List CacheResult

/-- `NewMemory`. -/
def MemoryCache.start (now : Int) : MemoryCache := ⟨now, fun _ => none, none, []⟩

/-- A call with its two readings of the clock, or one half of a pass of the reaper: it reads the
clock, and with the lock it removes what had expired. -/
inductive MemoryAction where
  | call (now later : Int) (c : CacheCall)
  | reaperReads (now : Int)
  | reaperSweeps
  deriving DecidableEq, Repr

/-- The call of an action. -/
def MemoryAction.call? : MemoryAction → Option (Int × Int × CacheCall)
  | .call now later c => some (now, later, c)
  | .reaperReads _ | .reaperSweeps => none

/-- The step function. The clock does not go back. -/
def memoryStep (s : MemoryCache) : MemoryAction → Option MemoryCache
  | .call now later c =>
      if s.clock ≤ now ∧ now ≤ later then
        let (result, data) := s.data.perform now later c
        some { s with clock := later, data := data, results := s.results ++ [result] }
      else none
  | .reaperReads now =>
      if s.clock ≤ now ∧ s.reading = none then some { s with clock := now, reading := some now }
      else none
  | .reaperSweeps =>
      match s.reading with
      | some now => some { s with data := reap s.data now, reading := none }
      | none => none

/-! ### The reference -/

namespace ReferenceMap

/-- The entry under a key, until its deadline has passed. -/
def visible (m : CacheData) (now : Int) (key : String) : Option MemoryEntry :=
  (m key).filter fun e => !e.expired now

/-- A call on a map that keeps what has expired. -/
def perform (m : CacheData) (now later : Int) : CacheCall → CacheResult × CacheData
  | .get key => (.found ((visible m now key).map fun e => e.value.value), m)
  | .set key value ttl =>
      (.done, Function.update m key (some ⟨⟨value, 0⟩, cacheExpires now ttl⟩))
  | .delete keys => (.done, fun k => if k ∈ keys then none else m k)
  | .deletePrefix pre => (.done, fun k => if hasPrefix k pre then none else m k)
  | .increment key ttl =>
      match visible m now key with
      | none => (.count 1, Function.update m key (some ⟨⟨"", 1⟩, cacheExpires later ttl⟩))
      | some e =>
          (.count (e.value.counter + 1),
            Function.update m key (some ⟨⟨e.value.value, e.value.counter + 1⟩, e.expires⟩))

/-- A list of calls on an empty map: the answers, and the map. -/
def runCalls (calls : List (Int × Int × CacheCall)) : List CacheResult × CacheData :=
  calls.foldl (fun (results, m) (now, later, c) =>
    let (result, m) := perform m now later c
    (results ++ [result], m)) ([], fun _ => none)

end ReferenceMap

/-! ### One call -/

section Call

variable {m m' : CacheData} {clock now later : Int}

/-- `Get` finds the value that is visible. -/
theorem cacheGet_eq (m : CacheData) (now : Int) (key : String) :
    m.get now key = (ReferenceMap.visible m now key).map fun e => e.value.value := by
  rw [CacheData.get, ReferenceMap.visible]
  cases m key with
  | none => rfl
  | some e => cases hexpired : e.expired now <;> simp [Option.filter_some, hexpired]

/-- The loop of `Delete` removes the keys. -/
theorem cacheDelete_eq (m : CacheData) (keys : List String) :
    m.delete keys = fun k => if k ∈ keys then none else m k := by
  induction keys generalizing m with
  | nil => simp [CacheData.delete]
  | cons key keys ih =>
      have hrest := ih (Function.update m key none)
      rw [CacheData.delete] at hrest ⊢
      rw [List.foldl_cons, hrest]
      funext k
      by_cases hk : k = key <;> simp [hk]

/-- `Increment` goes on from the entry that is visible. -/
theorem cacheIncrement_eq (m : CacheData) (now later : Int) (key : String) (ttl : Int) :
    m.perform now later (.increment key ttl) =
      ReferenceMap.perform m now later (.increment key ttl) := by
  rw [CacheData.perform, ReferenceMap.perform, CacheData.increment.eq_def, ReferenceMap.visible]
  cases m key with
  | none => simp
  | some e => cases hexpired : e.expired now <;> simp [Option.filter_some, hexpired]

/-- A call does to a map what it does to it as the reference. -/
theorem perform_eq (m : CacheData) (now later : Int) (c : CacheCall) :
    m.perform now later c = ReferenceMap.perform m now later c := by
  cases c with
  | get key => rw [CacheData.perform, cacheGet_eq, ReferenceMap.perform]
  | set key value ttl => rfl
  | delete keys => rw [CacheData.perform, cacheDelete_eq, ReferenceMap.perform]
  | deletePrefix pre => rfl
  | increment key ttl => exact cacheIncrement_eq m now later key ttl

/-- **A call sees no difference** between two maps that hold the same up to what has expired,
and makes none. -/
theorem perform_agree (h : reap m clock = reap m' clock) (hnow : clock ≤ now)
    (hlater : now ≤ later) (c : CacheCall) :
    (ReferenceMap.perform m now later c).1 = (ReferenceMap.perform m' now later c).1 ∧
      reap (ReferenceMap.perform m now later c).2 later =
        reap (ReferenceMap.perform m' now later c).2 later := by
  have hvisible : ReferenceMap.visible m now = ReferenceMap.visible m' now :=
    reap_eq_of_reap_eq hnow h
  have hreap : reap m later = reap m' later := reap_eq_of_reap_eq (Int.le_trans hnow hlater) h
  cases c with
  | get key =>
      simp only [ReferenceMap.perform, hvisible]
      exact ⟨trivial, hreap⟩
  | set key value ttl => exact ⟨rfl, reap_update_congr hreap key _⟩
  | delete keys =>
      have hremoved := reap_remove_congr hreap fun k => decide (k ∈ keys)
      simp only [decide_eq_true_eq] at hremoved
      exact ⟨rfl, hremoved⟩
  | deletePrefix pre => exact ⟨rfl, reap_remove_congr hreap fun k => hasPrefix k pre⟩
  | increment key ttl =>
      rw [ReferenceMap.perform, ReferenceMap.perform, hvisible]
      cases ReferenceMap.visible m' now key with
      | none => exact ⟨rfl, reap_update_congr hreap key _⟩
      | some e => exact ⟨rfl, reap_update_congr hreap key _⟩

end Call

/-! ### Runs -/

/-- The calls of a run, in order. -/
def callsOf (as : List MemoryAction) : List (Int × Int × CacheCall) :=
  as.filterMap MemoryAction.call?

/-- The relation between the actions of a run and the state they lead to: the cache and the
reference have given the same answers, they hold the same up to what has expired, and the
reading of the reaper is an old one. -/
structure MemoryAgree (as : List MemoryAction) (s : MemoryCache) : Prop where
  results : s.results = (ReferenceMap.runCalls (callsOf as)).1
  data : reap s.data s.clock = reap (ReferenceMap.runCalls (callsOf as)).2 s.clock
  reading : ∀ now, s.reading = some now → now ≤ s.clock

/-- One more call of the reference. -/
theorem runCalls_snoc (calls : List (Int × Int × CacheCall)) (now later : Int) (c : CacheCall) :
    ReferenceMap.runCalls (calls ++ [(now, later, c)]) =
      let (results, m) := ReferenceMap.runCalls calls
      let (result, m) := ReferenceMap.perform m now later c
      (results ++ [result], m) := by
  rw [ReferenceMap.runCalls, List.foldl_append]
  rfl

/-- A step of the cache is a step of the reference, if it is a call, and unseen otherwise. -/
theorem memoryAgree_step {as : List MemoryAction} {s s' : MemoryCache} {a : MemoryAction}
    (h : MemoryAgree as s) (hstep : memoryStep s a = some s') : MemoryAgree (as ++ [a]) s' := by
  cases a with
  | call now later c =>
      simp only [memoryStep, Option.ite_none_right_eq_some, Option.some.injEq] at hstep
      obtain ⟨⟨hnow, hlater⟩, rfl⟩ := hstep
      have hcalls : callsOf (as ++ [.call now later c]) = callsOf as ++ [(now, later, c)] := by
        simp [callsOf, MemoryAction.call?]
      obtain ⟨hresult, hdata⟩ := perform_agree h.data hnow hlater c
      rw [← perform_eq] at hresult hdata
      refine ⟨?_, ?_, fun r hr => ?_⟩
      · rw [hcalls, runCalls_snoc]
        simp only [h.results, hresult]
      · rw [hcalls, runCalls_snoc]
        exact hdata
      · have := h.reading r hr
        dsimp only
        omega
  | reaperReads now =>
      obtain ⟨⟨hnow, -⟩, heq⟩ := Option.ite_none_right_eq_some.mp hstep
      obtain rfl := Option.some.inj heq
      have hcalls : callsOf (as ++ [.reaperReads now]) = callsOf as := by
        simp [callsOf, MemoryAction.call?]
      refine ⟨?_, ?_, fun r hr => ?_⟩
      · rw [hcalls]
        exact h.results
      · rw [hcalls]
        exact reap_eq_of_reap_eq hnow h.data
      · exact Int.le_of_eq (Option.some.inj hr).symm
  | reaperSweeps =>
      have hcalls : callsOf (as ++ [.reaperSweeps]) = callsOf as := by
        simp [callsOf, MemoryAction.call?]
      rw [memoryStep] at hstep
      split at hstep
      case h_1 now hreading =>
        obtain rfl := Option.some.inj hstep
        refine ⟨?_, ?_, by simp⟩
        · rw [hcalls]
          exact h.results
        · rw [hcalls]
          exact (reap_reap_of_le s.data (h.reading now hreading)).trans h.data
      case h_2 => simp at hstep

/-- **The cache is a plain expiring map.** In every run of calls and passes of the reaper, the
answers are those that the reference gives to the calls. -/
theorem memoryCache_refines {start : Int} {as : List MemoryAction} {s : MemoryCache}
    (hrun : run memoryStep (.start start) as = some s) :
    s.results = (ReferenceMap.runCalls (callsOf as)).1 :=
  (trace_invariant (P := MemoryAgree) ⟨rfl, rfl, by simp [MemoryCache.start]⟩
    (fun _ _ _ _ _ h hstep => memoryAgree_step h hstep) hrun).results

/-- A counter with a lifetime of ten and a value; the reaper reads the clock at 12 and sweeps
after the counter has started anew. -/
def exampleCacheRun : List MemoryAction :=
  [.call 0 0 (.increment "c" 10), .call 1 1 (.set "v" "x" 0), .call 9 9 (.increment "c" 10),
    .reaperReads 12, .call 13 14 (.increment "c" 10), .reaperSweeps,
    .call 24 24 (.increment "c" 10), .call 25 25 (.get "c"), .call 26 26 (.get "v")]

/-- The counter counts to two, starts again, and is seen until its deadline has passed. -/
theorem memoryCache_refines_example :
    ∃ s, run memoryStep (.start 0) exampleCacheRun = some s ∧
      s.results = [.count 1, .done, .count 2, .count 1, .count 2, .found none, .found (some "x")] ∧
      (ReferenceMap.runCalls (callsOf exampleCacheRun)).1 = s.results := by
  have hrun : (run memoryStep (.start 0) exampleCacheRun).map (·.results) =
      some [.count 1, .done, .count 2, .count 1, .count 2, .found none, .found (some "x")] := by
    decide +kernel
  obtain ⟨s, hs, hresults⟩ := Option.map_eq_some_iff.mp hrun
  exact ⟨s, hs, hresults, (memoryCache_refines hs).symm⟩

end IdpForge
