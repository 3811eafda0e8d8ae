import Mathlib.Algebra.Order.Ring.Nat
import IdpForge.TransitionSystem

/-!
# The Browser's End of the Realtime Feed

`useRealtime` keeps a WebSocket open for the lifetime of a component: a socket that closes is
replaced after a delay that doubles up to thirty seconds and starts again at one second when a
socket opens. The effect's variables, the sockets it has made and the timers it has set are the
state; what the browser calls, and the end of the component, are the events. Sockets and timers
behave as the browser promises: a socket is connecting, then open, closing or closed, it gets
messages while it is open only, and it closes once.

## Main results

* `one_step`: there is one socket or one timer, never both and never two.
* `retryDelay_of_run`: the delay is determined by the closes since a socket last opened.
* `realtime_feed`: the two, and the silence after the component has gone.
-/

open TransitionSystem

namespace IdpForge

/-- `WebSocket.readyState`. -/
inductive ReadyState where
  | connecting | open | closing | closed
  deriving DecidableEq, Repr

/-- The variables of the effect; the sockets made so far, by the order they were made in; the
timers that are pending; the delays of the timers set so far and the events handed on, the
latest first. -/
structure Realtime (ε : Type) where
  ws : Option Nat
  closed : Bool
  retryDelay : Nat
  retryTimer : Option Nat
  sockets : List ReadyState
  timers : List Nat
  nextTimer : Nat
  delays : List Nat
  events : List ε

/-- What the browser calls, and the end of the component. A message comes with its text. -/
inductive RealtimeAction where
  | onopen (socket : Nat)
  | onmessage (socket : Nat) (data : String)
  | onclose (socket : Nat)
  | timeout (timer : Nat)
  | unmount
  deriving DecidableEq, Repr

section Client

variable {ε : Type}

/-- `connect`. -/
def Realtime.connect (s : Realtime ε) : Realtime ε :=
  if s.closed then s
  else { s with ws := some s.sockets.length, sockets := s.sockets ++ [.connecting] }

/-- The handler `onclose` of a socket. -/
def Realtime.handleClose (s : Realtime ε) : Realtime ε :=
  if s.closed then s
  else { s with
    retryTimer := some s.nextTimer
    timers := s.nextTimer :: s.timers
    nextTimer := s.nextTimer + 1
    delays := s.retryDelay :: s.delays
    retryDelay := min (s.retryDelay * 2) 30000 }

/-- `WebSocket.close`: what is not closed is closing. -/
def ReadyState.close : ReadyState → ReadyState
  | .closed => .closed
  | _ => .closing

/-- `if (retryTimer) clearTimeout(retryTimer)`. -/
def clearRetry (retryTimer : Option Nat) (timers : List Nat) : List Nat :=
  match retryTimer with
  | some timer => timers.erase timer
  | none => timers

/-- `ws?.close()`. -/
def closeSocket (ws : Option Nat) (sockets : List ReadyState) : List ReadyState :=
  match ws with
  | some socket => sockets.modify socket ReadyState.close
  | none => sockets

/-- The clean-up of the effect. -/
def Realtime.cleanUp (s : Realtime ε) : Realtime ε :=
  { s with
    closed := true
    timers := clearRetry s.retryTimer s.timers
    sockets := closeSocket s.ws s.sockets }

/-- One event. `parse` is `JSON.parse`, without a value where it throws. -/
def realtimeStep (parse : String → Option ε) (s : Realtime ε) : RealtimeAction → Option (Realtime ε)
  | .onopen socket =>
      if s.sockets[socket]? = some .connecting then
        some { s with sockets := s.sockets.set socket .open, retryDelay := 1000 }
      else none
  | .onmessage socket data =>
      if s.sockets[socket]? = some .open then
        match parse data with
        | some e => some { s with events := e :: s.events }
        | none => some s
      else none
  | .onclose socket =>
      match s.sockets[socket]? with
      | none | some .closed => none
      | some _ => some { s with sockets := s.sockets.set socket .closed }.handleClose
  | .timeout timer =>
      if timer ∈ s.timers then some { s with timers := s.timers.erase timer }.connect else none
  | .unmount => if s.closed then none else some s.cleanUp

/-- The effect has run: its variables are new, and it has connected. -/
def Realtime.start : Realtime ε :=
  Realtime.connect
    { ws := none, closed := false, retryDelay := 1000, retryTimer := none, sockets := []
      timers := [], nextTimer := 1, delays := [], events := [] }

/-- The sockets that are not closed. -/
def Realtime.live (s : Realtime ε) : Nat := s.sockets.countP fun st => st ≠ .closed

/-- What an event does, and when it can happen. -/
inductive RealtimeStep (parse : String → Option ε) (s : Realtime ε) :
    RealtimeAction → Realtime ε → Prop where
  | onopen {socket} (hstate : s.sockets[socket]? = some .connecting) :
      RealtimeStep parse s (.onopen socket)
        { s with sockets := s.sockets.set socket .open, retryDelay := 1000 }
  | onmessage {socket data} (hstate : s.sockets[socket]? = some .open) :
      RealtimeStep parse s (.onmessage socket data)
        { s with events := (parse data).toList ++ s.events }
  | onclose {socket st} (hstate : s.sockets[socket]? = some st) (hst : st ≠ .closed) :
      RealtimeStep parse s (.onclose socket)
        { s with sockets := s.sockets.set socket .closed }.handleClose
  | timeout {timer} (hpending : timer ∈ s.timers) :
      RealtimeStep parse s (.timeout timer) { s with timers := s.timers.erase timer }.connect
  | unmount (hclosed : s.closed = false) : RealtimeStep parse s .unmount s.cleanUp

variable {parse : String → Option ε} {s s' : Realtime ε}

/-- Every event is one of these. -/
theorem realtimeStep_sound {a : RealtimeAction} (hstep : realtimeStep parse s a = some s') :
    RealtimeStep parse s a s' := by
  cases a with
  | onopen socket =>
      rw [realtimeStep] at hstep
      split at hstep
      · next hstate =>
          obtain rfl := Option.some.inj hstep
          exact .onopen hstate
      · exact absurd hstep (by simp)
  | onmessage socket data =>
      rw [realtimeStep] at hstep
      split at hstep
      · next hstate =>
          have heq : { s with events := (parse data).toList ++ s.events } = s' := by
            cases hparse : parse data with
            | none => simpa [hparse] using hstep
            | some e => simpa [hparse] using hstep
          exact heq ▸ .onmessage hstate
      · exact absurd hstep (by simp)
  | onclose socket =>
      rw [realtimeStep] at hstep
      split at hstep
      · exact absurd hstep (by simp)
      · exact absurd hstep (by simp)
      · next st hnot hstate =>
          obtain rfl := Option.some.inj hstep
          exact .onclose hstate hnot
  | timeout timer =>
      rw [realtimeStep] at hstep
      split at hstep
      · next hpending =>
          obtain rfl := Option.some.inj hstep
          exact .timeout hpending
      · exact absurd hstep (by simp)
  | unmount =>
      rw [realtimeStep] at hstep
      split at hstep
      · exact absurd hstep (by simp)
      · next hclosed =>
          obtain rfl := Option.some.inj hstep
          exact .unmount (Bool.eq_false_iff.mpr hclosed)

/-! ### One socket or one timer -/

/-- The variable holds the latest socket, and all others are closed. -/
def Sockets (ws : Option Nat) (sockets : List ReadyState) (last : ReadyState) : Prop :=
  ∃ older, sockets = older ++ [last] ∧ (∀ st ∈ older, st = .closed) ∧ ws = some older.length

section Latest

variable {ws : Option Nat} {sockets : List ReadyState} {last : ReadyState}

/-- A socket that is not closed is the latest, and becomes what it is set to. -/
theorem Sockets.set (h : Sockets ws sockets last) {i : Nat} {st : ReadyState}
    (hi : sockets[i]? = some st) (hst : st ≠ .closed) :
    st = last ∧ ∀ st', Sockets ws (sockets.set i st') st' := by
  obtain ⟨older, rfl, hclosed, rfl⟩ := h
  rcases Nat.lt_trichotomy i older.length with hlt | rfl | hgt
  · rw [List.getElem?_append_left hlt] at hi
    exact absurd (hclosed st (List.mem_of_getElem? hi)) hst
  · rw [List.getElem?_append_right (Nat.le_refl _), Nat.sub_self] at hi
    refine ⟨(Option.some.inj hi).symm, fun st' => ⟨older, ?_, hclosed, rfl⟩⟩
    rw [List.set_append_right _ _ (Nat.le_refl _), Nat.sub_self]
    rfl
  · rw [List.getElem?_eq_none (by simp; omega)] at hi
    exact absurd hi (by simp)

/-- After the latest socket has closed, another one is the latest. -/
theorem Sockets.connect (h : Sockets ws sockets .closed) :
    Sockets (some sockets.length) (sockets ++ [.connecting]) .connecting := by
  obtain ⟨older, rfl, hclosed, rfl⟩ := h
  refine ⟨older ++ [.closed], rfl, ?_, rfl⟩
  intro st hst
  rcases List.mem_append.mp hst with hst | hst
  · exact hclosed st hst
  · exact List.mem_singleton.mp hst

/-- The latest socket is told to close. -/
theorem Sockets.close (h : Sockets ws sockets last) :
    Sockets ws (closeSocket ws sockets) last.close := by
  obtain ⟨older, rfl, hclosed, rfl⟩ := h
  refine ⟨older, ?_, hclosed, rfl⟩
  clear hclosed
  change (older ++ [last]).modify older.length ReadyState.close = _
  induction older with
  | nil => rfl
  | cons st older ih =>
      rw [List.cons_append, List.length_cons, List.modify_succ_cons, ih, List.cons_append]

/-- The number of sockets that are not closed is that of the latest. -/
theorem Sockets.countP (h : Sockets ws sockets last) :
    sockets.countP (fun st => st ≠ .closed) = if last = .closed then 0 else 1 := by
  obtain ⟨older, rfl, hclosed, -⟩ := h
  have holder : older.countP (fun st => st ≠ .closed) = 0 := by
    rw [List.countP_eq_zero]
    intro st hst
    simp [hclosed st hst]
  rw [List.countP_append, holder, List.countP_singleton]
  cases last <;> rfl

end Latest

/-- While the component is there, its latest socket is connecting or open, or it is closed and
the timer for the next one is pending. Afterwards it is closing or closed. -/
inductive OneFeed (s : Realtime ε) : Prop where
  | up (last : ReadyState) (hsockets : Sockets s.ws s.sockets last) (hclosed : s.closed = false)
      (htimers : s.timers = []) (hlast : last = .connecting ∨ last = .open)
  | waiting (timer : Nat) (hsockets : Sockets s.ws s.sockets .closed) (hclosed : s.closed = false)
      (htimers : s.timers = [timer]) (hretry : s.retryTimer = some timer)
  | gone (last : ReadyState) (hsockets : Sockets s.ws s.sockets last) (hclosed : s.closed = true)
      (htimers : s.timers = []) (hlast : last = .closing ∨ last = .closed)

/-- The effect starts with one socket. -/
theorem oneFeed_start : OneFeed (Realtime.start : Realtime ε) :=
  .up .connecting ⟨[], rfl, by simp, rfl⟩ rfl rfl (.inl rfl)

/-- A socket opens. -/
theorem OneFeed.onopen (h : OneFeed s) {socket : Nat}
    (hstate : s.sockets[socket]? = some .connecting) :
    OneFeed { s with sockets := s.sockets.set socket .open, retryDelay := 1000 } := by
  cases h with
  | up last hsockets hclosed htimers hlast =>
      exact .up .open ((hsockets.set hstate (by decide)).2 .open) hclosed htimers (.inr rfl)
  | waiting timer hsockets hclosed htimers hretry =>
      exact absurd (hsockets.set hstate (by decide)).1 (by decide)
  | gone last hsockets hclosed htimers hlast =>
      obtain rfl := (hsockets.set hstate (by decide)).1
      exact absurd hlast (by decide)

/-- A socket closes. -/
theorem OneFeed.onclose (h : OneFeed s) {socket : Nat} {st : ReadyState}
    (hstate : s.sockets[socket]? = some st) (hst : st ≠ .closed) :
    OneFeed { s with sockets := s.sockets.set socket .closed }.handleClose := by
  cases h with
  | up last hsockets hclosed htimers hlast =>
      rw [Realtime.handleClose, if_neg (Bool.eq_false_iff.mp hclosed)]
      exact .waiting s.nextTimer ((hsockets.set hstate hst).2 .closed) hclosed
        (by rw [htimers]) rfl
  | waiting timer hsockets hclosed htimers hretry =>
      exact absurd (hsockets.set hstate hst).1 hst
  | gone last hsockets hclosed htimers hlast =>
      rw [Realtime.handleClose, if_pos hclosed]
      exact .gone .closed ((hsockets.set hstate hst).2 .closed) hclosed htimers (.inr rfl)

/-- A timer fires. -/
theorem OneFeed.timeout (h : OneFeed s) {timer : Nat} (hpending : timer ∈ s.timers) :
    OneFeed { s with timers := s.timers.erase timer }.connect := by
  cases h with
  | up last hsockets hclosed htimers hlast =>
      rw [htimers] at hpending
      exact absurd hpending List.not_mem_nil
  | waiting t hsockets hclosed htimers hretry =>
      rw [htimers, List.mem_singleton] at hpending
      rw [Realtime.connect, if_neg (Bool.eq_false_iff.mp hclosed), htimers, hpending]
      exact .up .connecting hsockets.connect hclosed (by simp) (.inl rfl)
  | gone last hsockets hclosed htimers hlast =>
      rw [htimers] at hpending
      exact absurd hpending List.not_mem_nil

/-- Without a timer there is none to clear. -/
theorem clearRetry_nil (retryTimer : Option Nat) : clearRetry retryTimer [] = [] := by
  cases retryTimer with
  | none => rfl
  | some timer => rfl

/-- The component goes. -/
theorem OneFeed.cleanUp (h : OneFeed s) (hmounted : s.closed = false) : OneFeed s.cleanUp := by
  cases h with
  | up last hsockets hclosed htimers hlast =>
      refine .gone last.close hsockets.close rfl ?_ ?_
      · rw [Realtime.cleanUp, htimers]
        exact clearRetry_nil s.retryTimer
      · rcases hlast with rfl | rfl
        · exact .inl rfl
        · exact .inl rfl
  | waiting timer hsockets hclosed htimers hretry =>
      refine .gone ReadyState.closed.close hsockets.close rfl ?_ (.inr rfl)
      rw [Realtime.cleanUp, htimers, hretry]
      exact List.erase_cons_head timer []
  | gone last hsockets hclosed htimers hlast =>
      exact absurd (hclosed.symm.trans hmounted) (by decide)

/-- **One event** keeps it so. -/
theorem one_step {a : RealtimeAction} (h : OneFeed s) (hstep : realtimeStep parse s a = some s') :
    OneFeed s' := by
  cases realtimeStep_sound hstep with
  | onopen hstate => exact h.onopen hstate
  | onmessage hstate =>
      cases h with
      | up last hsockets hclosed htimers hlast => exact .up last hsockets hclosed htimers hlast
      | waiting timer hsockets hclosed htimers hretry =>
          exact .waiting timer hsockets hclosed htimers hretry
      | gone last hsockets hclosed htimers hlast => exact .gone last hsockets hclosed htimers hlast
  | onclose hstate hst => exact h.onclose hstate hst
  | timeout hpending => exact h.timeout hpending
  | unmount hclosed => exact h.cleanUp hclosed

/-- The sockets and timers of a feed. -/
theorem OneFeed.live (h : OneFeed s) :
    (s.closed = false → s.live + s.timers.length = 1) ∧
      (s.closed = true → s.live ≤ 1 ∧ s.timers = []) := by
  rw [Realtime.live]
  cases h with
  | up last hsockets hclosed htimers hlast =>
      rw [hsockets.countP, hclosed, htimers]
      rcases hlast with rfl | rfl
      · decide
      · decide
  | waiting timer hsockets hclosed htimers hretry =>
      rw [hsockets.countP, hclosed, htimers]
      exact ⟨fun _ => rfl, fun h => absurd h (by decide)⟩
  | gone last hsockets hclosed htimers hlast =>
      rw [hsockets.countP, hclosed, htimers]
      rcases hlast with rfl | rfl
      · decide
      · decide

/-! ### Delays and events -/

/-- How often sockets have closed since one last opened; the latest event is the first. -/
def streak : List RealtimeAction → Nat
  | [] => 0
  | .onopen _ :: _ => 0
  | .onclose _ :: past => streak past + 1
  | _ :: past => streak past

/-- The delays after all closes. -/
def expectedDelays : List RealtimeAction → List Nat
  | [] => []
  | .onclose _ :: past => min (1000 * 2 ^ streak past) 30000 :: expectedDelays past
  | _ :: past => expectedDelays past

/-- What the messages contain. -/
def parsedEvents (parse : String → Option ε) (as : List RealtimeAction) : List ε :=
  as.filterMap fun a =>
    match a with
    | .onmessage _ data => parse data
    | _ => none

/-- While the component is there, the delays are those that the events call for. -/
structure Paced (past : List RealtimeAction) (s : Realtime ε) : Prop where
  retryDelay : s.retryDelay = min (1000 * 2 ^ streak past) 30000
  delays : s.delays = expectedDelays past

/-- Twice a bounded delay, bounded. -/
theorem min_double (k : Nat) :
    min (min (1000 * 2 ^ k) 30000 * 2) 30000 = min (1000 * 2 ^ (k + 1)) 30000 := by
  rw [Nat.pow_succ]
  omega

/-- An event of a component that is there keeps the pace. -/
theorem paced_step {a : RealtimeAction} {past : List RealtimeAction}
    (h : s.closed = false → Paced past s) (hstep : realtimeStep parse s a = some s') :
    s'.closed = false → Paced (a :: past) s' := by
  intro hclosed
  cases realtimeStep_sound hstep with
  | onopen hstate => exact ⟨rfl, (h hclosed).delays⟩
  | onmessage hstate => exact ⟨(h hclosed).retryDelay, (h hclosed).delays⟩
  | onclose hstate hst =>
      rw [Realtime.handleClose] at hclosed ⊢
      split at hclosed
      · next hgone => exact absurd (hgone.symm.trans hclosed) (by decide)
      · next hopen =>
          rw [if_neg hopen]
          have hpaced := h hclosed
          refine ⟨?_, ?_⟩
          · change min (s.retryDelay * 2) 30000 = _
            rw [hpaced.retryDelay, min_double]
            rfl
          · change s.retryDelay :: s.delays = _
            rw [hpaced.retryDelay, hpaced.delays]
            rfl
  | timeout hpending =>
      rw [Realtime.connect] at hclosed ⊢
      split at hclosed
      · next hgone => exact absurd (hgone.symm.trans hclosed) (by decide)
      · next hopen =>
          rw [if_neg hopen]
          exact ⟨(h hclosed).retryDelay, (h hclosed).delays⟩
  | unmount hmounted =>
      have hgone : s.cleanUp.closed = true := rfl
      exact absurd (hgone.symm.trans hclosed) (by decide)

/-- The events handed on are the messages that can be parsed. -/
theorem events_step {a : RealtimeAction} (hstep : realtimeStep parse s a = some s') :
    s'.events = parsedEvents parse [a] ++ s.events := by
  cases realtimeStep_sound hstep with
  | onopen hstate => rfl
  | @onmessage socket data hstate =>
      change (parse data).toList ++ s.events = _
      cases hparse : parse data with
      | none => simp [parsedEvents, hparse]
      | some e => simp [parsedEvents, hparse]
  | onclose hstate hst =>
      rw [Realtime.handleClose]
      split <;> rfl
  | timeout hpending =>
      rw [Realtime.connect]
      split <;> rfl
  | unmount hmounted => rfl

/-- Once the component has gone, the only event left is the close of its socket. -/
theorem gone_step {a : RealtimeAction} (h : OneFeed s) (hgone : s.closed = true)
    (hstep : realtimeStep parse s a = some s') :
    s'.closed = true ∧ s'.live + 1 = s.live ∧ s'.events = s.events ∧
      s'.sockets.length = s.sockets.length := by
  cases h with
  | up last hsockets hclosed htimers hlast => exact absurd (hclosed.symm.trans hgone) (by decide)
  | waiting timer hsockets hclosed htimers hretry =>
      exact absurd (hclosed.symm.trans hgone) (by decide)
  | gone last hsockets hclosed htimers hlast =>
      cases realtimeStep_sound hstep with
      | onopen hstate =>
          obtain rfl := (hsockets.set hstate (by decide)).1
          exact absurd hlast (by decide)
      | onmessage hstate =>
          obtain rfl := (hsockets.set hstate (by decide)).1
          exact absurd hlast (by decide)
      | onclose hstate hst =>
          obtain ⟨rfl, hset⟩ := hsockets.set hstate hst
          rw [Realtime.handleClose, if_pos hclosed, Realtime.live, Realtime.live,
            (hset .closed).countP, hsockets.countP, if_neg hst]
          exact ⟨hclosed, rfl, rfl, List.length_set ..⟩
      | timeout hpending =>
          rw [htimers] at hpending
          exact absurd hpending List.not_mem_nil
      | unmount hmounted => exact absurd (hmounted.symm.trans hgone) (by decide)

/-- So a run from there has at most one event. -/
theorem gone_run {as : List RealtimeAction} (h : OneFeed s) (hgone : s.closed = true)
    (hrun : run (realtimeStep parse) s as = some s') :
    as.length + s'.live = s.live ∧ s'.events = s.events ∧
      s'.sockets.length = s.sockets.length := by
  induction as generalizing s with
  | nil =>
      obtain rfl := Option.some.inj hrun
      exact ⟨Nat.zero_add _, rfl, rfl⟩
  | cons a as ih =>
      obtain ⟨t, ht, hrest⟩ := (run_cons_eq_some _).mp hrun
      obtain ⟨hclosed, hlive, hevents, hsockets⟩ := gone_step h hgone ht
      obtain ⟨hlength, hevents', hsockets'⟩ := ih (one_step h ht) hclosed hrest
      refine ⟨?_, hevents'.trans hevents, hsockets'.trans hsockets⟩
      rw [List.length_cons]
      omega

end Client

/-- **The realtime feed.** In every run of the effect, while the component is there it has one
socket or one timer for the next one, and the delays of its timers double from one second to
half a minute, from the start again when a socket has opened. The events it hands on are the
messages that can be parsed, in their order. Once the component has gone, no timer is pending,
and nothing happens but that a socket closes which was not closed yet. -/
theorem realtime_feed {ε : Type} (parse : String → Option ε) (as : List RealtimeAction)
    (s : Realtime ε) (hrun : run (realtimeStep parse) Realtime.start as = some s) :
    (s.closed = false →
        s.live + s.timers.length = 1 ∧ s.delays = expectedDelays as.reverse) ∧
      s.events = parsedEvents parse as.reverse ∧
      (s.closed = true → s.timers = [] ∧
        ∀ as' s', run (realtimeStep parse) s as' = some s' →
          as'.length ≤ 1 ∧ s'.events = s.events ∧ s'.sockets.length = s.sockets.length) := by
  have hfeed : OneFeed s := run_invariant (fun _ _ _ h hs => one_step h hs) oneFeed_start hrun
  have hpaced : s.closed = false → Paced as.reverse s := by
    refine trace_invariant (P := fun as s => s.closed = false → Paced as.reverse s)
      (fun _ => ⟨rfl, rfl⟩) (fun as t a t' _ h hs => ?_) hrun
    rw [List.reverse_append]
    exact paced_step h hs
  have hevents : s.events = parsedEvents parse as.reverse := by
    refine trace_invariant (P := fun as s => s.events = parsedEvents parse as.reverse)
      rfl (fun as t a t' _ h hs => ?_) hrun
    rw [events_step hs, h, List.reverse_append, parsedEvents, parsedEvents, parsedEvents,
      List.filterMap_append]
    rfl
  obtain ⟨hmounted, hgone⟩ := hfeed.live
  refine ⟨fun h => ⟨hmounted h, (hpaced h).delays⟩, hevents, fun h => ⟨(hgone h).2, ?_⟩⟩
  intro as' s' hrun'
  obtain ⟨hlength, hsame, hsockets⟩ := gone_run hfeed h hrun'
  have hlive := (hgone h).1
  exact ⟨by omega, hsame, hsockets⟩

/-- A socket that fails, one that opens and gets two messages, and the end. -/
def exampleClientFeed : List RealtimeAction :=
  [.onclose 0, .timeout 1, .onclose 1, .timeout 2, .onopen 2, .onmessage 2 "a", .onmessage 2 "",
    .onclose 2, .unmount]

/-- The delays grow and start again, and what cannot be parsed is not handed on. -/
theorem realtime_feed_example :
    ∃ s : Realtime String,
      run (realtimeStep fun data => if data = "" then none else some data) Realtime.start
          exampleClientFeed = some s ∧
        s.delays = [1000, 2000, 1000] ∧ s.events = ["a"] ∧
        ∀ as' s', run (realtimeStep fun data => if data = "" then none else some data) s as' =
          some s' → as'.length ≤ 1 ∧ s'.events = s.events ∧
            s'.sockets.length = s.sockets.length := by
  refine ⟨_, rfl, by decide, by decide, ?_⟩
  exact ((realtime_feed _ exampleClientFeed _ rfl).2.2 rfl).2

end IdpForge
