import IdpForge.Base64
import IdpForge.JsonText
import IdpForge.Router
import IdpForge.PartialMap
import IdpForge.TransitionSystem
import Mathlib.Data.List.Nodup

/-!
# The Realtime Hub

Each instance keeps its open connections, with the flag that says whether the session might
read the audit log when it connected. A broadcast writes to the connections of its own instance
at once, and then publishes an envelope on a channel, from which every instance relays it to its
own connections; the originating one knows its own envelopes by their origin and drops them.

Instances go by their ids. The connections of an instance stay as they are during a local
delivery, by the lock, so it is one step; a broadcast, its publication and each delivery of the
channel are steps of their own, in any order, and the channel may lose messages. A connection
receives what is written to it.

## Main results

* `unmarshal_marshal`: an envelope survives its encoding.
* `HubInv.step`: the invariant of the connections, the envelopes and the messages received.
* `Served.step`: every broadcast has reached the connections of its own instance.
* `feed_neither_leaks_nor_duplicates`: who receives what, and how often.
-/

open PartialMap TransitionSystem

namespace IdpForge

/-! ### Envelopes -/

/-- `wsEnvelope`. -/
structure WsEnvelope where
  originID : String
  auditOnly : Bool
  payload : List UInt8
  deriving DecidableEq, Repr

/-- `json.Marshal` of an envelope. -/
def WsEnvelope.marshal (env : WsEnvelope) : List Char :=
  JsonText.writeObject
    [("origin_id", .str env.originID), ("audit_only", .bool env.auditOnly),
      ("payload", .str (String.ofList (Base64.encode env.payload)))]

/-- One member of an object sets the field of its name, if the value fits. -/
def WsEnvelope.setField (env : WsEnvelope) (m : String × JsonText.Value) : Option WsEnvelope :=
  match m with
  | ("origin_id", .str s) => some { env with originID := s }
  | ("origin_id", .bool _) => none
  | ("audit_only", .bool b) => some { env with auditOnly := b }
  | ("audit_only", .str _) => none
  | ("payload", .str s) =>
      (Base64.decode s.toList).map fun bytes => { env with payload := bytes }
  | ("payload", .bool _) => none
  | _ => some env

/-- `json.Unmarshal` into an empty envelope. -/
def WsEnvelope.unmarshal (raw : List Char) : Option WsEnvelope :=
  (JsonText.readObject raw).bind fun members =>
    members.foldlM WsEnvelope.setField ⟨"", false, []⟩

/-- **An envelope survives its encoding.** -/
theorem unmarshal_marshal (env : WsEnvelope) : WsEnvelope.unmarshal env.marshal = some env := by
  rw [WsEnvelope.unmarshal, WsEnvelope.marshal, JsonText.readObject_writeObject]
  simp [WsEnvelope.setField, Base64.decode_encode]

/-! ### The hubs -/

/-- What is broadcast, with the JSON text of the event: `onAuditLog` and `onAnnouncement`. -/
inductive RealtimeEvent where
  | auditLog (payload : List UInt8)
  | announcement (payload : List UInt8)
  deriving DecidableEq, Repr

/-- Only connections that may read the audit log receive the event. -/
def RealtimeEvent.auditOnly : RealtimeEvent → Bool
  | .auditLog _ => true
  | .announcement _ => false

/-- The text of the event. -/
def RealtimeEvent.payload : RealtimeEvent → List UInt8
  | .auditLog payload => payload
  | .announcement payload => payload

/-- A broadcast of the past: its instance, its event, and the connections of the instance at
that time, with their flags. -/
structure Broadcast where
  origin : String
  event : RealtimeEvent
  present : List (Nat × Bool)
  deriving DecidableEq, Repr

/-- A message written to a connection, with the broadcast that it stems from. -/
structure Delivery where
  conn : Nat
  broadcast : Nat
  payload : List UInt8
  deriving DecidableEq, Repr

/-- The open connections of each instance, all connections so far with their instance and
flag, the broadcasts, the envelopes still to be published and those on the channel, the
deliveries of the channel to an instance, and the messages received. -/
structure HubState where
  clients : String → List (Nat × Bool)
  connections : Nat → Option (String × Bool)
  broadcasts : Nat → Option Broadcast
  publishing : Nat → Option (List Char)
  published : Nat → Option (List Char)
  delivered : List (Nat × String)
  received : List Delivery

/-- A connection opens or closes, an event is broadcast, its envelope reaches the channel or is
lost, or the channel delivers it to an instance. -/
inductive HubAction where
  | handleWS (i : String) (c : Nat) (locals : Locals)
  | remove (i : String) (c : Nat)
  | broadcast (i : String) (b : Nat) (event : RealtimeEvent)
  | publish (b : Nat) (arrives : Bool)
  | deliver (b : Nat) (i : String)

namespace HubState

variable (w : HubState)

/-- `deliverLocal`. -/
def deliverLocal (i : String) (b : Nat) (msg : List UInt8) (auditOnly : Bool) : HubState :=
  { w with
    received := w.received ++
      ((w.clients i).filter fun p => !(auditOnly && !p.2)).map fun p => ⟨p.1, b, msg⟩ }

/-- `handleWS` as it begins: the connection is added with the flag of `wsAuthContext`. -/
def handleWS (i : String) (c : Nat) (locals : Locals) : Option HubState :=
  if (w.connections c).isSome then none
  else
    some { w with
      clients := Function.update w.clients i (w.clients i ++ [(c, locals.canSeeAudit)])
      connections := Function.update w.connections c (some (i, locals.canSeeAudit)) }

/-- `remove`. -/
def remove (i : String) (c : Nat) : HubState :=
  { w with
    clients := Function.update w.clients i ((w.clients i).filter fun p => p.1 ≠ c) }

/-- `broadcast` up to its publication, on an instance with or without Redis. -/
def broadcast (clustered : String → Bool) (i : String) (b : Nat) (event : RealtimeEvent) :
    Option HubState :=
  if (w.broadcasts b).isSome then none
  else
    let env : WsEnvelope := ⟨i, event.auditOnly, event.payload⟩
    some { w.deliverLocal i b event.payload event.auditOnly with
      broadcasts := Function.update w.broadcasts b (some ⟨i, event, w.clients i⟩)
      publishing :=
        if clustered i then Function.update w.publishing b (some env.marshal) else w.publishing }

/-- `Publish`. -/
def publish (b : Nat) (arrives : Bool) : Option HubState :=
  (w.publishing b).map fun raw =>
    { w with
      publishing := Function.update w.publishing b none
      published := if arrives then Function.update w.published b (some raw) else w.published }

/-- The body of the loop of `subscribeCluster`. -/
def relay (i : String) (b : Nat) (raw : List Char) : HubState :=
  match WsEnvelope.unmarshal raw with
  | none => w
  | some env => if env.originID = i then w else w.deliverLocal i b env.payload env.auditOnly

/-- The channel delivers a message to a subscriber, once at most. -/
def deliver (clustered : String → Bool) (b : Nat) (i : String) : Option HubState :=
  if clustered i ∧ (b, i) ∉ w.delivered then
    (w.published b).map fun raw =>
      { w with delivered := (b, i) :: w.delivered }.relay i b raw
  else none

/-- The hubs before the first connection. -/
def start : HubState where
  clients := fun _ => []
  connections := fun _ => none
  broadcasts := fun _ => none
  publishing := fun _ => none
  published := fun _ => none
  delivered := []
  received := []

/-- How often a connection has received a broadcast. -/
def copies (c b : Nat) : Nat :=
  w.received.countP fun d => d.conn = c && d.broadcast = b

end HubState

/-- The step function. -/
def hubStep (clustered : String → Bool) (w : HubState) : HubAction → Option HubState
  | .handleWS i c locals => w.handleWS i c locals
  | .remove i c => some (w.remove i c)
  | .broadcast i b event => w.broadcast clustered i b event
  | .publish b arrives => w.publish b arrives
  | .deliver b i => w.deliver clustered b i

/-! ### Local deliveries -/

/-- The connection and the broadcast. -/
def Delivery.key (d : Delivery) : Nat × Nat :=
  (d.conn, d.broadcast)

/-- The copies are counted by the keys of the messages. -/
theorem copies_eq_count (w : HubState) (c b : Nat) :
    w.copies c b = (w.received.map Delivery.key).count (c, b) := by
  rw [HubState.copies, List.count, List.countP_map]
  refine List.countP_congr fun d _ => ?_
  simp [Delivery.key]

/-- What a local delivery adds. -/
theorem mem_deliverLocal {w : HubState} {i : String} {b : Nat} {msg : List UInt8}
    {auditOnly : Bool} {d : Delivery} :
    d ∈ (w.deliverLocal i b msg auditOnly).received ↔
      d ∈ w.received ∨
        ∃ c flag, (c, flag) ∈ w.clients i ∧ (auditOnly = true → flag = true) ∧
          d = ⟨c, b, msg⟩ := by
  simp only [HubState.deliverLocal, List.mem_append, List.mem_map, List.mem_filter, Prod.exists,
    and_assoc]
  refine or_congr Iff.rfl (exists₂_congr fun c flag => and_congr Iff.rfl ?_)
  refine and_congr ?_ eq_comm
  cases auditOnly <;> cases flag <;> simp

/-! ### The invariant -/

/-- A text is the envelope of a broadcast. -/
def HubState.Enveloped (w : HubState) (b : Nat) (raw : List Char) : Prop :=
  ∃ bc, w.broadcasts b = some bc ∧
    raw = WsEnvelope.marshal ⟨bc.origin, bc.event.auditOnly, bc.event.payload⟩

/-- A message is that of its broadcast, its connection may see it, and it came by one of the two
ways: from the instance itself, or over the channel. -/
def HubState.Sound (w : HubState) (d : Delivery) : Prop :=
  ∃ bc i flag, w.broadcasts d.broadcast = some bc ∧ w.connections d.conn = some (i, flag) ∧
    d.payload = bc.event.payload ∧ (bc.event.auditOnly = true → flag = true) ∧
      (i = bc.origin ∨ (d.broadcast, i) ∈ w.delivered)

/-- The invariant. -/
structure HubInv (w : HubState) : Prop where
  clients : ∀ i c flag, (c, flag) ∈ w.clients i → w.connections c = some (i, flag)
  nodup : ∀ i, ((w.clients i).map Prod.fst).Nodup
  publishing : ∀ b raw, w.publishing b = some raw → w.Enveloped b raw
  published : ∀ b raw, w.published b = some raw → w.Enveloped b raw
  present : ∀ b bc, w.broadcasts b = some bc → ∀ c flag, (c, flag) ∈ bc.present →
    w.connections c = some (bc.origin, flag)
  received : ∀ d ∈ w.received, w.Sound d
  once : (w.received.map Delivery.key).Nodup

section Steps

variable {w : HubState}

/-- The hubs start in the invariant. -/
theorem HubInv.start : HubInv HubState.start where
  clients := by simp [HubState.start]
  nodup := by simp [HubState.start]
  publishing := by simp [HubState.start]
  published := by simp [HubState.start]
  present := by simp [HubState.start]
  received := by simp [HubState.start]
  once := by simp [HubState.start]

/-- A local delivery keeps the invariant, if none of the instance's connections has received
the broadcast. -/
theorem HubInv.deliverLocal (hinv : HubInv w) {i : String} {b : Nat} {bc : Broadcast}
    (hbc : w.broadcasts b = some bc) (hroute : i = bc.origin ∨ (b, i) ∈ w.delivered)
    (hnew : ∀ d ∈ w.received, d.broadcast = b → ∀ flag, w.connections d.conn ≠ some (i, flag)) :
    HubInv (w.deliverLocal i b bc.event.payload bc.event.auditOnly) where
  clients := hinv.clients
  nodup := hinv.nodup
  publishing := hinv.publishing
  published := hinv.published
  present := hinv.present
  received := by
    intro d hd
    rcases mem_deliverLocal.mp hd with hold | ⟨c, flag, hc, hflag, rfl⟩
    · exact hinv.received d hold
    · exact ⟨bc, i, flag, hbc, hinv.clients i c flag hc, rfl, hflag, hroute⟩
  once := by
    rw [HubState.deliverLocal, List.map_append, List.nodup_append]
    refine ⟨hinv.once, ?_, ?_⟩
    · -- the new keys are those of different connections
      rw [List.map_map]
      refine List.Nodup.of_map Prod.fst ?_
      rw [List.map_map]
      exact (hinv.nodup i).sublist (List.filter_sublist.map Prod.fst)
    · rintro k hk k' hk' rfl
      obtain ⟨d, hd, rfl⟩ := List.mem_map.mp hk
      obtain ⟨d', hd', hkey⟩ := List.mem_map.mp hk'
      obtain ⟨p, hp, rfl⟩ := List.mem_map.mp hd'
      rw [Delivery.key, Delivery.key, Prod.mk.injEq] at hkey
      obtain ⟨hconn, hb⟩ := hkey
      refine hnew d hd hb.symm p.2 ?_
      rw [← hconn]
      exact hinv.clients i p.1 p.2 (List.mem_filter.mp hp).1

/-- A message stays sound while broadcasts, connections and deliveries are added. -/
theorem HubState.Sound.mono {w' : HubState} {d : Delivery} (h : w.Sound d)
    (hb : ∀ b bc, w.broadcasts b = some bc → w'.broadcasts b = some bc)
    (hc : ∀ c p, w.connections c = some p → w'.connections c = some p)
    (hd : ∀ p ∈ w.delivered, p ∈ w'.delivered) : w'.Sound d := by
  obtain ⟨bc, i, flag, hbc, hconn, hpayload, hflag, hroute⟩ := h
  exact ⟨bc, i, flag, hb _ _ hbc, hc _ _ hconn, hpayload, hflag, hroute.imp_right (hd _)⟩

/-- An envelope stays one while broadcasts are added. -/
theorem HubState.Enveloped.mono {w' : HubState} {b : Nat} {raw : List Char}
    (h : w.Enveloped b raw)
    (hb : ∀ b bc, w.broadcasts b = some bc → w'.broadcasts b = some bc) :
    w'.Enveloped b raw := by
  obtain ⟨bc, hbc, hraw⟩ := h
  exact ⟨bc, hb _ _ hbc, hraw⟩

/-- The connections of one instance change, and no connection is forgotten. -/
theorem HubInv.setClients (hinv : HubInv w) {i : String} {cs : List (Nat × Bool)}
    {connections : Nat → Option (String × Bool)}
    (hkeep : ∀ c p, w.connections c = some p → connections c = some p)
    (hcs : ∀ c flag, (c, flag) ∈ cs → connections c = some (i, flag))
    (hnodup : (cs.map Prod.fst).Nodup) :
    HubInv { w with clients := Function.update w.clients i cs, connections := connections } where
  clients := by
    intro j c flag hc
    replace hc : (c, flag) ∈ Function.update w.clients i cs j := hc
    by_cases hj : j = i
    · subst hj
      rw [Function.update_self] at hc
      exact hcs c flag hc
    · rw [Function.update_of_ne hj] at hc
      exact hkeep c _ (hinv.clients j c flag hc)
  nodup := by
    intro j
    change ((Function.update w.clients i cs j).map Prod.fst).Nodup
    by_cases hj : j = i
    · subst hj
      rwa [Function.update_self]
    · rw [Function.update_of_ne hj]
      exact hinv.nodup j
  publishing := hinv.publishing
  published := hinv.published
  present := fun b bc hbc c flag hc => hkeep c _ (hinv.present b bc hbc c flag hc)
  received := fun d hd => (hinv.received d hd).mono (fun _ _ h => h) hkeep fun _ h => h
  once := hinv.once

/-- A new connection. -/
theorem HubInv.handleWS (hinv : HubInv w) {w' : HubState} {i : String} {c : Nat}
    {locals : Locals} (hstep : w.handleWS i c locals = some w') : HubInv w' := by
  rw [HubState.handleWS, Option.ite_none_left_eq_some, Option.not_isSome_iff_eq_none,
    Option.some.injEq] at hstep
  obtain ⟨hfresh, rfl⟩ := hstep
  refine hinv.setClients (fun c' p => update_of_new hfresh) ?_ ?_
  · intro c' flag hc'
    rw [List.mem_append, List.mem_singleton, Prod.mk.injEq] at hc'
    rcases hc' with hold | ⟨rfl, rfl⟩
    · exact update_of_new hfresh (hinv.clients i c' flag hold)
    · exact Function.update_self ..
  · rw [List.map_append, List.map_singleton, List.nodup_append_comm, List.singleton_append,
      List.nodup_cons]
    refine ⟨fun hc => ?_, hinv.nodup i⟩
    obtain ⟨⟨c', flag⟩, hc', rfl⟩ := List.mem_map.mp hc
    have hconn := hinv.clients i c' flag hc'
    rw [hfresh] at hconn
    cases hconn

/-- A connection less. -/
theorem HubInv.remove (hinv : HubInv w) (i : String) (c : Nat) : HubInv (w.remove i c) := by
  refine hinv.setClients (fun _ _ h => h) (fun c' flag hc' => ?_) ?_
  · exact hinv.clients i c' flag (List.mem_filter.mp hc').1
  · exact (hinv.nodup i).sublist (List.filter_sublist.map Prod.fst)

/-- A broadcast. -/
theorem HubInv.broadcast (hinv : HubInv w) {w' : HubState} {clustered : String → Bool}
    {i : String} {b : Nat} {event : RealtimeEvent}
    (hstep : w.broadcast clustered i b event = some w') : HubInv w' := by
  rw [HubState.broadcast, Option.ite_none_left_eq_some, Option.not_isSome_iff_eq_none,
    Option.some.injEq] at hstep
  obtain ⟨hfresh, hw'⟩ := hstep
  -- the broadcast is on record before it is delivered
  let w₁ : HubState := { w with
    broadcasts := Function.update w.broadcasts b (some ⟨i, event, w.clients i⟩)
    publishing :=
      if clustered i then
        Function.update w.publishing b
          (some (WsEnvelope.marshal ⟨i, event.auditOnly, event.payload⟩))
      else w.publishing }
  have hkeep : ∀ b' bc, w.broadcasts b' = some bc → w₁.broadcasts b' = some bc :=
    fun b' bc => update_of_new hfresh
  have hself : w₁.broadcasts b = some ⟨i, event, w.clients i⟩ := Function.update_self ..
  have hinv₁ : HubInv w₁ := by
    refine ⟨hinv.clients, hinv.nodup, ?_, ?_, ?_, ?_, hinv.once⟩
    · have hold : ∀ b' raw, w.publishing b' = some raw → w₁.Enveloped b' raw :=
        fun b' raw hraw => (hinv.publishing b' raw hraw).mono hkeep
      dsimp only [w₁]
      split_ifs
      · exact forall_update ⟨_, hself, rfl⟩ hold
      · exact hold
    · exact fun b' raw hraw => (hinv.published b' raw hraw).mono hkeep
    · exact forall_update (fun c flag hc => hinv.clients i c flag hc) hinv.present
    · exact fun d hd => (hinv.received d hd).mono hkeep (fun _ _ h => h) fun _ h => h
  rw [← hw']
  refine hinv₁.deliverLocal hself (.inl rfl) ?_
  intro d hd hdb
  obtain ⟨bc, -, -, hbc, -⟩ := hinv.received d hd
  rw [hdb, hfresh] at hbc
  cases hbc

/-- A publication. -/
theorem HubInv.publish (hinv : HubInv w) {w' : HubState} {b : Nat} {arrives : Bool}
    (hstep : w.publish b arrives = some w') : HubInv w' := by
  obtain ⟨raw, hraw, rfl⟩ := Option.map_eq_some_iff.mp hstep
  refine ⟨hinv.clients, hinv.nodup, ?_, ?_, hinv.present, hinv.received, hinv.once⟩
  · exact fun b' raw' hraw' => hinv.publishing b' raw' (of_update_none hraw').2
  · dsimp only
    split_ifs
    · exact forall_update (hinv.publishing b raw hraw) hinv.published
    · exact hinv.published

/-- A delivery of the channel, dropped by the instance that it comes from. -/
theorem HubInv.deliver (hinv : HubInv w) {w' : HubState} {clustered : String → Bool} {b : Nat}
    {i : String} (hstep : w.deliver clustered b i = some w') : HubInv w' := by
  rw [HubState.deliver, Option.ite_none_right_eq_some] at hstep
  obtain ⟨⟨-, hnot⟩, hstep⟩ := hstep
  obtain ⟨raw, hraw, rfl⟩ := Option.map_eq_some_iff.mp hstep
  obtain ⟨bc, hbc, rfl⟩ := hinv.published b raw hraw
  have hinv₁ : HubInv { w with delivered := (b, i) :: w.delivered } :=
    ⟨hinv.clients, hinv.nodup, hinv.publishing, hinv.published, hinv.present,
      fun d hd => (hinv.received d hd).mono (fun _ _ h => h) (fun _ _ h => h)
        fun _ => List.mem_cons_of_mem _,
      hinv.once⟩
  rw [HubState.relay, unmarshal_marshal]
  dsimp only
  split_ifs with horigin
  · exact hinv₁
  refine hinv₁.deliverLocal hbc (.inr List.mem_cons_self) ?_
  intro d hd hdb flag hconn
  obtain ⟨bc', j, flag', hbc', hconn', -, -, hroute⟩ := hinv.received d hd
  rw [hdb, hbc, Option.some.injEq] at hbc'
  have hj : j = i := by
    rw [hconn', Option.some.injEq, Prod.mk.injEq] at hconn
    exact hconn.1
  subst hbc' hj
  rcases hroute with hlocal | hremote
  · exact horigin hlocal.symm
  · exact hnot (hdb ▸ hremote)

/-- **The invariant is kept.** -/
theorem HubInv.step {clustered : String → Bool} (w : HubState) (a : HubAction) (w' : HubState)
    (hinv : HubInv w) (hstep : hubStep clustered w a = some w') : HubInv w' := by
  cases a with
  | handleWS i c locals => exact hinv.handleWS hstep
  | remove i c => exact Option.some.inj hstep ▸ hinv.remove i c
  | broadcast i b event => exact hinv.broadcast hstep
  | publish b arrives => exact hinv.publish hstep
  | deliver b i => exact hinv.deliver hstep

/-- Every broadcast has reached the connections of its own instance that may see it. -/
def Served (w : HubState) : Prop :=
  ∀ b bc, w.broadcasts b = some bc → ∀ c flag, (c, flag) ∈ bc.present →
    (bc.event.auditOnly = true → flag = true) → (c, b) ∈ w.received.map Delivery.key

/-- A broadcast goes on record and to the connections of its instance; other steps make none,
and take nothing back. -/
theorem hubStep_feed {w' : HubState} {clustered : String → Bool} {a : HubAction}
    (hstep : hubStep clustered w a = some w') :
    (w'.broadcasts = w.broadcasts ∧ w.received <+: w'.received) ∨
      ∃ i b event,
        w'.broadcasts = Function.update w.broadcasts b (some ⟨i, event, w.clients i⟩) ∧
          w'.received = (w.deliverLocal i b event.payload event.auditOnly).received := by
  cases a with
  | handleWS i c locals =>
      rw [hubStep, HubState.handleWS, Option.ite_none_left_eq_some, Option.some.injEq] at hstep
      obtain ⟨-, rfl⟩ := hstep
      exact .inl ⟨rfl, List.prefix_refl _⟩
  | remove i c =>
      rw [← Option.some.inj hstep]
      exact .inl ⟨rfl, List.prefix_refl _⟩
  | broadcast i b event =>
      rw [hubStep, HubState.broadcast, Option.ite_none_left_eq_some, Option.some.injEq] at hstep
      obtain ⟨-, rfl⟩ := hstep
      exact .inr ⟨i, b, event, rfl, rfl⟩
  | publish b arrives =>
      obtain ⟨raw, -, rfl⟩ := Option.map_eq_some_iff.mp hstep
      exact .inl ⟨rfl, List.prefix_refl _⟩
  | deliver b i =>
      rw [hubStep, HubState.deliver, Option.ite_none_right_eq_some] at hstep
      obtain ⟨raw, -, rfl⟩ := Option.map_eq_some_iff.mp hstep.2
      refine .inl ?_
      rw [HubState.relay]
      split
      · exact ⟨rfl, List.prefix_refl _⟩
      · split_ifs
        · exact ⟨rfl, List.prefix_refl _⟩
        · exact ⟨rfl, List.prefix_append _ _⟩

/-- **Every broadcast reaches the connections of its own instance.** -/
theorem Served.step {clustered : String → Bool} (w : HubState) (a : HubAction) (w' : HubState)
    (h : Served w) (hstep : hubStep clustered w a = some w') : Served w' := by
  rcases hubStep_feed hstep with ⟨hsame, hgrown⟩ | ⟨i, b, event, hbroadcasts, hreceived⟩
  · intro b bc hbc c flag hc hflag
    rw [hsame] at hbc
    exact (hgrown.map Delivery.key).subset (h b bc hbc c flag hc hflag)
  · intro b' bc hbc c flag hc hflag
    rw [hbroadcasts, update_eq_some_iff] at hbc
    rw [hreceived, List.mem_map]
    rcases hbc with ⟨rfl, hbc⟩ | ⟨-, hold⟩
    · obtain rfl := Option.some.inj hbc
      exact ⟨_, mem_deliverLocal.mpr (.inr ⟨c, flag, hc, hflag, rfl⟩), rfl⟩
    · obtain ⟨d, hd, hkey⟩ := List.mem_map.mp (h b' bc hold c flag hc hflag)
      exact ⟨d, mem_deliverLocal.mpr (.inl hd), hkey⟩

end Steps

/-! ### Every run -/

/-- What the feed promises: a connection receives what was broadcast, an audit event only with
the flag, no broadcast twice, and those of its own instance that it may see exactly once. -/
structure FeedKept (w : HubState) : Prop where
  noLeak : ∀ d ∈ w.received, ∃ bc i flag,
    w.broadcasts d.broadcast = some bc ∧ w.connections d.conn = some (i, flag) ∧
      d.payload = bc.event.payload ∧ (bc.event.auditOnly = true → flag = true)
  atMostOnce : ∀ c b, w.copies c b ≤ 1
  exactlyOnce : ∀ b bc, w.broadcasts b = some bc → ∀ c flag, (c, flag) ∈ bc.present →
    w.connections c = some (bc.origin, flag) ∧
      ((bc.event.auditOnly = true → flag = true) → w.copies c b = 1)

/-- The invariant gives what the feed promises. -/
theorem HubInv.feedKept {w : HubState} (hinv : HubInv w) (hserved : Served w) : FeedKept w where
  noLeak := by
    intro d hd
    obtain ⟨bc, i, flag, hbc, hconn, hpayload, hflag, -⟩ := hinv.received d hd
    exact ⟨bc, i, flag, hbc, hconn, hpayload, hflag⟩
  atMostOnce := by
    intro c b
    rw [copies_eq_count]
    exact List.nodup_iff_count_le_one.mp hinv.once (c, b)
  exactlyOnce := by
    intro b bc hbc c flag hc
    refine ⟨hinv.present b bc hbc c flag hc, fun hflag => ?_⟩
    rw [copies_eq_count]
    exact List.count_eq_one_of_mem hinv.once (hserved b bc hbc c flag hc hflag)

/-- **The feed neither leaks nor duplicates**, along every run. -/
theorem feed_neither_leaks_nor_duplicates {clustered : String → Bool} {w : HubState}
    {as : List HubAction} (hrun : run (hubStep clustered) HubState.start as = some w) :
    FeedKept w := by
  have hinv := run_invariant HubInv.step HubInv.start hrun
  have hserved := run_invariant Served.step (by simp [Served, HubState.start]) hrun
  exact hinv.feedKept hserved

/-- Two instances with two connections each, of which one may read the audit log. The first
instance broadcasts an audit event and an announcement, and the channel brings both to both. -/
def exampleFeed : List HubAction :=
  [.handleWS "a" 0 { canSeeAudit := true }, .handleWS "a" 1 {},
    .handleWS "b" 2 { canSeeAudit := true }, .handleWS "b" 3 {},
    .broadcast "a" 0 (.auditLog [0x7b]), .publish 0 true, .broadcast "a" 1 (.announcement [0x7d]),
    .deliver 0 "b", .publish 1 true, .deliver 1 "a", .deliver 0 "a", .deliver 1 "b"]

/-- The audit event reaches one connection of each instance, the announcement all four. -/
theorem feed_neither_leaks_nor_duplicates_example :
    ∃ w, run (hubStep fun _ => true) HubState.start exampleFeed = some w ∧ FeedKept w ∧
      w.received = [⟨0, 0, [0x7b]⟩, ⟨0, 1, [0x7d]⟩, ⟨1, 1, [0x7d]⟩, ⟨2, 0, [0x7b]⟩,
        ⟨2, 1, [0x7d]⟩, ⟨3, 1, [0x7d]⟩] := by
  have hreceived : (run (hubStep fun _ => true) HubState.start exampleFeed).map
      HubState.received = some [⟨0, 0, [0x7b]⟩, ⟨0, 1, [0x7d]⟩, ⟨1, 1, [0x7d]⟩, ⟨2, 0, [0x7b]⟩,
        ⟨2, 1, [0x7d]⟩, ⟨3, 1, [0x7d]⟩] := by
    decide +kernel
  obtain ⟨w, hrun, hw⟩ := Option.map_eq_some_iff.mp hreceived
  exact ⟨w, hrun, feed_neither_leaks_nor_duplicates hrun, hw⟩

end IdpForge
