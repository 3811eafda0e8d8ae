import IdpForge.PartialMap
import IdpForge.TransitionSystem

/-!
# Writers of the Realtime Hub

`deliverLocal` holds the read lock of the hub around its loop of `WriteMessage` calls. It runs in
the goroutine of each request that logs an audit entry or posts an announcement, and in that of
`subscribeCluster`. Any number of goroutines hold a read lock at once; `add` and `remove` take the
write lock, which they get when nobody holds it.

A `WriteMessage` takes time: its beginning and its end are steps of their own. The order in which
a loop visits the connections is arbitrary. That a waiting writer holds up new readers is left
out.

## Main results

* `apart_step`: when a step keeps the deliveries from meeting on a connection.
* `reaches_writing`: a delivery can go on until it writes to a connection it still has to serve.
* `safe_iff_apart`: two deliveries that share such a connection can meet there.
* `hub_writers_iff`: no two writers meet exactly when no delivery begins that shares one.
-/

open PartialMap TransitionSystem

namespace IdpForge

/-- The goroutines in which `deliverLocal` runs. -/
inductive HubGoroutine where
  | request (n : Nat)
  | subscribeCluster
  deriving DecidableEq, Repr

/-- A call of `deliverLocal`: the connections its loop has not visited, with their `canSeeAudit`,
and the one on which it is in `WriteMessage`. -/
structure LocalDelivery where
  auditOnly : Bool
  pending : List (Nat × Bool)
  writing : Option Nat
  deriving DecidableEq, Repr

/-- The connections among these that are not passed over. -/
def served (auditOnly : Bool) (clients : List (Nat × Bool)) : List Nat :=
  (clients.filter fun client => !(auditOnly && !client.2)).map Prod.fst

/-- The connections that the delivery still has to write to, or is writing to. -/
def LocalDelivery.remaining (d : LocalDelivery) : List Nat :=
  d.writing.toList ++ served d.auditOnly d.pending

/-- The hub of one instance: its connections, who holds the read lock, and the deliveries. -/
structure HubLock where
  clients : List (Nat × Bool)
  readers : List HubGoroutine
  deliveries : HubGoroutine → Option LocalDelivery

/-- `newRealtimeHub`. -/
def HubLock.start : HubLock := ⟨[], [], fun _ => none⟩

/-- A connection is added or removed under the write lock; a delivery takes the read lock, with
the order in which it visits the connections, begins and ends a `WriteMessage`, and gives the
lock back. -/
inductive WriterAction where
  | add (c : Nat) (canSeeAudit : Bool)
  | remove (c : Nat)
  | rlock (g : HubGoroutine) (auditOnly : Bool) (order : List (Nat × Bool))
  | visit (g : HubGoroutine)
  | written (g : HubGoroutine)
  | runlock (g : HubGoroutine)
  deriving DecidableEq, Repr

/-- The action begins a delivery. -/
def WriterAction.isRLock : WriterAction → Bool
  | .rlock .. => true
  | _ => false

/-- The connections without one of them. -/
def withoutClient (c : Nat) (clients : List (Nat × Bool)) : List (Nat × Bool) :=
  clients.filter fun client => client.1 ≠ c

namespace HubLock

variable (s : HubLock)

/-- The delivery of a goroutine goes on. -/
def setDelivery (g : HubGoroutine) (d : LocalDelivery) : HubLock :=
  { s with deliveries := Function.update s.deliveries g (some d) }

/-- The step function. -/
def step : WriterAction → Option HubLock
  | .add c canSeeAudit =>
      if s.readers = [] then
        some { s with clients := (c, canSeeAudit) :: withoutClient c s.clients }
      else none
  | .remove c =>
      if s.readers = [] then some { s with clients := withoutClient c s.clients } else none
  | .rlock g auditOnly order =>
      if (s.deliveries g).isNone ∧ order.Perm s.clients then
        some ({ s with readers := g :: s.readers }.setDelivery g ⟨auditOnly, order, none⟩)
      else none
  | .visit g =>
      match s.deliveries g with
      | some ⟨auditOnly, (c, canSeeAudit) :: rest, none⟩ =>
          if auditOnly && !canSeeAudit then some (s.setDelivery g ⟨auditOnly, rest, none⟩)
          else some (s.setDelivery g ⟨auditOnly, rest, some c⟩)
      | _ => none
  | .written g =>
      match s.deliveries g with
      | some ⟨auditOnly, pending, some _⟩ => some (s.setDelivery g ⟨auditOnly, pending, none⟩)
      | _ => none
  | .runlock g =>
      match s.deliveries g with
      | some ⟨_, [], none⟩ =>
          some { s with
            readers := s.readers.erase g
            deliveries := Function.update s.deliveries g none }
      | _ => none

end HubLock

/-- No two `WriteMessage` calls on one connection overlap. -/
def HubLock.NoTwoWriters (s : HubLock) : Prop :=
  ∀ g g' d d' c, s.deliveries g = some d → s.deliveries g' = some d' →
    d.writing = some c → d'.writing = some c → g = g'

/-- However the deliveries in progress go on, no two writers meet. -/
def HubLock.Safe (s : HubLock) : Prop :=
  ∀ as t, (∀ a ∈ as, a.isRLock = false) → run HubLock.step s as = some t → t.NoTwoWriters

/-- No two deliveries still have to write to the same connection. -/
def HubLock.Apart (s : HubLock) : Prop :=
  ∀ g g' d d' c, s.deliveries g = some d → s.deliveries g' = some d' →
    c ∈ d.remaining → c ∈ d'.remaining → g = g'

/-- No delivery begins that shares a connection with what another one still has to write. -/
def BeginsApart (s : HubLock) : WriterAction → Prop
  | .rlock _ auditOnly _ =>
      ∀ g d c, s.deliveries g = some d → c ∈ d.remaining → c ∉ served auditOnly s.clients
  | _ => True

section Writers

variable {s s' : HubLock} {a : WriterAction} {g : HubGoroutine}

/-! ### Deliveries that stay apart -/

/-- What is served does not depend on the order of the loop. -/
theorem mem_served_perm {auditOnly : Bool} {order clients : List (Nat × Bool)}
    (h : order.Perm clients) (c : Nat) :
    c ∈ served auditOnly order ↔ c ∈ served auditOnly clients :=
  ((h.filter _).map Prod.fst).mem_iff

/-- A connection that is passed over is not served. -/
theorem served_cons_skip {auditOnly canSeeAudit : Bool} {c : Nat} {rest : List (Nat × Bool)}
    (h : (auditOnly && !canSeeAudit) = true) :
    served auditOnly ((c, canSeeAudit) :: rest) = served auditOnly rest := by
  rw [served, served, List.filter_cons_of_neg (by rw [h]; simp)]

/-- A connection that is not passed over is served. -/
theorem served_cons {auditOnly canSeeAudit : Bool} {c : Nat} {rest : List (Nat × Bool)}
    (h : (auditOnly && !canSeeAudit) = false) :
    served auditOnly ((c, canSeeAudit) :: rest) = c :: served auditOnly rest := by
  rw [served, served, List.filter_cons_of_pos (by rw [h]; rfl), List.map_cons]

/-- Every delivery after the step was there before it, with no fewer connections to serve. -/
def HubLock.Narrows (s s' : HubLock) : Prop :=
  ∀ g d', s'.deliveries g = some d' → ∃ d, s.deliveries g = some d ∧ d'.remaining ⊆ d.remaining

/-- A delivery that goes on narrows. -/
theorem narrows_setDelivery {d d' : LocalDelivery} (hd : s.deliveries g = some d)
    (hsub : d'.remaining ⊆ d.remaining) : s.Narrows (s.setDelivery g d') := by
  intro g' d₁ h
  rcases update_eq_some_iff.mp h with ⟨rfl, heq⟩ | ⟨-, hold⟩
  · obtain rfl := Option.some.inj heq
    exact ⟨d, hd, hsub⟩
  · exact ⟨d₁, hold, List.Subset.refl _⟩

/-- **A step that begins no delivery** narrows those in progress. -/
theorem narrows_step (hlock : a.isRLock = false) (hstep : s.step a = some s') : s.Narrows s' := by
  have hsame : s.Narrows s := fun g d h => ⟨d, h, List.Subset.refl _⟩
  cases a with
  | add c canSeeAudit =>
      obtain ⟨-, heq⟩ := Option.ite_none_right_eq_some.mp hstep
      obtain rfl := Option.some.inj heq
      exact hsame
  | remove c =>
      obtain ⟨-, heq⟩ := Option.ite_none_right_eq_some.mp hstep
      obtain rfl := Option.some.inj heq
      exact hsame
  | rlock g auditOnly order => simp [WriterAction.isRLock] at hlock
  | visit g =>
      rw [HubLock.step] at hstep
      split at hstep
      case h_2 => simp at hstep
      case h_1 auditOnly c canSeeAudit rest hd =>
        split at hstep
        · next hskip =>
            obtain rfl := Option.some.inj hstep
            refine narrows_setDelivery hd ?_
            simp only [LocalDelivery.remaining, served_cons_skip hskip]
            exact List.Subset.refl _
        · next hserve =>
            obtain rfl := Option.some.inj hstep
            refine narrows_setDelivery hd ?_
            simp only [LocalDelivery.remaining, served_cons (Bool.eq_false_iff.mpr hserve)]
            exact List.Subset.refl _
  | written g =>
      rw [HubLock.step] at hstep
      split at hstep
      case h_2 => simp at hstep
      case h_1 auditOnly pending c hd =>
        obtain rfl := Option.some.inj hstep
        exact narrows_setDelivery hd (List.subset_append_right ..)
  | runlock g =>
      rw [HubLock.step] at hstep
      split at hstep
      case h_2 => simp at hstep
      case h_1 auditOnly hd =>
        obtain rfl := Option.some.inj hstep
        intro g' d' h
        exact ⟨d', (of_update_none h).2, List.Subset.refl _⟩

/-- Deliveries that are apart stay so as they narrow. -/
theorem HubLock.Apart.narrows (h : s.Apart) (hnarrows : s.Narrows s') : s'.Apart := by
  intro g g' d d' c hd hd' hc hc'
  obtain ⟨d₀, hd₀, hsub⟩ := hnarrows g d hd
  obtain ⟨d₁, hd₁, hsub'⟩ := hnarrows g' d' hd'
  exact h g g' d₀ d₁ c hd₀ hd₁ (hsub hc) (hsub' hc')

/-- **A step keeps deliveries apart** if and only if it does not begin one that shares a
connection. -/
theorem apart_step (h : s.Apart) (hstep : s.step a = some s') : s'.Apart ↔ BeginsApart s a := by
  cases ha : a.isRLock with
  | false =>
      refine iff_of_true (h.narrows (narrows_step ha hstep)) ?_
      cases a <;> trivial
  | true =>
      cases a <;> simp only [WriterAction.isRLock, Bool.false_eq_true] at ha
      case rlock g auditOnly order =>
        obtain ⟨⟨hfree, hperm⟩, heq⟩ := Option.ite_none_right_eq_some.mp hstep
        obtain rfl := Option.some.inj heq
        have hnone : s.deliveries g = none := Option.isNone_iff_eq_none.mp hfree
        have hnew : ∀ c, c ∈ (LocalDelivery.mk auditOnly order none).remaining ↔
            c ∈ served auditOnly s.clients := fun c => mem_served_perm hperm c
        constructor
        · intro hapart g₁ d₁ c hd₁ hc hserved
          have hne : g₁ ≠ g := by
            rintro rfl
            simp [hnone] at hd₁
          exact hne (hapart g₁ g d₁ _ c ((Function.update_of_ne hne _ _).trans hd₁)
            (Function.update_self ..) hc ((hnew c).mpr hserved))
        · intro hbegins g₁ g₂ d₁ d₂ c hd₁ hd₂ hc₁ hc₂
          rcases update_eq_some_iff.mp hd₁ with ⟨rfl, heq₁⟩ | ⟨-, hold₁⟩ <;>
            rcases update_eq_some_iff.mp hd₂ with ⟨rfl, heq₂⟩ | ⟨-, hold₂⟩
          · rfl
          · obtain rfl := Option.some.inj heq₁
            exact absurd ((hnew c).mp hc₁) (hbegins g₂ d₂ c hold₂ hc₂)
          · obtain rfl := Option.some.inj heq₂
            exact absurd ((hnew c).mp hc₂) (hbegins g₁ d₁ c hold₁ hc₁)
          · exact h g₁ g₂ d₁ d₂ c hold₁ hold₂ hc₁ hc₂

/-! ### Deliveries that meet -/

/-- The delivery of `g` can go on, with no new one, until it writes to the connection, while the
others stand still. -/
def HubLock.ReachesWriting (s : HubLock) (g : HubGoroutine) (c : Nat) : Prop :=
  ∃ as t d, (∀ a ∈ as, a.isRLock = false) ∧ run HubLock.step s as = some t ∧
    t.deliveries g = some d ∧ d.writing = some c ∧
    ∀ g', g' ≠ g → t.deliveries g' = s.deliveries g'

/-- A delivery that writes to the connection has reached it. -/
theorem reachesWriting_of_writing {d : LocalDelivery} {c : Nat} (hd : s.deliveries g = some d)
    (hc : d.writing = some c) : s.ReachesWriting g c :=
  ⟨[], s, d, by simp, rfl, hd, hc, fun _ _ => rfl⟩

/-- A step of the delivery, and then what it reaches from there. -/
theorem reachesWriting_of_step {d : LocalDelivery} {c : Nat} (hlock : a.isRLock = false)
    (hstep : s.step a = some (s.setDelivery g d)) (h : (s.setDelivery g d).ReachesWriting g c) :
    s.ReachesWriting g c := by
  obtain ⟨as, t, d', has, hrun, hd', hc, hothers⟩ := h
  refine ⟨a :: as, t, d', List.forall_mem_cons.mpr ⟨hlock, has⟩, ?_, hd', hc, fun g' hne => ?_⟩
  · rw [run_cons, hstep]
    exact hrun
  · exact (hothers g' hne).trans (Function.update_of_ne hne _ _)

/-- A delivery between two writes reaches every connection it still has to serve. -/
theorem reachesWriting_of_pending {auditOnly : Bool} {pending : List (Nat × Bool)} {c : Nat}
    (hd : s.deliveries g = some ⟨auditOnly, pending, none⟩) (hc : c ∈ served auditOnly pending) :
    s.ReachesWriting g c := by
  induction pending generalizing s with
  | nil => simp [served] at hc
  | cons client rest ih =>
      obtain ⟨c₁, canSeeAudit⟩ := client
      cases hskip : auditOnly && !canSeeAudit with
      | true =>
          have hvisit : s.step (.visit g) = some (s.setDelivery g ⟨auditOnly, rest, none⟩) := by
            rw [HubLock.step, hd]
            exact if_pos hskip
          rw [served_cons_skip hskip] at hc
          exact reachesWriting_of_step rfl hvisit (ih (Function.update_self ..) hc)
      | false =>
          have hvisit : s.step (.visit g) = some (s.setDelivery g ⟨auditOnly, rest, some c₁⟩) := by
            rw [HubLock.step, hd]
            exact if_neg (by rw [hskip]; simp)
          refine reachesWriting_of_step rfl hvisit ?_
          have hwriting : (s.setDelivery g ⟨auditOnly, rest, some c₁⟩).deliveries g =
              some ⟨auditOnly, rest, some c₁⟩ := Function.update_self ..
          rw [served_cons hskip] at hc
          rcases List.mem_cons.mp hc with rfl | hlater
          · exact reachesWriting_of_writing hwriting rfl
          · refine reachesWriting_of_step (a := .written g) (d := ⟨auditOnly, rest, none⟩) rfl ?_
              (ih (Function.update_self ..) hlater)
            rw [HubLock.step, hwriting]

/-- **A delivery reaches** every connection it still has to write to. -/
theorem reachesWriting {d : LocalDelivery} {c : Nat} (hd : s.deliveries g = some d)
    (hc : c ∈ d.remaining) : s.ReachesWriting g c := by
  obtain ⟨auditOnly, pending, writing⟩ := d
  cases writing with
  | none => exact reachesWriting_of_pending hd hc
  | some c₁ =>
      rcases List.mem_cons.mp hc with rfl | hlater
      · exact reachesWriting_of_writing hd rfl
      · refine reachesWriting_of_step (a := .written g) (d := ⟨auditOnly, pending, none⟩) rfl ?_
          (reachesWriting_of_pending (Function.update_self ..) hlater)
        rw [HubLock.step, hd]

/-- No two writers meet in a state where the deliveries are apart. -/
theorem HubLock.Apart.noTwoWriters (h : s.Apart) : s.NoTwoWriters := by
  intro g g' d d' c hd hd' hc hc'
  refine h g g' d d' c hd hd' ?_ ?_
  · simp [LocalDelivery.remaining, hc]
  · simp [LocalDelivery.remaining, hc']

/-- **Two deliveries that share a connection can meet there**, and only they. -/
theorem safe_iff_apart : s.Safe ↔ s.Apart := by
  constructor
  · intro hsafe g g' d d' c hd hd' hc hc'
    by_contra hne
    obtain ⟨as, t, d₁, has, hrun, hd₁, hw₁, hothers⟩ := reachesWriting hd hc
    have hd't : t.deliveries g' = some d' := (hothers g' (Ne.symm hne)).trans hd'
    obtain ⟨bs, u, d₂, hbs, hrun', hd₂, hw₂, hothers'⟩ := reachesWriting hd't hc'
    have hall : run HubLock.step s (as ++ bs) = some u := by
      rw [run_append, hrun]
      exact hrun'
    refine hne (hsafe (as ++ bs) u (List.forall_mem_append.mpr ⟨has, hbs⟩) hall g g' d₁ d₂ c
      ((hothers' g hne).trans hd₁) hd₂ hw₁ hw₂)
  · intro hapart as t has hrun
    have htrivial : Guarded HubLock.step (fun _ _ => True) s as := guarded_true s as
    have hlocked := htrivial.and_forall_mem has
    exact (guarded_run_invariant (P := HubLock.Apart)
      (fun _ _ _ h hlock hstep => h.narrows (narrows_step hlock.2 hstep)) hapart hlocked
      hrun).noTwoWriters

end Writers

/-- **When two writers meet.** In a run in which no delivery begins that shares a connection with
what another one still has to write, no two `WriteMessage` calls on one connection overlap. And
only then is it so however the deliveries go on: wherever one begins that shares a connection,
two of them can meet there before any other begins. -/
theorem hub_writers_iff {as : List WriterAction} {s : HubLock}
    (hrun : run HubLock.step .start as = some s) :
    (Guarded HubLock.step BeginsApart .start as →
        AlongRun HubLock.step HubLock.NoTwoWriters .start as) ∧
      (AlongRun HubLock.step HubLock.Safe .start as ↔
        Guarded HubLock.step BeginsApart .start as) := by
  have hstart : HubLock.start.Safe :=
    safe_iff_apart.mpr fun g g' d d' c hd => by simp [HubLock.start] at hd
  have hexact : AlongRun HubLock.step HubLock.Safe .start as ↔
      Guarded HubLock.step BeginsApart .start as := by
    refine alongRun_iff_guarded (I := fun _ => True) (fun _ _ _ _ _ _ => trivial)
      (fun t a t' _ hsafe _ hstep => ?_) trivial hstart (guarded_true _ _) hrun
    rw [safe_iff_apart] at hsafe ⊢
    exact apart_step hsafe hstep
  refine ⟨fun hguard before after heq t ht => ?_, hexact⟩
  exact (safe_iff_apart.mp (hexact.mpr hguard before after heq t ht)).noTwoWriters

/-- An audit entry is logged by a request while the subscriber relays an announcement, with one
connection. -/
def exampleTwoBroadcasts : List WriterAction :=
  [.add 7 true, .rlock (.request 0) true [(7, true)], .rlock .subscribeCluster false [(7, true)],
    .visit (.request 0), .visit .subscribeCluster]

/-- Both are in `WriteMessage` on it. -/
theorem two_writers_meet :
    ¬ ∀ as s, run HubLock.step .start as = some s → s.NoTwoWriters := by
  intro h
  have hrun : (run HubLock.step .start exampleTwoBroadcasts).map
      (fun s => (s.deliveries (.request 0), s.deliveries .subscribeCluster)) =
        some (some ⟨true, [], some 7⟩, some ⟨false, [], some 7⟩) := by
    decide +kernel
  obtain ⟨s, hs, heq⟩ := Option.map_eq_some_iff.mp hrun
  obtain ⟨hrequest, hsubscriber⟩ := Prod.mk.inj heq
  have hsame := h _ s hs _ _ _ _ 7 hrequest hsubscriber rfl rfl
  cases hsame

/-- The subscriber relays after the request has written. -/
def exampleOneAfterTheOther : List WriterAction :=
  [.add 7 true, .rlock (.request 0) true [(7, true)], .visit (.request 0), .written (.request 0),
    .rlock .subscribeCluster false [(7, true)], .runlock (.request 0), .visit .subscribeCluster]

/-- The two deliveries hold the lock at once, and do not meet. -/
theorem hub_writers_iff_example :
    ∃ s, run HubLock.step .start exampleOneAfterTheOther = some s ∧
      s.deliveries .subscribeCluster = some ⟨false, [], some 7⟩ ∧ s.NoTwoWriters := by
  have hguard : Guarded HubLock.step BeginsApart .start exampleOneAfterTheOther := by
    refine ⟨trivial, fun s₁ h₁ => ⟨fun g d c hd => ?_, fun s₂ h₂ => ⟨trivial, fun s₃ h₃ =>
      ⟨trivial, fun s₄ h₄ => ⟨fun g d c hd hc => ?_, fun _ _ => ⟨trivial, fun _ _ =>
        ⟨trivial, fun _ _ => trivial⟩⟩⟩⟩⟩⟩⟩
    · obtain rfl := Option.some.inj h₁
      simp [HubLock.start] at hd
    · obtain rfl := Option.some.inj h₁
      obtain rfl := Option.some.inj h₂
      obtain rfl := Option.some.inj h₃
      obtain rfl := Option.some.inj h₄
      rcases update_eq_some_iff.mp hd with ⟨-, heq⟩ | ⟨hne, hold⟩
      · obtain rfl := Option.some.inj heq
        simp [LocalDelivery.remaining, served] at hc
      · simp [HubLock.setDelivery, HubLock.start, hne] at hold
  have hrun : (run HubLock.step .start exampleOneAfterTheOther).map
      (fun s => s.deliveries .subscribeCluster) = some (some ⟨false, [], some 7⟩) := by
    decide +kernel
  obtain ⟨s, hs, hdelivery⟩ := Option.map_eq_some_iff.mp hrun
  exact ⟨s, hs, hdelivery, ((hub_writers_iff hs).1 hguard).last hs⟩

end IdpForge
