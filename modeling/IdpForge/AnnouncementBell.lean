import IdpForge.TransitionSystem
import Mathlib.Data.List.Perm.Basic
import Mathlib.Data.List.Nodup
import Mathlib.Logic.Function.Basic

/-!
# The Notification Bell

An announcement is inserted into its table and then broadcast on the realtime feed, by one call
of `handleCreateAnnouncement` or `NotifySystem`. The bell of the console asks for the list once,
when the user is known, and puts what the feed brings in front of the list it has; the answer to
the question replaces the list. The insertions, the broadcasts, the query, its answer and the
frames on the socket come in any order that leaves each call and each frame in its own. A frame
may also not come at all: the feed hands a broadcast on once at most, and not while the socket is
closed.

Announcements are told apart by the ids of their rows, which the frames need not carry.

## Main results

* `receives_run`: what frames make of the list.
* `announcement_bell`: which announcements the bell shows, and how often.
-/

open TransitionSystem

namespace IdpForge

/-- `Announcement`. -/
structure Announcement where
  id : Nat
  message : String
  level : String
  createdBy : String
  createdAt : Int
  deriving DecidableEq, Repr

/-- How far the call that creates an announcement, and its frame, have come. -/
inductive CreateStage where
  | inserted | broadcast | received
  deriving DecidableEq, Repr

/-- The bell's question for the list: the page is not there yet, has not asked, has asked, is
sent these rows, or has been answered. -/
inductive ListRequest where
  | absent | idle | asked
  | answered (rows : List Announcement)
  | done
  deriving DecidableEq, Repr

/-- The table, the calls by the ids of their rows, the bell's question and its list, each
entry with the id of its row. -/
structure BellState where
  table : List Announcement
  calls : Nat → Option (Announcement × CreateStage)
  request : ListRequest
  announcementList : List (Nat × Announcement)

/-- A call inserts its row or broadcasts; the browser opens the page, gets a frame, asks, and
is answered or not; the database runs the query, with the order it chooses for the rows. -/
inductive BellAction where
  | insert (a : Announcement)
  | broadcast (id : Nat)
  | receive (id : Nat)
  | mount
  | ask
  | query (order : List Announcement)
  | answer
  | fail
  deriving DecidableEq, Repr

/-- The limit of `Repository.List`. -/
def listLimit (limit : Int) : Nat := if limit ≤ 0 ∨ limit > 100 then 20 else limit.toNat

section Steps

variable (lastInsertId : Bool)

/-- What `Create` returns, and the frame carries: a driver may not tell the id. -/
def Announcement.sent (a : Announcement) : Announcement :=
  { a with id := if lastInsertId then a.id else 0 }

namespace BellState

variable (s : BellState)

/-- The `INSERT` of `Create`. -/
def insert (a : Announcement) : Option BellState :=
  if (s.calls a.id).isSome then none
  else
    some { s with
      table := s.table ++ [a]
      calls := Function.update s.calls a.id (some (a, .inserted)) }

/-- `onAnnouncement`. -/
def broadcast (id : Nat) : Option BellState :=
  match s.calls id with
  | some (a, .inserted) =>
      some { s with calls := Function.update s.calls id (some (a, .broadcast)) }
  | _ => none

/-- The callback of `useRealtime` in `AppShell`. -/
def receive (id : Nat) : Option BellState :=
  match s.calls id with
  | some (a, .broadcast) =>
      if s.request = .absent then none
      else
        some { s with
          calls := Function.update s.calls id (some (a, .received))
          announcementList := ((id, a.sent lastInsertId) :: s.announcementList).take 20 }
  | _ => none

/-- `Repository.List`: the newest rows, in an order that the database chooses among rows of one
time. -/
def query (order : List Announcement) : Option BellState :=
  if s.request = .asked ∧ order.Perm s.table ∧
      order.Pairwise fun a b => b.createdAt ≤ a.createdAt then
    some { s with request := .answered (order.take (listLimit 20)) }
  else none

/-- The answer to `api.announcements.list`. -/
def answer : Option BellState :=
  match s.request with
  | .answered rows =>
      some { s with request := .done, announcementList := rows.map fun a => (a.id, a) }
  | _ => none

/-- The question is refused, or its answer is lost. -/
def fail : Option BellState :=
  match s.request with
  | .asked | .answered _ => some { s with request := .done }
  | _ => none

/-- Before the first announcement, and before the page. -/
def start : BellState where
  table := []
  calls := fun _ => none
  request := .absent
  announcementList := []

/-- The announcements the bell shows, by the ids of their rows. -/
def ids : List Nat := s.announcementList.map Prod.fst

end BellState

/-- The step function. -/
def bellStep (s : BellState) : BellAction → Option BellState
  | .insert a => s.insert a
  | .broadcast id => s.broadcast id
  | .receive id => s.receive lastInsertId id
  | .mount => if s.request = .absent then some { s with request := .idle } else none
  | .ask => if s.request = .idle then some { s with request := .asked } else none
  | .query order => s.query order
  | .answer => s.answer
  | .fail => s.fail

end Steps

/-- The ids of the rows that these actions insert. -/
def insertedIds (as : List BellAction) : List Nat :=
  as.filterMap fun
    | .insert a => some a.id
    | _ => none

/-- The ids of the announcements whose frames these actions hand on. -/
def receivedIds (as : List BellAction) : List Nat :=
  as.filterMap fun
    | .receive id => some id
    | _ => none

/-! ### What one step can do -/

section Bell

variable {lastInsertId : Bool} {s s' : BellState}

/-- What each action changes, and when it can be taken. -/
inductive BellStep (lastInsertId : Bool) (s : BellState) : BellAction → BellState → Prop where
  | insert {a : Announcement} (hnew : s.calls a.id = none) :
      BellStep lastInsertId s (.insert a) { s with
        table := s.table ++ [a]
        calls := Function.update s.calls a.id (some (a, .inserted)) }
  | broadcast {id : Nat} {a : Announcement} (hcall : s.calls id = some (a, .inserted)) :
      BellStep lastInsertId s (.broadcast id) { s with
        calls := Function.update s.calls id (some (a, .broadcast)) }
  | receive {id : Nat} {a : Announcement} (hcall : s.calls id = some (a, .broadcast))
      (hmounted : s.request ≠ .absent) :
      BellStep lastInsertId s (.receive id) { s with
        calls := Function.update s.calls id (some (a, .received))
        announcementList := ((id, a.sent lastInsertId) :: s.announcementList).take 20 }
  | mount (hrequest : s.request = .absent) :
      BellStep lastInsertId s .mount { s with request := .idle }
  | ask (hrequest : s.request = .idle) :
      BellStep lastInsertId s .ask { s with request := .asked }
  | query {order : List Announcement} (hrequest : s.request = .asked)
      (horder : order.Perm s.table) :
      BellStep lastInsertId s (.query order) { s with request := .answered (order.take 20) }
  | answer {rows : List Announcement} (hrequest : s.request = .answered rows) :
      BellStep lastInsertId s .answer { s with
        request := .done
        announcementList := rows.map fun a => (a.id, a) }
  | fail (hrequest : s.request = .asked ∨ ∃ rows, s.request = .answered rows) :
      BellStep lastInsertId s .fail { s with request := .done }

/-- The step function takes these steps only. -/
theorem bellStep_sound {a : BellAction} (hstep : bellStep lastInsertId s a = some s') :
    BellStep lastInsertId s a s' := by
  cases a with
  | insert a =>
      simp only [bellStep, BellState.insert, Option.ite_none_left_eq_some, Option.some.injEq,
        Bool.not_eq_true, Option.isSome_eq_false_iff, Option.isNone_iff_eq_none] at hstep
      obtain ⟨hnew, rfl⟩ := hstep
      exact .insert hnew
  | broadcast id =>
      simp only [bellStep, BellState.broadcast] at hstep
      split at hstep
      · next a hcall =>
          rw [Option.some.injEq] at hstep
          exact hstep ▸ .broadcast hcall
      · simp at hstep
  | receive id =>
      simp only [bellStep, BellState.receive] at hstep
      split at hstep
      · next a hcall =>
          rw [Option.ite_none_left_eq_some, Option.some.injEq] at hstep
          exact hstep.2 ▸ .receive hcall hstep.1
      · simp at hstep
  | mount =>
      simp only [bellStep, Option.ite_none_right_eq_some, Option.some.injEq] at hstep
      exact hstep.2 ▸ .mount hstep.1
  | ask =>
      simp only [bellStep, Option.ite_none_right_eq_some, Option.some.injEq] at hstep
      exact hstep.2 ▸ .ask hstep.1
  | query order =>
      simp only [bellStep, BellState.query, Option.ite_none_right_eq_some,
        Option.some.injEq] at hstep
      obtain ⟨⟨hrequest, horder, -⟩, rfl⟩ := hstep
      exact .query hrequest horder
  | answer =>
      simp only [bellStep, BellState.answer] at hstep
      split at hstep
      · next rows hrequest =>
          rw [Option.some.injEq] at hstep
          exact hstep ▸ .answer hrequest
      · simp at hstep
  | fail =>
      simp only [bellStep, BellState.fail] at hstep
      split at hstep
      · next hrequest =>
          rw [Option.some.injEq] at hstep
          exact hstep ▸ .fail (Or.inl hrequest)
      · next rows hrequest =>
          rw [Option.some.injEq] at hstep
          exact hstep ▸ .fail (Or.inr ⟨rows, hrequest⟩)
      · simp at hstep

/-! ### Calls and frames -/

/-- The table and the calls after the actions of a run. -/
structure BellInv (as : List BellAction) (s : BellState) : Prop where
  table : s.table.map Announcement.id = insertedIds as
  inserted : ∀ id, (s.calls id).isSome = true ↔ id ∈ insertedIds as
  received : ∀ id, (∃ a, s.calls id = some (a, .received)) ↔ id ∈ receivedIds as
  nodup : (insertedIds as).Nodup
  once : (receivedIds as).Nodup

/-- The invariant holds before the first step. -/
theorem bellInv_start : BellInv [] BellState.start where
  table := rfl
  inserted := by simp [BellState.start, insertedIds]
  received := by simp [BellState.start, receivedIds]
  nodup := List.nodup_nil
  once := List.nodup_nil

/-- The rows of two stretches of actions. -/
theorem insertedIds_append (as bs : List BellAction) :
    insertedIds (as ++ bs) = insertedIds as ++ insertedIds bs := List.filterMap_append

/-- The frames of two stretches of actions. -/
theorem receivedIds_append (as bs : List BellAction) :
    receivedIds (as ++ bs) = receivedIds as ++ receivedIds bs := List.filterMap_append

/-- A step that leaves the table and the calls alone, and is about neither a row nor a frame. -/
theorem BellInv.quiet {as : List BellAction} {a : BellAction} (h : BellInv as s)
    (htable : s'.table = s.table) (hcalls : s'.calls = s.calls) (hrow : insertedIds [a] = [])
    (hframe : receivedIds [a] = []) : BellInv (as ++ [a]) s' := by
  have hrows : insertedIds (as ++ [a]) = insertedIds as := by
    rw [insertedIds_append, hrow, List.append_nil]
  have hframes : receivedIds (as ++ [a]) = receivedIds as := by
    rw [receivedIds_append, hframe, List.append_nil]
  constructor
  · rw [htable, hrows, h.table]
  · rw [hcalls, hrows]
    exact h.inserted
  · rw [hcalls, hframes]
    exact h.received
  · exact hrows ▸ h.nodup
  · exact hframes ▸ h.once

/-- A row is inserted. -/
theorem BellInv.insert {as : List BellAction} (h : BellInv as s) {a : Announcement}
    (hnew : s.calls a.id = none) :
    BellInv (as ++ [.insert a]) { s with
      table := s.table ++ [a]
      calls := Function.update s.calls a.id (some (a, .inserted)) } := by
  have hfresh : a.id ∉ insertedIds as := by simp [← h.inserted, hnew]
  have hrows : insertedIds (as ++ [.insert a]) = insertedIds as ++ [a.id] := by
    rw [insertedIds_append]
    rfl
  have hframes : receivedIds (as ++ [.insert a]) = receivedIds as := by
    rw [receivedIds_append]
    exact List.append_nil _
  constructor
  · rw [hrows, List.map_append, h.table]
    rfl
  · intro id
    rw [hrows, List.mem_append, List.mem_singleton, ← h.inserted]
    by_cases hid : id = a.id
    · simp [hid]
    · simp [hid]
  · intro id
    rw [hframes, ← h.received]
    by_cases hid : id = a.id
    · simp [hid, hnew]
    · simp [hid]
  · rw [hrows]
    exact List.nodup_append.mpr ⟨h.nodup, List.nodup_singleton _, by
      rintro id hid _ hid' rfl
      exact hfresh (List.mem_singleton.mp hid' ▸ hid)⟩
  · exact hframes ▸ h.once

/-- A call goes on to its broadcast. -/
theorem BellInv.broadcast {as : List BellAction} (h : BellInv as s) {id : Nat} {a : Announcement}
    (hcall : s.calls id = some (a, .inserted)) :
    BellInv (as ++ [.broadcast id]) { s with
      calls := Function.update s.calls id (some (a, .broadcast)) } := by
  have hrows : insertedIds (as ++ [.broadcast id]) = insertedIds as := by
    rw [insertedIds_append]
    exact List.append_nil _
  have hframes : receivedIds (as ++ [.broadcast id]) = receivedIds as := by
    rw [receivedIds_append]
    exact List.append_nil _
  constructor
  · rw [hrows, h.table]
  · intro id'
    rw [hrows, ← h.inserted]
    by_cases hid : id' = id
    · simp [hid, hcall]
    · simp [hid]
  · intro id'
    rw [hframes, ← h.received]
    by_cases hid : id' = id
    · simp [hid, hcall]
    · simp [hid]
  · exact hrows ▸ h.nodup
  · exact hframes ▸ h.once

/-- A frame is handed on. -/
theorem BellInv.receive {as : List BellAction} (h : BellInv as s) {id : Nat} {a : Announcement}
    (hcall : s.calls id = some (a, .broadcast)) {shown : List (Nat × Announcement)} :
    BellInv (as ++ [.receive id]) { s with
      calls := Function.update s.calls id (some (a, .received))
      announcementList := shown } := by
  have hfresh : id ∉ receivedIds as := by simp [← h.received, hcall]
  have hrows : insertedIds (as ++ [.receive id]) = insertedIds as := by
    rw [insertedIds_append]
    exact List.append_nil _
  have hframes : receivedIds (as ++ [.receive id]) = receivedIds as ++ [id] := by
    rw [receivedIds_append]
    rfl
  constructor
  · rw [hrows, h.table]
  · intro id'
    rw [hrows, ← h.inserted]
    by_cases hid : id' = id
    · simp [hid, hcall]
    · simp [hid]
  · intro id'
    rw [hframes, List.mem_append, List.mem_singleton, ← h.received]
    by_cases hid : id' = id
    · simp [hid]
    · simp [hid]
  · exact hrows ▸ h.nodup
  · rw [hframes]
    exact List.nodup_append.mpr ⟨h.once, List.nodup_singleton _, by
      rintro id hid _ hid' rfl
      exact hfresh (List.mem_singleton.mp hid' ▸ hid)⟩

/-- **A step keeps the invariant.** -/
theorem bellInv_step {as : List BellAction} {a : BellAction} (h : BellInv as s)
    (hstep : bellStep lastInsertId s a = some s') : BellInv (as ++ [a]) s' := by
  cases bellStep_sound hstep with
  | insert hnew => exact h.insert hnew
  | broadcast hcall => exact h.broadcast hcall
  | receive hcall hmounted => exact h.receive hcall
  | mount hrequest => exact h.quiet rfl rfl rfl rfl
  | ask hrequest => exact h.quiet rfl rfl rfl rfl
  | query hrequest horder => exact h.quiet rfl rfl rfl rfl
  | answer hrequest => exact h.quiet rfl rfl rfl rfl
  | fail hrequest => exact h.quiet rfl rfl rfl rfl

/-- The invariant holds after every run. -/
theorem bellInv_run {as : List BellAction}
    (hrun : run (bellStep lastInsertId) BellState.start as = some s) : BellInv as s :=
  trace_invariant (P := BellInv) bellInv_start (fun _ _ _ _ _ h hstep => bellInv_step h hstep) hrun

/-- A frame stems from a row. -/
theorem BellInv.inserted_of_received {as : List BellAction} (h : BellInv as s) {id : Nat}
    (hid : id ∈ receivedIds as) : id ∈ insertedIds as := by
  obtain ⟨a, hcall⟩ := (h.received id).mpr hid
  exact (h.inserted id).mp (by rw [hcall]; rfl)

/-! ### The list -/

/-- Cutting a list before or after something is put in front of it comes to the same. -/
theorem take_append_take {α : Type} (n : Nat) (xs ys : List α) :
    (xs ++ ys.take n).take n = (xs ++ ys).take n := by
  rw [List.take_append, List.take_append, List.take_take, Nat.min_eq_left (Nat.sub_le n _)]

/-- **What frames make of the list** once the question has been settled. -/
theorem receives_run {as : List BellAction} (hrun : run (bellStep lastInsertId) s as = some s')
    (hdone : s.request = .done) (hlength : s.ids.length ≤ 20) :
    s'.ids = ((receivedIds as).reverse ++ s.ids).take 20 := by
  induction as generalizing s with
  | nil =>
      obtain rfl := Option.some.inj hrun
      exact (List.take_of_length_le hlength).symm
  | cons a as ih =>
      obtain ⟨t, ht, hrest⟩ := (run_cons_eq_some _).mp hrun
      cases bellStep_sound ht with
      | @receive id a hcall hmounted =>
          have hids : BellState.ids { s with
              calls := Function.update s.calls id (some (a, .received))
              announcementList := ((id, a.sent lastInsertId) :: s.announcementList).take 20 } =
                (id :: s.ids).take 20 := by
            rw [BellState.ids, List.map_take, List.map_cons]
            rfl
          have hcons : receivedIds (.receive id :: as) = id :: receivedIds as := rfl
          have hcut := ih hrest hdone (by rw [hids]; exact List.length_take_le 20 _)
          rw [hcut, hids, take_append_take, hcons, List.reverse_cons, List.append_assoc,
            List.singleton_append]
      | insert hnew =>
          have hsame := ih hrest hdone hlength
          exact hsame
      | broadcast hcall =>
          have hsame := ih hrest hdone hlength
          exact hsame
      | mount hrequest => simp [hdone] at hrequest
      | ask hrequest => simp [hdone] at hrequest
      | query hrequest horder => simp [hdone] at hrequest
      | answer hrequest => simp [hdone] at hrequest
      | fail hrequest => simp [hdone] at hrequest

/-- The rows that are sent to the bell stay what they are until it has them. -/
theorem answered_step {rows : List Announcement} {a : BellAction}
    (hrows : s.request = .answered rows ∨ s.request = .done)
    (hstep : bellStep lastInsertId s a = some s') :
    s'.request = .answered rows ∨ s'.request = .done := by
  cases bellStep_sound hstep with
  | insert hnew => exact hrows
  | broadcast hcall => exact hrows
  | receive hcall hmounted => exact hrows
  | mount hrequest => simp [hrequest] at hrows
  | ask hrequest => simp [hrequest] at hrows
  | query hrequest horder => simp [hrequest] at hrows
  | answer hrequest => exact Or.inr rfl
  | fail hrequest => exact Or.inr rfl

/-- The answer brings the rows of the query. -/
theorem answer_after_query {order : List Announcement} {between : List BellAction}
    {t : BellState} (hquery : bellStep lastInsertId s (.query order) = some t)
    (hrun : run (bellStep lastInsertId) s (.query order :: between ++ [.answer]) = some s') :
    s'.request = .done ∧ s'.ids = (order.take 20).map Announcement.id := by
  obtain ⟨u, hbetween, hanswer⟩ := run_snoc_eq_some.mp hrun
  have ht : t.request = .answered (order.take 20) := by
    cases bellStep_sound hquery with
    | query hrequest horder => rfl
  have hu : u.request = .answered (order.take 20) ∨ u.request = .done := by
    rw [run_cons, hquery] at hbetween
    exact run_invariant (fun _ _ _ h hstep => answered_step h hstep) (Or.inl ht) hbetween
  cases bellStep_sound hanswer with
  | @answer rows hrequest =>
      obtain rfl : rows = order.take 20 := by simpa [hrequest] using hu
      exact ⟨rfl, by rw [BellState.ids, List.map_map]; rfl⟩

end Bell

/-- **The notification bell.** In every order of insertions, broadcasts, frames and the one
question for the list, after its answer the bell shows the announcements whose frames have come
since the answer, the latest first, before the newest rows of the table at the time of the query,
twenty in all. So an announcement stands in this list once for its row, if it was among the newest
twenty when the query ran, and once for its frame, if that came after the answer: it is missing
when it was inserted after the query and its frame came before the answer or not at all, and is
there twice when it was inserted before the query and its frame came after the answer. -/
theorem announcement_bell (lastInsertId : Bool) (before between after : List BellAction)
    (order : List Announcement) (s : BellState)
    (hrun : run (bellStep lastInsertId) BellState.start
      (before ++ (.query order :: between ++ [.answer]) ++ after) = some s) :
    let newest := (order.take 20).map Announcement.id
    let shown := (receivedIds after).reverse ++ newest
    s.ids = shown.take 20 ∧
      (∀ id, shown.count id = (if id ∈ newest then 1 else 0) +
        if id ∈ receivedIds after then 1 else 0) ∧
      (∀ id, id ∈ order.map Announcement.id ↔ id ∈ insertedIds before) ∧
      (∀ id ∈ shown, id ∈ insertedIds (before ++ between ++ after)) := by
  intro newest shown
  have hinv : BellInv _ s := bellInv_run hrun
  rw [run_append, Option.bind_eq_some_iff] at hrun
  obtain ⟨v, hfirst, hafter⟩ := hrun
  rw [run_append, Option.bind_eq_some_iff] at hfirst
  obtain ⟨u, hbefore, hasked⟩ := hfirst
  obtain ⟨t, hquery, -⟩ := (run_cons_eq_some _).mp hasked
  obtain ⟨hdone, hids⟩ := answer_after_query hquery hasked
  have hbeforeInv : BellInv before u := bellInv_run hbefore
  have hperm : (order.map Announcement.id).Perm (insertedIds before) := by
    cases bellStep_sound hquery with
    | query hrequest horder => exact hbeforeInv.table ▸ horder.map _
  have hrows : insertedIds (before ++ (.query order :: between ++ [.answer]) ++ after) =
      insertedIds (before ++ between ++ after) := by
    simp [insertedIds]
  have hnewest : newest.Nodup :=
    (hperm.nodup_iff.mpr hbeforeInv.nodup).sublist ((List.take_sublist 20 order).map _)
  have hframes : (receivedIds after).Nodup := by
    have honce := hinv.once
    rw [receivedIds_append] at honce
    exact honce.of_append_right
  refine ⟨?_, fun id => ?_, fun id => hperm.mem_iff, fun id hid => ?_⟩
  · rw [receives_run hafter hdone (by rw [hids, List.length_map]; exact List.length_take_le 20 _),
      hids]
  · have hcopies : ∀ {l : List Nat}, l.Nodup → l.count id = if id ∈ l then 1 else 0 :=
      fun hl => List.Nodup.count hl
    rw [List.count_append, List.count_reverse, hcopies hframes, hcopies hnewest, Nat.add_comm]
  · rcases List.mem_append.mp hid with hframe | hrow
    · rw [← hrows]
      refine hinv.inserted_of_received ?_
      rw [receivedIds_append, List.mem_append]
      exact Or.inr (List.mem_reverse.mp hframe)
    · obtain ⟨a, ha, rfl⟩ := List.mem_map.mp hrow
      have hmem : a.id ∈ insertedIds before :=
        hperm.mem_iff.mp (List.mem_map_of_mem (List.mem_of_mem_take ha))
      rw [insertedIds_append, insertedIds_append, List.mem_append, List.mem_append]
      exact Or.inl (Or.inl hmem)

/-- An announcement with this id. -/
def exampleAnnouncement (id : Nat) : Announcement :=
  ⟨id, "Planned downtime", "info", "u1", 1700000000 + id⟩

/-- The first announcement is in the list, the second comes before its answer. -/
def exampleBefore : List BellAction :=
  [.mount, .insert (exampleAnnouncement 1), .ask]

/-- The second is inserted after the query, and its frame comes before the answer. -/
def exampleBetween : List BellAction :=
  [.insert (exampleAnnouncement 2), .broadcast 2, .receive 2]

/-- The first is broadcast after the answer. -/
def exampleAfter : List BellAction := [.broadcast 1, .receive 1]

/-- The bell shows the first announcement twice and the second one not at all. -/
theorem announcement_bell_example :
    ∃ s, run (bellStep true) BellState.start
        (exampleBefore ++ (.query [exampleAnnouncement 1] :: exampleBetween ++ [.answer]) ++
          exampleAfter) = some s ∧ s.ids = [1, 1] ∧
      (∀ id ∈ [1, 1], id ∈ insertedIds (exampleBefore ++ exampleBetween ++ exampleAfter)) := by
  refine ⟨_, rfl, by decide, ?_⟩
  exact (announcement_bell true exampleBefore exampleBetween exampleAfter [exampleAnnouncement 1] _
    rfl).2.2.2

end IdpForge
