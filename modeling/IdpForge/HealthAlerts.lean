import IdpForge.LeaderLease
import Mathlib.Data.List.Chain

/-!
# Health Alerts

Every instance of the server remembers, for each health check, whether it was passed the last
time this instance looked. It looks when it starts, and at the ticks at which it holds the
lease; there it announces each check whose outcome is another than it remembers. What the
other instances have announced in the meantime it does not know, and what it has seen it
remembers whether or not its own announcement went through.

A tick is one step: the lease keeps the ticks of leaders apart. Whether an instance leads is
left open, as is the end of each post. The text of an announcement is made of the result it is
about, and only the result is kept.

## Main results

* `alertLoop_about`: what a tick of the leader announces.
* `announces_truly_iff`: the runs along which the announcements of each check alternate, and
  agree with the outcomes after every tick whose posts succeed.
* `announces_truly_of_one_leader`: a leader that never changes and whose posts never fail.
-/

open PartialMap TransitionSystem

namespace IdpForge

/-- `health.CheckResult`. -/
structure CheckResult where
  name : String
  ok : Bool
  error : String
  deriving DecidableEq, Repr

/-- The names of the registered checks, the keys of a map. -/
structure HealthChecks where
  names : List String
  nodup : names.Nodup

/-- `Checker.Run`, where the checks come in some order. An outcome is the text of an error, or
`none`. -/
def checkerRun (outcomes : String → Option String) (order : List String) : List CheckResult :=
  order.map fun name => ⟨name, (outcomes name).isNone, (outcomes name).getD ""⟩

/-- The map an instance starts with; a name that is missing counts as `false`. -/
def seedPrevOK (seed : List CheckResult) : String → Bool :=
  seed.foldl (fun prevOK r => Function.update prevOK r.name r.ok) fun _ => false

/-- What the body of a tick works on: `prevOK`, the announcements in the database, the latest
first, and whether no post has failed so far. -/
structure AlertLoop where
  prevOK : String → Bool
  announcements : List CheckResult
  posted : Bool

/-- The body of the loop over the results. A post ends like any statement: it may fail, or be
carried out and reported as failed. -/
def AlertLoop.handle (posts : String → StatementEnd) (l : AlertLoop) (r : CheckResult) :
    AlertLoop :=
  let was := l.prevOK r.name
  let l := { l with prevOK := Function.update l.prevOK r.name r.ok }
  if was = r.ok then l
  else
    { l with
      announcements :=
        if (posts r.name).executes then r :: l.announcements else l.announcements
      posted := l.posted && posts r.name = .done }

/-- The loop over the results of a tick. -/
def alertLoop (posts : String → StatementEnd) (prevOK : String → Bool)
    (announcements results : List CheckResult) : AlertLoop :=
  results.foldl (AlertLoop.handle posts) ⟨prevOK, announcements, true⟩

/-- The outcomes of the checks at this time, the instances that have started, with their
`prevOK`, and the announcements in the database, the latest first. If the last step was a tick
of the leader whose posts all succeeded, `settled` has its results. -/
structure AlertState where
  outcomes : String → Option String
  instances : Nat → Option (String → Bool)
  announcements : List CheckResult
  settled : Option (List CheckResult)

/-- The outcomes change, an instance starts, or it takes a tick, leading or not. -/
inductive AlertAction where
  | setOutcomes (outcomes : String → Option String)
  | start (i : Nat) (order : List String)
  | tick (i : Nat) (leader : Bool) (order : List String) (posts : String → StatementEnd)

/-- A tick of the leader. -/
def AlertState.lead (s : AlertState) (i : Nat) (prevOK : String → Bool) (order : List String)
    (posts : String → StatementEnd) : AlertState :=
  let results := checkerRun s.outcomes order
  let l := alertLoop posts prevOK s.announcements results
  { s with
    instances := Function.update s.instances i (some l.prevOK)
    announcements := l.announcements
    settled := if l.posted then some results else none }

/-- The step function. The checks of a run come in any order. -/
def alertStep (checks : HealthChecks) (s : AlertState) : AlertAction → Option AlertState
  | .setOutcomes outcomes => some { s with outcomes := outcomes, settled := none }
  | .start i order =>
      if order.Perm checks.names then
        some { s with
          instances := Function.update s.instances i
            (some (seedPrevOK (checkerRun s.outcomes order)))
          settled := none }
      else none
  | .tick i leader order posts =>
      if order.Perm checks.names then
        (s.instances i).map fun prevOK =>
          if leader then s.lead i prevOK order posts else { s with settled := none }
      else none

/-- The deployment before its first instance starts. -/
def AlertState.start (outcomes : String → Option String) : AlertState where
  outcomes := outcomes
  instances := fun _ => none
  announcements := []
  settled := none

/-! ### One tick of the leader -/

/-- The announcements about a check. -/
def about (name : String) (announcements : List CheckResult) : List CheckResult :=
  announcements.filter fun a => a.name = name

section Loop

variable (posts : String → StatementEnd) (l : AlertLoop) {r : CheckResult} {name : String}
  {results : List CheckResult}

/-- Other checks are left alone. -/
theorem handle_of_ne (hname : name ≠ r.name) :
    (l.handle posts r).prevOK name = l.prevOK name ∧
      about name (l.handle posts r).announcements = about name l.announcements := by
  have hprev : Function.update l.prevOK r.name r.ok name = l.prevOK name :=
    Function.update_of_ne hname _ _
  rw [AlertLoop.handle]
  dsimp only
  split
  · exact ⟨hprev, rfl⟩
  · refine ⟨hprev, ?_⟩
    split
    · simp [about, hname.symm]
    · rfl

/-- A check whose outcome is another than remembered is announced, if the post is carried
out. -/
theorem handle_self :
    (l.handle posts r).prevOK r.name = r.ok ∧
      about r.name (l.handle posts r).announcements =
        if l.prevOK r.name ≠ r.ok ∧ (posts r.name).executes = true then
          r :: about r.name l.announcements
        else about r.name l.announcements := by
  rw [AlertLoop.handle]
  dsimp only
  split
  · next hsame => simp [hsame]
  · next hother =>
      refine ⟨Function.update_self .., ?_⟩
      by_cases hexecutes : (posts r.name).executes = true
      · simp [about, hother, hexecutes]
      · simp [hexecutes]

/-- The loop leaves other checks alone. -/
theorem foldl_handle_of_not_mem (hname : name ∉ results.map (·.name)) :
    (results.foldl (AlertLoop.handle posts) l).prevOK name = l.prevOK name ∧
      about name (results.foldl (AlertLoop.handle posts) l).announcements =
        about name l.announcements := by
  induction results generalizing l with
  | nil => exact ⟨rfl, rfl⟩
  | cons r results ih =>
      rw [List.map_cons, List.mem_cons, not_or] at hname
      obtain ⟨hprev, habout⟩ := handle_of_ne posts l hname.1
      obtain ⟨hprev', habout'⟩ := ih (l := l.handle posts r) hname.2
      exact ⟨hprev'.trans hprev, habout'.trans habout⟩

/-- Each result is handled once. -/
theorem foldl_handle_of_mem (hnodup : (results.map (·.name)).Nodup) (hr : r ∈ results) :
    (results.foldl (AlertLoop.handle posts) l).prevOK r.name = r.ok ∧
      about r.name (results.foldl (AlertLoop.handle posts) l).announcements =
        if l.prevOK r.name ≠ r.ok ∧ (posts r.name).executes = true then
          r :: about r.name l.announcements
        else about r.name l.announcements := by
  induction results generalizing l with
  | nil => simp at hr
  | cons r' results ih =>
      obtain ⟨hnew, hrest⟩ := List.nodup_cons.mp hnodup
      rcases List.mem_cons.mp hr with rfl | hr
      · obtain ⟨hprev, habout⟩ := handle_self posts l (r := r)
        obtain ⟨hprev', habout'⟩ := foldl_handle_of_not_mem posts (l.handle posts r) hnew
        exact ⟨hprev'.trans hprev, habout'.trans habout⟩
      · have hne : r.name ≠ r'.name := fun heq => hnew (List.mem_map.mpr ⟨r, hr, heq⟩)
        obtain ⟨hprev, habout⟩ := handle_of_ne posts l hne
        obtain ⟨hprev', habout'⟩ := ih (l := l.handle posts r') hrest hr
        rw [hprev, habout] at habout'
        exact ⟨hprev', habout'⟩

/-- The posts that the loop attempts have all succeeded. -/
theorem foldl_handle_posted (hnodup : (results.map (·.name)).Nodup) :
    (results.foldl (AlertLoop.handle posts) l).posted = true ↔
      l.posted = true ∧ ∀ r ∈ results, l.prevOK r.name ≠ r.ok → posts r.name = .done := by
  induction results generalizing l with
  | nil => simp
  | cons r results ih =>
      obtain ⟨hnew, hrest⟩ := List.nodup_cons.mp hnodup
      have hprev : ∀ r' ∈ results, (l.handle posts r).prevOK r'.name = l.prevOK r'.name := by
        intro r' hr'
        exact (handle_of_ne posts l fun heq => hnew (List.mem_map.mpr ⟨r', hr', heq⟩)).1
      have hposted : (l.handle posts r).posted = true ↔
          l.posted = true ∧ (l.prevOK r.name ≠ r.ok → posts r.name = .done) := by
        rw [AlertLoop.handle]
        dsimp only
        split
        · next hsame => simp [hsame]
        · next hother => simp [hother]
      rw [List.foldl_cons, ih _ hrest, hposted, List.forall_mem_cons, and_assoc]
      refine and_congr_right fun _ => and_congr_right fun _ => ?_
      exact forall₂_congr fun r' hr' => by rw [hprev r' hr']

end Loop

/-! ### What the announcements should be -/

/-- The latest announcement about a check. -/
def latest (name : String) (announcements : List CheckResult) : Option CheckResult :=
  (about name announcements).head?

/-- The announcements of each check alternate between failing and recovered. After a tick of
the leader whose posts all succeeded, the latest one about a check agrees with the tick's
outcome. -/
structure AlertState.AnnouncesTruly (s : AlertState) : Prop where
  alternate : ∀ name, (about name s.announcements).IsChain fun a b => a.ok ≠ b.ok
  agree : ∀ results, s.settled = some results → ∀ r ∈ results,
    ∀ a ∈ latest r.name s.announcements, a.ok = r.ok

/-- At a tick, the leader remembers of a check what the latest announcement about it says: of
every check that it goes on to announce, and of all of them unless one of its posts fails. -/
def AlertState.RemembersAnnounced (s : AlertState) : AlertAction → Prop
  | .tick i true order posts => ∀ prevOK ∈ s.instances i,
      ∀ r ∈ checkerRun s.outcomes order,
        (prevOK r.name ≠ r.ok ∧ (posts r.name).executes = true) ∨
            (∀ r' ∈ checkerRun s.outcomes order,
              prevOK r'.name ≠ r'.ok → posts r'.name = .done) →
          ∀ a ∈ latest r.name s.announcements, a.ok = prevOK r.name
  | .tick _ false _ _ | .setOutcomes _ | .start _ _ => True

instance (s : AlertState) (a : AlertAction) : Decidable (s.RemembersAnnounced a) :=
  match a with
  | .tick i true order _ =>
      inferInstanceAs (Decidable (∀ prevOK ∈ s.instances i,
        ∀ r ∈ checkerRun s.outcomes order, _ → ∀ a ∈ latest r.name s.announcements, _))
  | .tick _ false _ _ => inferInstanceAs (Decidable True)
  | .setOutcomes _ => inferInstanceAs (Decidable True)
  | .start _ _ => inferInstanceAs (Decidable True)

section Announcements

variable {checks : HealthChecks} {s s' : AlertState} {i : Nat} {prevOK : String → Bool}
  {order : List String} {posts : String → StatementEnd}

/-- A run has one result for each check. -/
theorem checkerRun_names (outcomes : String → Option String) (order : List String) :
    (checkerRun outcomes order).map (·.name) = order := by
  rw [checkerRun, List.map_map]
  exact List.map_id' order

/-- The announcements about a check after a tick of the leader. -/
theorem about_lead (i : Nat) (prevOK : String → Bool) (posts : String → StatementEnd)
    (horder : order.Nodup) {r : CheckResult} (hr : r ∈ checkerRun s.outcomes order) :
    about r.name (s.lead i prevOK order posts).announcements =
      if prevOK r.name ≠ r.ok ∧ (posts r.name).executes = true then
        r :: about r.name s.announcements
      else about r.name s.announcements :=
  (foldl_handle_of_mem posts _ (by rwa [checkerRun_names]) hr).2

/-- Other announcements are left alone. -/
theorem about_lead_of_not_mem {name : String} (hname : name ∉ order) :
    about name (s.lead i prevOK order posts).announcements = about name s.announcements :=
  (foldl_handle_of_not_mem posts _ (by rwa [checkerRun_names])).2

/-- A tick of the leader settles its results if every post that it attempts succeeds. -/
theorem settled_lead_iff (horder : order.Nodup) {results : List CheckResult} :
    (s.lead i prevOK order posts).settled = some results ↔
      results = checkerRun s.outcomes order ∧ ∀ r ∈ checkerRun s.outcomes order,
        prevOK r.name ≠ r.ok → posts r.name = .done := by
  have hposted : (alertLoop posts prevOK s.announcements (checkerRun s.outcomes order)).posted =
      true ↔ ∀ r ∈ checkerRun s.outcomes order, prevOK r.name ≠ r.ok → posts r.name = .done := by
    refine (foldl_handle_posted posts _ ?_).trans (and_iff_right rfl)
    rwa [checkerRun_names]
  rw [← hposted]
  simp only [AlertState.lead]
  split
  · next hall => simp [hall, eq_comm]
  · next hfailed => simp [hfailed]

/-- What is announced as another outcome was announced as the one remembered. -/
theorem eq_was_of_isChain {r a : CheckResult} {announcements : List CheckResult} {was : Bool}
    (hother : was ≠ r.ok)
    (h : (r :: announcements).IsChain fun a b => a.ok ≠ b.ok) (ha : a ∈ announcements.head?) :
    a.ok = was := by
  have hne : r.ok ≠ a.ok := (List.isChain_cons.mp h).1 a ha
  revert hother hne
  cases a.ok <;> cases r.ok <;> cases was <;> decide

/-- **What a leader must remember.** -/
theorem announcesTruly_lead_iff (horder : order.Nodup) (h : s.AnnouncesTruly)
    (hprevOK : s.instances i = some prevOK) :
    (s.lead i prevOK order posts).AnnouncesTruly ↔
      s.RemembersAnnounced (.tick i true order posts) := by
  constructor
  · intro h' prevOK' hprevOK' r hr hannounced a ha
    obtain rfl := Option.some.inj (hprevOK.symm.trans hprevOK')
    have habout := about_lead i prevOK posts horder hr
    have hchain := h'.alternate r.name
    have hnew : prevOK r.name ≠ r.ok → (posts r.name).executes = true → a.ok = prevOK r.name := by
      intro hother hexecutes
      rw [habout, if_pos ⟨hother, hexecutes⟩] at hchain
      exact eq_was_of_isChain hother hchain ha
    rcases hannounced with ⟨hother, hexecutes⟩ | hall
    · exact hnew hother hexecutes
    · by_cases hsame : prevOK r.name = r.ok
      · rw [if_neg (fun hchanged => hchanged.1 hsame)] at habout
        have hlatest : a ∈ latest r.name (s.lead i prevOK order posts).announcements := by
          rw [latest, habout]
          exact ha
        exact (h'.agree _ ((settled_lead_iff horder).mpr ⟨rfl, hall⟩) r hr a hlatest).trans
          hsame.symm
      · exact hnew hsame (by rw [hall r hr hsame]; rfl)
  · intro hremembers
    refine ⟨fun name => ?_, ?_⟩
    · by_cases hname : name ∈ order
      · rw [← checkerRun_names s.outcomes order] at hname
        obtain ⟨r, hr, rfl⟩ := List.mem_map.mp hname
        rw [about_lead i prevOK posts horder hr]
        split
        · next hchanged =>
            refine List.isChain_cons.mpr ⟨fun a ha => ?_, h.alternate r.name⟩
            have hwas : a.ok = prevOK r.name :=
              hremembers prevOK hprevOK r hr (Or.inl hchanged) a ha
            exact fun heq => hchanged.1 (hwas.symm.trans heq.symm)
        · exact h.alternate r.name
      · rw [about_lead_of_not_mem hname]
        exact h.alternate name
    · intro results hsettled r hr a ha
      obtain ⟨rfl, hall⟩ := (settled_lead_iff horder).mp hsettled
      rw [latest, about_lead i prevOK posts horder hr] at ha
      by_cases hsame : prevOK r.name = r.ok
      · rw [if_neg (fun hchanged => hchanged.1 hsame)] at ha
        exact (hremembers prevOK hprevOK r hr (Or.inr hall) a ha).trans hsame
      · rw [if_pos ⟨hsame, by rw [hall r hr hsame]; rfl⟩] at ha
        exact congrArg CheckResult.ok (Option.some.inj ha).symm

/-- Without an announcement, nothing is untrue. -/
theorem announcesTruly_start (outcomes : String → Option String) :
    (AlertState.start outcomes).AnnouncesTruly where
  alternate := fun _ => List.IsChain.nil
  agree := by simp [AlertState.start]

/-- **What keeps the announcements true.** -/
theorem announcesTruly_step_iff {a : AlertAction} (h : s.AnnouncesTruly)
    (hstep : alertStep checks s a = some s') : s'.AnnouncesTruly ↔ s.RemembersAnnounced a := by
  cases a with
  | setOutcomes outcomes =>
      obtain rfl := Option.some.inj hstep
      exact ⟨fun _ => trivial, fun _ => ⟨h.alternate, by simp⟩⟩
  | start i order =>
      rw [alertStep] at hstep
      split at hstep
      · obtain rfl := Option.some.inj hstep
        exact ⟨fun _ => trivial, fun _ => ⟨h.alternate, by simp⟩⟩
      · simp at hstep
  | tick i leader order posts =>
      rw [alertStep] at hstep
      split at hstep
      · next hperm =>
          obtain ⟨prevOK, hprevOK, rfl⟩ := Option.map_eq_some_iff.mp hstep
          cases leader with
          | true => exact announcesTruly_lead_iff (hperm.nodup_iff.mpr checks.nodup) h hprevOK
          | false => exact ⟨fun _ => trivial, fun _ => ⟨h.alternate, by simp⟩⟩
      · simp at hstep

/-- **When health announcements track the truth.** Take any run of any number of instances,
with any outcomes, leaders and failures of posts. All along it the announcements of each check
alternate, and agree with the outcomes after every tick whose posts succeed, if and only if at
every tick the leader remembers what the latest announcements say. -/
theorem announces_truly_iff {as : List AlertAction} (h : s.AnnouncesTruly)
    (hrun : run (alertStep checks) s as = some s') :
    AlongRun (alertStep checks) AlertState.AnnouncesTruly s as ↔
      Guarded (alertStep checks) AlertState.RemembersAnnounced s as := by
  refine alongRun_iff_guarded (I := fun _ => True) (fun _ _ _ _ _ _ => trivial) ?_ trivial h
    (guarded_true s as) hrun
  exact fun t a t' _ ht _ hstep => announcesTruly_step_iff ht hstep

/-! ### One leader -/

/-- The action is one of a deployment in which this instance leads all the time, does not
start again, and its posts never fail. -/
def AlertAction.LedBy (i : Nat) : AlertAction → Prop
  | .setOutcomes _ => True
  | .start j _ => j ≠ i
  | .tick j leader _ posts => leader = true → j = i ∧ ∀ name, posts name = .done

/-- The instance remembers what the latest announcements say. -/
def AlertState.UpToDate (s : AlertState) (i : Nat) : Prop :=
  ∃ prevOK, s.instances i = some prevOK ∧
    ∀ name, ∀ a ∈ latest name s.announcements, a.ok = prevOK name

/-- A leader whose posts succeed remembers what it has announced. -/
theorem upToDate_lead (horder : order.Nodup) (hdone : ∀ name, posts name = .done)
    (hlatest : ∀ name, ∀ a ∈ latest name s.announcements, a.ok = prevOK name) :
    (s.lead i prevOK order posts).UpToDate i := by
  refine ⟨_, Function.update_self .., fun name a ha => ?_⟩
  have hnodup : ((checkerRun s.outcomes order).map (·.name)).Nodup := by rwa [checkerRun_names]
  by_cases hname : name ∈ order
  · rw [← checkerRun_names s.outcomes order] at hname
    obtain ⟨r, hr, rfl⟩ := List.mem_map.mp hname
    rw [latest, about_lead i prevOK posts horder hr] at ha
    refine Eq.trans ?_ (foldl_handle_of_mem posts _ hnodup hr).1.symm
    split at ha
    · exact congrArg CheckResult.ok (Option.some.inj ha).symm
    · next hkept =>
        have hsame : prevOK r.name = r.ok := by
          by_contra hother
          exact hkept ⟨hother, by rw [hdone]; rfl⟩
        exact (hlatest r.name a ha).trans hsame
  · rw [latest, about_lead_of_not_mem hname] at ha
    have hprev : (alertLoop posts prevOK s.announcements (checkerRun s.outcomes order)).prevOK
        name = prevOK name :=
      (foldl_handle_of_not_mem posts _ (by rwa [checkerRun_names])).1
    exact (hlatest name a ha).trans hprev.symm

/-- The instance stays up to date. -/
theorem AlertState.UpToDate.step {a : AlertAction} (h : s.UpToDate i) (ha : a.LedBy i)
    (hstep : alertStep checks s a = some s') : s'.UpToDate i := by
  obtain ⟨prevOK, hprevOK, hlatest⟩ := h
  cases a with
  | setOutcomes outcomes => exact Option.some.inj hstep ▸ ⟨prevOK, hprevOK, hlatest⟩
  | start j order =>
      rw [alertStep] at hstep
      split at hstep
      · obtain rfl := Option.some.inj hstep
        exact ⟨prevOK, (Function.update_of_ne (Ne.symm ha) _ _).trans hprevOK, hlatest⟩
      · simp at hstep
  | tick j leader order posts =>
      rw [alertStep] at hstep
      split at hstep
      · next hperm =>
          obtain ⟨prevOK', hprevOK', rfl⟩ := Option.map_eq_some_iff.mp hstep
          cases leader with
          | true =>
              obtain ⟨rfl, hdone⟩ := ha rfl
              obtain rfl := Option.some.inj (hprevOK.symm.trans hprevOK')
              exact upToDate_lead (hperm.nodup_iff.mpr checks.nodup) hdone hlatest
          | false => exact ⟨prevOK, hprevOK, hlatest⟩
      · simp at hstep

/-- One leader that is up to date, does not start again and whose posts never fail keeps the
announcements true, whatever the other instances do. -/
theorem announces_truly_of_one_leader {as : List AlertAction} (h : s.AnnouncesTruly)
    (hi : s.UpToDate i) (has : ∀ a ∈ as, a.LedBy i)
    (hrun : run (alertStep checks) s as = some s') :
    AlongRun (alertStep checks) AlertState.AnnouncesTruly s as := by
  refine (announces_truly_iff h hrun).mpr
    (guarded_of_invariant (P := fun t => t.UpToDate i) ?_ ?_ hi has)
  · intro t a ⟨prevOK, hprevOK, hlatest⟩ ha
    cases a with
    | setOutcomes outcomes => trivial
    | start j order => trivial
    | tick j leader order posts =>
        cases leader with
        | false => trivial
        | true =>
            obtain ⟨rfl, -⟩ := ha rfl
            intro prevOK' hprevOK' r _ _ a ha
            obtain rfl := Option.some.inj (hprevOK.symm.trans hprevOK')
            exact hlatest r.name a ha
  · exact fun t a t' ht ha hstep => ht.step ha hstep

end Announcements

/-! ### An example -/

/-- The check of the database alone. -/
def exampleChecks : HealthChecks := ⟨["database"], by simp⟩

/-- The database cannot be reached. -/
def exampleOutage : AlertAction :=
  .setOutcomes fun name => if name = "database" then some "connection refused" else none

/-- A tick of the leader whose posts succeed. -/
def exampleLead (i : Nat) : AlertAction := .tick i true ["database"] fun _ => .done

/-- Two instances have started when the database fails, and the first one announces it. -/
def exampleAnnounced : List AlertAction :=
  [.start 0 ["database"], .start 1 ["database"], exampleOutage, exampleLead 0]

/-- The first announcement is true, and so is what follows while the same instance leads. A
second leader announces the same failure once more. -/
theorem announces_truly_iff_example :
    ∃ s s', run (alertStep exampleChecks) (.start fun _ => none)
        (exampleAnnounced ++ [.tick 1 false ["database"] fun _ => .done, exampleLead 0]) = some s ∧
      AlongRun (alertStep exampleChecks) AlertState.AnnouncesTruly (.start fun _ => none)
        (exampleAnnounced ++ [.tick 1 false ["database"] fun _ => .done, exampleLead 0]) ∧
      run (alertStep exampleChecks) (.start fun _ => none) (exampleAnnounced ++ [exampleLead 1]) =
        some s' ∧
      ¬ AlongRun (alertStep exampleChecks) AlertState.AnnouncesTruly (.start fun _ => none)
        (exampleAnnounced ++ [exampleLead 1]) := by
  have hsame : (run (alertStep exampleChecks) (.start fun _ => none)
      (exampleAnnounced ++ [.tick 1 false ["database"] fun _ => .done, exampleLead 0])).isSome =
        true := by
    decide +kernel
  have hother : (run (alertStep exampleChecks) (.start fun _ => none)
      (exampleAnnounced ++ [exampleLead 1])).isSome = true := by
    decide +kernel
  obtain ⟨s, hs⟩ := Option.isSome_iff_exists.mp hsame
  obtain ⟨s', hs'⟩ := Option.isSome_iff_exists.mp hother
  refine ⟨s, s', hs, ?_, hs', ?_⟩
  · rw [announces_truly_iff (announcesTruly_start _) hs]
    decide +kernel
  · rw [announces_truly_iff (announcesTruly_start _) hs']
    decide +kernel

/-- The result that the outage leads to. -/
def exampleFailure : CheckResult := ⟨"database", false, "connection refused"⟩

/-- After a handover the same failure is announced twice. After a post that failed, a tick
whose posts succeed leaves the database announced as recovered while it is down. -/
theorem announcements_untrue :
    (∃ s, run (alertStep exampleChecks) (.start fun _ => none)
        (exampleAnnounced ++ [exampleLead 1]) = some s ∧
      about "database" s.announcements = [exampleFailure, exampleFailure] ∧
      ¬ s.AnnouncesTruly) ∧
    ∃ s, run (alertStep exampleChecks) (.start fun _ => none)
        (exampleAnnounced ++ [.setOutcomes fun _ => none, exampleLead 0, exampleOutage,
          .tick 0 true ["database"] fun _ => .failed, exampleLead 0]) = some s ∧
      s.settled = some [exampleFailure] ∧
      latest "database" s.announcements = some ⟨"database", true, ""⟩ ∧ ¬ s.AnnouncesTruly := by
  constructor
  · have hrun : (run (alertStep exampleChecks) (.start fun _ => none)
        (exampleAnnounced ++ [exampleLead 1])).any (fun s =>
          about "database" s.announcements = [exampleFailure, exampleFailure]) = true := by
      decide +kernel
    obtain ⟨s, hs, habout⟩ := (Option.any_eq_true _ _).mp hrun
    rw [decide_eq_true_eq] at habout
    refine ⟨s, hs, habout, fun h => ?_⟩
    have hchain := h.alternate "database"
    rw [habout] at hchain
    simp at hchain
  · have hrun : (run (alertStep exampleChecks) (.start fun _ => none)
        (exampleAnnounced ++ [.setOutcomes fun _ => none, exampleLead 0, exampleOutage,
          .tick 0 true ["database"] fun _ => .failed, exampleLead 0])).any (fun s =>
          decide (s.settled = some [exampleFailure]) &&
          decide (latest "database" s.announcements = some ⟨"database", true, ""⟩)) = true := by
      decide +kernel
    obtain ⟨s, hs, hlast⟩ := (Option.any_eq_true _ _).mp hrun
    rw [Bool.and_eq_true, decide_eq_true_eq, decide_eq_true_eq] at hlast
    obtain ⟨hsettled, hlatest⟩ := hlast
    refine ⟨s, hs, hsettled, hlatest, fun h => ?_⟩
    have hagree := h.agree _ hsettled exampleFailure List.mem_cons_self _ hlatest
    simp [exampleFailure] at hagree

end IdpForge
