import IdpForge.PasswordChanges

/-!
# How Long a Session Lives

A login stores a session for `sessionTTL`, and a logout removes it. A change of password
writes the session of its cookie once more, for a new lifetime and without looking whether it
is still there: a session that was logged out in the meantime comes back, and one that was not
outlives its login by more than `sessionTTL`.

## Main results

* `sessions_bounded_iff`: the runs along which sessions live only between their login and the
  earlier of their logout and their expiry.
-/

open PartialMap TransitionSystem

namespace IdpForge

/-- A lookup, now or later, finds a session only if a login created it, no longer ago than
`sessionTTL`, and no logout destroyed it. -/
def ChangeServer.SessionsBounded (w : ChangeServer) : Prop :=
  ∀ id t data, w.now ≤ t → get w.server.sessions t id = some data →
    id ∉ w.destroyed ∧ ∃ t₀, (id, t₀) ∈ w.created ∧ t₀ ≤ t ∧ t ≤ t₀ + sessionTTL

/-- If the step writes a session again, a login created it in this very instant and no logout
destroyed it. -/
def RewritesLiveSession (w : ChangeServer) : ChangeAction → Prop
  | .clearFlag r ctx =>
      ctx.fails .storeSession = false → ∀ call ∈ w.callAt r .clearing,
        call.cookie ∉ w.destroyed ∧ (call.cookie, w.now) ∈ w.created
  | .request _ | .begin .. | .read .. | .compare .. | .setPassword .. => True

instance (w : ChangeServer) (a : ChangeAction) : Decidable (RewritesLiveSession w a) :=
  match a with
  | .clearFlag r _ =>
      inferInstanceAs (Decidable (_ → ∀ call ∈ w.callAt r .clearing, _ ∧ _))
  | .request _ => inferInstanceAs (Decidable True)
  | .begin .. => inferInstanceAs (Decidable True)
  | .read .. => inferInstanceAs (Decidable True)
  | .compare .. => inferInstanceAs (Decidable True)
  | .setPassword .. => inferInstanceAs (Decidable True)

/-- No session was created in the future. -/
def ChangeServer.CreatedBefore (w : ChangeServer) : Prop :=
  ∀ id t₀, (id, t₀) ∈ w.created → t₀ ≤ w.now

section Lifetime

variable {cfg : AccountConfig} {w w' : ChangeServer}

/-- Sessions are created at the time of their login. -/
theorem ChangeServer.CreatedBefore.step {a : ChangeAction} (h : w.CreatedBefore)
    (hstep : ChangeStep cfg w a w') : w'.CreatedBefore := by
  cases hstep with
  | request hserver hcalls hsessions ha =>
      cases hsessions with
      | kept _ hnow hcreated =>
          intro id t₀ hmem
          exact (h id t₀ (hcreated ▸ hmem)).trans hnow
      | created _ _ hnow hcreated =>
          intro id t₀ hmem
          rw [hcreated] at hmem
          rw [hnow]
          rcases List.mem_cons.mp hmem with heq | hold
          · exact (Prod.mk.inj heq).2.le
          · exact h id t₀ hold
      | destroyed _ hnow hcreated =>
          intro id t₀ hmem
          exact hnow ▸ h id t₀ (hcreated ▸ hmem)
  | ended => exact h
  | begun => exact h
  | read => exact h
  | compared => exact h
  | set => exact h
  | cleared => exact h

/-- Requests other than changes of password keep sessions within their bounds. -/
theorem SessionsStep.bounded (hstep : SessionsStep w w') (h : w.SessionsBounded) :
    w'.SessionsBounded := by
  intro id t data ht hget
  cases hstep with
  | kept hsessions hnow hcreated hdestroyed =>
      rw [hsessions] at hget
      rw [hcreated, hdestroyed]
      exact h id t data (hnow.trans ht) hget
  | @created id' data' hfresh hsessions hnow hcreated hdestroyed =>
      rw [hnow] at ht
      rw [hsessions] at hget
      rw [hcreated, hdestroyed]
      rcases (get_set_iff (by decide)).mp hget with ⟨rfl, -, hexpires⟩ | ⟨-, hold⟩
      · have hnew : id ∉ w.destroyed := (of_decide_eq_true hfresh).2
        exact ⟨hnew, w.now, List.mem_cons_self, ht, hexpires⟩
      · obtain ⟨hlive, t₀, hmem, hbounds⟩ := h id t data ht hold
        exact ⟨hlive, t₀, List.mem_cons_of_mem _ hmem, hbounds⟩
  | @destroyed id' hsessions hnow hcreated hdestroyed =>
      rw [hnow] at ht
      rw [hsessions] at hget
      rw [hcreated, hdestroyed]
      obtain ⟨hne, hold⟩ := get_delete_iff.mp hget
      obtain ⟨hlive, hbounds⟩ := h id t data ht hold
      exact ⟨by simp [hne, hlive], hbounds⟩

/-- A session written again is within its bounds only if its login was in this instant, and it
was not destroyed. -/
theorem bounded_setSession_iff {id : String} {data : SessionData}
    (hcreated : w.CreatedBefore) (h : w.SessionsBounded) :
    ({ w with server := w.server.setSession id data } : ChangeServer).SessionsBounded ↔
      id ∉ w.destroyed ∧ (id, w.now) ∈ w.created := by
  constructor
  · intro hbounded
    -- the last lookup that still finds the session leaves one login only
    obtain ⟨hlive, t₀, hmem, -, hexpires⟩ := hbounded id (w.now + sessionTTL) data
      (by simp [ChangeServer.now, ServerState.setSession, ServerState.now, sessionTTL])
      ((get_set_iff (by decide)).mpr (Or.inl ⟨rfl, rfl, le_rfl⟩))
    obtain rfl : t₀ = w.now := le_antisymm (hcreated id t₀ hmem) (by omega)
    exact ⟨hlive, hmem⟩
  · rintro ⟨hlive, hmem⟩ id' t data' ht hget
    rcases (get_set_iff (by decide)).mp hget with ⟨rfl, -, hexpires⟩ | ⟨-, hold⟩
    · exact ⟨hlive, w.now, hmem, ht, hexpires⟩
    · exact h id' t data' ht hold

/-- **What keeps sessions within their bounds.** -/
theorem bounded_iff_rewritesLiveSession {a : ChangeAction} (hcreated : w.CreatedBefore)
    (h : w.SessionsBounded) (hstep : ChangeStep cfg w a w') :
    w'.SessionsBounded ↔ RewritesLiveSession w a := by
  cases hstep with
  | request hserver hcalls hsessions ha => exact ⟨fun _ => trivial, fun _ => hsessions.bounded h⟩
  | ended hnothing =>
      refine ⟨fun _ => ?_, fun _ => h⟩
      cases a with
      | clearFlag r ctx => exact fun hok => absurd (hnothing.symm.trans hok) (by decide)
      | _ => trivial
  | begun => exact ⟨fun _ => trivial, fun _ => h⟩
  | read => exact ⟨fun _ => trivial, fun _ => h⟩
  | compared => exact ⟨fun _ => trivial, fun _ => h⟩
  | set => exact ⟨fun _ => trivial, fun _ => h⟩
  | cleared hcall hok =>
      refine (bounded_setSession_iff hcreated h).trans ?_
      simp [RewritesLiveSession, callAt_eq_some.mpr hcall, hok]

end Lifetime

/-- **When sessions live no longer than they should.** Along every run from the start, any
lookup of a session falls between its login and the earlier of its logout and its expiry if
and only if no change of password writes a session that a logout has destroyed, or one whose
login was in an earlier instant. -/
theorem sessions_bounded_iff {cfg : AccountConfig} {now : Int} {clients : List OidcClient}
    {users : List UserRow} {as : List ChangeAction} {w : ChangeServer}
    (hrun : run (changeStep cfg) (.start now clients users) as = some w) :
    AlongRun (changeStep cfg) ChangeServer.SessionsBounded (.start now clients users) as ↔
      Guarded (changeStep cfg) RewritesLiveSession (.start now clients users) as := by
  refine alongRun_iff_guarded (I := ChangeServer.CreatedBefore) ?_ ?_ ?_ ?_ (guarded_true _ as) hrun
  · exact fun t a t' ht _ hstep => ht.step (changeStep_cases hstep)
  · exact fun t a t' hcreated ht _ hstep =>
      bounded_iff_rewritesLiveSession hcreated ht (changeStep_cases hstep)
  · intro id t₀ hmem
    simp [ChangeServer.start] at hmem
  · intro id t data _ hget
    simp [ChangeServer.start, ServerState.start, PartialMap.get] at hget

/-- The user logs out in the middle of a change of password. -/
def exampleLoggedOut : List ChangeAction :=
  exampleChanging "battery staple" ++ [.request (.logout {} "sid")]

/-- Up to the last step of the change, the session lives as long as it should. -/
theorem sessions_bounded_iff_example :
    ∃ w, run (changeStep exampleHashing) exampleChangeServer exampleLoggedOut = some w ∧
      AlongRun (changeStep exampleHashing) ChangeServer.SessionsBounded exampleChangeServer
        exampleLoggedOut := by
  have hsome : (run (changeStep exampleHashing) exampleChangeServer exampleLoggedOut).isSome =
      true := by
    decide +kernel
  obtain ⟨w, hw⟩ := Option.isSome_iff_exists.mp hsome
  refine ⟨w, hw, ?_⟩
  rw [exampleChangeServer, sessions_bounded_iff hw]
  decide +kernel

/-- The password is changed a minute after the login, and a whole lifetime passes. -/
def exampleOutlived : List ChangeAction :=
  exampleChanging "battery staple" ++ [.request (.oidc (.tick 60)), .clearFlag 0 {},
    .request (.oidc (.tick 28800))]

/-- The last step of a change brings back a session that was logged out, and makes another one
outlive its login by more than `sessionTTL`. -/
theorem sessions_unbounded :
    (∃ w data, run (changeStep exampleHashing) exampleChangeServer
        (exampleLoggedOut ++ [.clearFlag 0 {}]) = some w ∧
      get w.server.sessions w.now "sid" = some data ∧ "sid" ∈ w.destroyed ∧
      ¬ w.SessionsBounded) ∧
    ∃ w data, run (changeStep exampleHashing) exampleChangeServer exampleOutlived = some w ∧
      get w.server.sessions w.now "sid" = some data ∧ w.created = [("sid", 0)] ∧
      0 + sessionTTL < w.now ∧ ¬ w.SessionsBounded := by
  constructor
  · have hrun : (run (changeStep exampleHashing) exampleChangeServer
        (exampleLoggedOut ++ [.clearFlag 0 {}])).any (fun w =>
          (get w.server.sessions w.now "sid").isSome && decide ("sid" ∈ w.destroyed)) = true := by
      decide +kernel
    obtain ⟨w, hw, hfound⟩ := (Option.any_eq_true _ _).mp hrun
    rw [Bool.and_eq_true, Option.isSome_iff_exists, decide_eq_true_eq] at hfound
    obtain ⟨⟨data, hget⟩, hmem⟩ := hfound
    exact ⟨w, data, hw, hget, hmem, fun h => (h "sid" w.now data le_rfl hget).1 hmem⟩
  · have hrun : (run (changeStep exampleHashing) exampleChangeServer exampleOutlived).any
        (fun w => (get w.server.sessions w.now "sid").isSome &&
          decide (w.created = [("sid", 0)] ∧ 0 + sessionTTL < w.now)) = true := by
      decide +kernel
    obtain ⟨w, hw, hfound⟩ := (Option.any_eq_true _ _).mp hrun
    rw [Bool.and_eq_true, Option.isSome_iff_exists, decide_eq_true_eq] at hfound
    obtain ⟨⟨data, hget⟩, hcreated, hlate⟩ := hfound
    refine ⟨w, data, hw, hget, hcreated, hlate, fun h => ?_⟩
    obtain ⟨-, t₀, hmem, -, hexpires⟩ := h "sid" w.now data le_rfl hget
    rw [hcreated] at hmem
    obtain rfl : t₀ = 0 := (Prod.mk.inj (List.mem_singleton.mp hmem)).2
    omega

end IdpForge
