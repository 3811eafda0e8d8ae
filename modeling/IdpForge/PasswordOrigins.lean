import IdpForge.PasswordChanges

/-!
# Where Passwords Come From

The first account is created with the bootstrap password, every other one with the configured
default, and an administrator can only give the default back. A password of somebody's own
choice arrives with a change of password: the owner's session sends it, along with the
password in force.

## Main results

* `passwords_chosen_by_owner`: every password in the table is the bootstrap password of the
  first account, the default, or one that its owner has sent.
* `default_forced_iff`: the runs along which the default password must always be changed.
-/

open PartialMap TransitionSystem

namespace IdpForge

/-! ### The first account -/

/-- `config.BootstrapConfig`. -/
structure BootstrapConfig where
  adminUsername : String
  adminEmail : String
  adminPassword : String
  deriving DecidableEq, Repr

/-- The password of the first account: the configured one, or one that `randomPassword`
generates, `none` when that fails. -/
def BootstrapConfig.password (boot : BootstrapConfig) (generated : Option String) :
    Option String :=
  if boot.adminPassword = "" then generated else some boot.adminPassword

/-- `bootstrap.Run` as far as the users table goes, with the id and the hash that `Create`
draws; `none` when it fails before its end. -/
def bootstrapRun (cfg : AccountConfig) (fails : StoreOp → Bool) (boot : BootstrapConfig)
    (generated : Option String) (rows : List UserRow) (now : Int) (id : String)
    (hash : Option String) : Option (List UserRow) :=
  if 0 < rows.length then some rows
  else
    (boot.password generated).bind fun password =>
      if cfg.hashes password hash then
        hash.bind (usersCreate fails rows now id boot.adminUsername boot.adminEmail "")
      else none

/-- The table after the bootstrap of an empty one has the first account alone. -/
theorem bootstrapRun_eq_some {cfg : AccountConfig} {fails : StoreOp → Bool}
    {boot : BootstrapConfig} {generated hash : Option String} {now : Int} {id : String}
    {users : List UserRow}
    (h : bootstrapRun cfg fails boot generated [] now id hash = some users) :
    ∃ admin password hash, users = [admin] ∧ admin.id = id ∧
      boot.password generated = some password ∧ admin.passwordHash = some hash ∧
      cfg.verifyPassword hash password = true ∧ admin.forcePasswordChange = true := by
  rw [bootstrapRun, if_neg (by simp), Option.bind_eq_some_iff] at h
  obtain ⟨password, hpassword, hrows⟩ := h
  split at hrows
  · next hfits =>
      obtain ⟨hash, rfl, hcreate⟩ := Option.bind_eq_some_iff.mp hrows
      rw [usersCreate] at hcreate
      split at hcreate
      · simp at hcreate
      · obtain rfl := Option.some.inj hcreate
        exact ⟨_, password, hash, rfl, rfl, hpassword, rfl, hfits, rfl⟩
  · simp at hrows

/-! ### The origin of a password -/

section Origin

variable (cfg : AccountConfig) (start : ChangeServer)

/-- A request to change a password has come with the session of its user. -/
def SentByOwner (r : Nat) (call : PendingChange) (as : List ChangeAction) : Prop :=
  Happened (changeStep cfg) start (fun _ w a =>
    ∃ ctx, a = .begin r ctx call.cookie (some (call.currentPassword, call.newPassword)) ∧
      w.server.sessionUser ctx call.cookie = some call.userID) as

/-- The request has been verified: what it gave as the current password was the password that
its user had at that time. -/
def VerifiedByOwner (r : Nat) (call : PendingChange) (as : List ChangeAction) : Prop :=
  Happened (changeStep cfg) start (fun before w a =>
    (∃ ctx, a = .compare r ctx) ∧ SentByOwner cfg start r call before ∧
      ∃ row ∈ w.server.users, row.id = call.userID ∧
        cfg.verifyPassword (row.passwordHash.getD "") call.currentPassword = true) as

/-- Where the password of a user comes from, given by its hash: it is the bootstrap password
of the first account, the default password, or the new password of a request that came with
the user's own session and the password that the user had when it was verified. -/
inductive PasswordOrigin (adminID : String) (bootstrapPassword : Option String)
    (as : List ChangeAction) (userID hash : String) : Prop
  | bootstrap {password : String} (hid : userID = adminID)
      (hpassword : bootstrapPassword = some password)
      (hhash : cfg.verifyPassword hash password = true)
  | default (hconfigured : cfg.defaultPassword ≠ "")
      (hhash : cfg.verifyPassword hash cfg.defaultPassword = true)
  | chosen {r : Nat} {call : PendingChange} (huser : call.userID = userID)
      (hverified : VerifiedByOwner cfg start r call as)
      (hhash : cfg.verifyPassword hash call.newPassword = true)

end Origin

/-! ### What a step adds -/

/-- Where a call under way comes from: it was there before the step, or the step has brought
it to its stage. -/
inductive CallOrigin (cfg : AccountConfig) (w : ChangeServer) (a : ChangeAction) (r : Nat)
    (call : PendingChange) : ChangeStage → Prop
  | kept {stage : ChangeStage} (hcall : w.calls r = some (call, stage)) :
      CallOrigin cfg w a r call stage
  | begun {ctx : RequestContext}
      (ha : a = .begin r ctx call.cookie (some (call.currentPassword, call.newPassword)))
      (hsession : w.server.sessionUser ctx call.cookie = some call.userID) :
      CallOrigin cfg w a r call .reading
  | read {ctx : RequestContext} {user : UserRow} (hcall : w.calls r = some (call, .reading))
      (huser : usersGet ctx.fails w.server.users call.userID = some user) :
      CallOrigin cfg w a r call (.comparing user.username)
  | compared {ctx : RequestContext} {username : String} (ha : a = .compare r ctx)
      (hcall : w.calls r = some (call, .comparing username))
      (hcurrent : w.rejects cfg ctx username call.currentPassword = false) :
      CallOrigin cfg w a r call .setting
  | set (hcall : w.calls r = some (call, .setting)) : CallOrigin cfg w a r call .clearing

section Step

variable {cfg : AccountConfig} {w w' : ChangeServer} {a : ChangeAction} {r : Nat}
  {call : PendingChange} {stage : ChangeStage} {row' : UserRow}

/-- A call that the step has moved, or another one. -/
theorem callOrigin_of_setCall {r' : Nat} {entry : PendingChange × ChangeStage}
    (hcall : (w.setCall r' (some entry)).calls r = some (call, stage))
    (hnew : r = r' → entry = (call, stage) → CallOrigin cfg w a r call stage) :
    CallOrigin cfg w a r call stage := by
  rcases update_eq_some_iff.mp hcall with ⟨rfl, heq⟩ | ⟨-, hold⟩
  · exact hnew rfl (Option.some.inj heq)
  · exact .kept hold

/-- Every call under way after a step comes from somewhere. -/
theorem ChangeStep.callOrigin (hstep : ChangeStep cfg w a w')
    (hcall : w'.calls r = some (call, stage)) : CallOrigin cfg w a r call stage := by
  cases hstep with
  | request hserver hcalls => exact .kept (hcalls ▸ hcall)
  | ended => exact .kept (of_update_none hcall).2
  | begun hsession =>
      refine callOrigin_of_setCall hcall ?_
      rintro rfl heq
      obtain ⟨rfl, rfl⟩ := Prod.mk.inj heq
      exact .begun rfl hsession
  | read hreading huser =>
      refine callOrigin_of_setCall hcall ?_
      rintro rfl heq
      obtain ⟨rfl, rfl⟩ := Prod.mk.inj heq
      exact .read hreading huser
  | compared hcomparing hcurrent =>
      refine callOrigin_of_setCall hcall ?_
      rintro rfl heq
      obtain ⟨rfl, rfl⟩ := Prod.mk.inj heq
      exact .compared rfl hcomparing hcurrent
  | set hsetting =>
      refine callOrigin_of_setCall hcall ?_
      rintro rfl heq
      obtain ⟨rfl, rfl⟩ := Prod.mk.inj heq
      exact .set hsetting
  | cleared => exact .kept (of_update_none hcall).2

/-- A row with a drawn id has been in the table before, under the same user name. -/
theorem ChangeStep.exists_before (hstep : ChangeStep cfg w a w')
    (hrow' : row' ∈ w'.server.users) (hdrawn : row'.id ∈ w.server.userIDs) :
    ∃ row ∈ w.server.users, row.id = row'.id ∧ row.username = row'.username := by
  cases hstep with
  | request hserver => exact (usersStep_cases hserver).exists_before hrow' hdrawn
  | ended => exact ⟨row', hrow', rfl, rfl⟩
  | begun => exact ⟨row', hrow', rfl, rfl⟩
  | read => exact ⟨row', hrow', rfl, rfl⟩
  | compared => exact ⟨row', hrow', rfl, rfl⟩
  | set =>
      obtain ⟨row, hrow, rfl⟩ := List.mem_map.mp hrow'
      exact ⟨row, hrow, by split <;> exact ⟨rfl, rfl⟩⟩
  | cleared => exact ⟨row', hrow', rfl, rfl⟩

/-- A row keeps its password, or has been given the default one, or a call has set the new
password of its user. -/
theorem ChangeStep.password_cases (hstep : ChangeStep cfg w a w')
    (hrow' : row' ∈ w'.server.users) :
    (∃ row ∈ w.server.users, row.id = row'.id ∧ row.passwordHash = row'.passwordHash ∧
        row.forcePasswordChange = row'.forcePasswordChange) ∨
      (cfg.defaultPassword ≠ "" ∧ row'.forcePasswordChange = true ∧
        ∃ hash, row'.passwordHash = some hash ∧
          cfg.verifyPassword hash cfg.defaultPassword = true) ∨
      ∃ r call hash, w.calls r = some (call, .setting) ∧ row'.id = call.userID ∧
        call.userID ∈ w.server.users.map (·.id) ∧ row'.passwordHash = some hash ∧
        cfg.verifyPassword hash call.newPassword = true := by
  cases hstep with
  | request hserver hcalls hsessions ha =>
      exact ((usersStep_cases hserver).password_cases ha hrow').imp_right Or.inl
  | ended => exact Or.inl ⟨row', hrow', rfl, rfl, rfl⟩
  | begun => exact Or.inl ⟨row', hrow', rfl, rfl, rfl⟩
  | read => exact Or.inl ⟨row', hrow', rfl, rfl, rfl⟩
  | compared => exact Or.inl ⟨row', hrow', rfl, rfl, rfl⟩
  | set hcall hhash hok =>
      obtain ⟨row, hrow, rfl⟩ := List.mem_map.mp hrow'
      split
      · next hid =>
          exact Or.inr (Or.inr ⟨_, _, _, hcall, hid, List.mem_map.mpr ⟨row, hrow, hid⟩, rfl,
            hhash⟩)
      · exact Or.inl ⟨row, hrow, rfl, rfl, rfl⟩
  | cleared => exact Or.inl ⟨row', hrow', rfl, rfl, rfl⟩

end Step

section Trace

variable {cfg : AccountConfig} {start w w' : ChangeServer} {as : List ChangeAction}
  {adminID : String} {bootstrapPassword : Option String}

/-- An origin stays one. -/
theorem PasswordOrigin.append {userID hash : String}
    (h : PasswordOrigin cfg start adminID bootstrapPassword as userID hash)
    (bs : List ChangeAction) :
    PasswordOrigin cfg start adminID bootstrapPassword (as ++ bs) userID hash := by
  cases h with
  | bootstrap hid hpassword hhash => exact .bootstrap hid hpassword hhash
  | default hconfigured hhash => exact .default hconfigured hhash
  | chosen huser hverified hhash => exact .chosen huser (hverified.append bs) hhash

/-- What a run leaves behind: the calls under way and the passwords have their origins in
it. -/
structure OriginInv (cfg : AccountConfig) (start : ChangeServer) (adminID : String)
    (bootstrapPassword : Option String) (as : List ChangeAction) (w : ChangeServer) : Prop where
  inv : ChangeInv w
  sent : ∀ r call stage, w.calls r = some (call, stage) → SentByOwner cfg start r call as
  comparing : ∀ r call username, w.calls r = some (call, .comparing username) →
    ∀ row ∈ w.server.users, row.id = call.userID → row.username = username
  setting : ∀ r call, w.calls r = some (call, .setting) →
    call.userID ∈ w.server.users.map (·.id) → VerifiedByOwner cfg start r call as
  rows : ∀ row ∈ w.server.users, ∀ hash, row.passwordHash = some hash →
    PasswordOrigin cfg start adminID bootstrapPassword as row.id hash

/-- **Every step keeps the origins.** -/
theorem OriginInv.step {a : ChangeAction} (h : OriginInv cfg start adminID bootstrapPassword as w)
    (hrun : run (changeStep cfg) start as = some w) (hstep : ChangeStep cfg w a w') :
    OriginInv cfg start adminID bootstrapPassword (as ++ [a]) w' where
  inv := h.inv.step hstep
  sent := by
    intro r call stage hcall
    cases hstep.callOrigin hcall with
    | kept hbefore => exact (h.sent r call stage hbefore).append _
    | begun ha hsession => exact happened_snoc hrun ⟨_, ha, hsession⟩
    | read hbefore huser => exact (h.sent r call _ hbefore).append _
    | compared ha hbefore hcurrent => exact (h.sent r call _ hbefore).append _
    | set hbefore => exact (h.sent r call _ hbefore).append _
  comparing := by
    intro r call username hcall row' hrow' hid
    have hdrawn : call.userID ∈ w.server.userIDs := by
      cases hstep.callOrigin hcall with
      | kept hbefore => exact h.inv.calls r call _ hbefore
      | read hbefore huser => exact h.inv.calls r call _ hbefore
    obtain ⟨row, hrow, hsame, hname⟩ := hstep.exists_before hrow' (hid ▸ hdrawn)
    rw [← hname]
    cases hstep.callOrigin hcall with
    | kept hbefore => exact h.comparing r call username hbefore row hrow (hsame.trans hid)
    | read hbefore huser =>
        obtain ⟨hmem, huserid⟩ := usersGet_mem huser
        exact congrArg UserRow.username
          (h.inv.keyed.eq_of_id hrow hmem (hsame.trans (hid.trans huserid.symm)))
  setting := by
    intro r call hcall hmem
    obtain ⟨row', hrow', hid⟩ := List.mem_map.mp hmem
    have hdrawn : call.userID ∈ w.server.userIDs := by
      cases hstep.callOrigin hcall with
      | kept hbefore => exact h.inv.calls r call _ hbefore
      | compared ha hbefore hcurrent => exact h.inv.calls r call _ hbefore
    obtain ⟨row, hrow, hsame, -⟩ := hstep.exists_before hrow' (hid ▸ hdrawn)
    cases hstep.callOrigin hcall with
    | kept hbefore =>
        exact (h.setting r call hbefore (List.mem_map.mpr ⟨row, hrow, hsame.trans hid⟩)).append _
    | @compared ctx username ha hbefore hcurrent =>
        -- the hash of the user name is the hash of the user, who is still there
        obtain ⟨named, hnamed, -, hverify⟩ :=
          current_of_passwordHash (Bool.eq_false_iff.mp hcurrent)
        have hname : named.username = username := by simpa using List.find?_some hnamed
        have hown : named = row :=
          h.inv.keyed.eq_of_username (List.mem_of_find?_eq_some hnamed) hrow
            (hname.trans (h.comparing r call _ hbefore row hrow (hsame.trans hid)).symm)
        exact happened_snoc hrun ⟨⟨_, ha⟩, h.sent r call _ hbefore, row, hrow, hsame.trans hid,
          hown ▸ hverify⟩
  rows := by
    intro row' hrow' hash hhash
    rcases hstep.password_cases hrow' with
      ⟨row, hrow, hid, hsame, -⟩ | ⟨hconfigured, -, hash', hhash', hdefault⟩ |
        ⟨r, call, hash', hcall, hid, hmem, hhash', hnew⟩
    · exact hid ▸ (h.rows row hrow hash (hsame.trans hhash)).append _
    · obtain rfl := Option.some.inj (hhash'.symm.trans hhash)
      exact .default hconfigured hdefault
    · obtain rfl := Option.some.inj (hhash'.symm.trans hhash)
      exact .chosen hid.symm ((h.setting r call hcall hmem).append _) hnew

end Trace

/-- **Nobody chooses another account's password.** Take any run of requests, with any bodies,
from the server as the bootstrap leaves it. The password of every user is the bootstrap
password, for the first account alone, the configured default, or the new password of a
request that came with that user's own session and with the password that the user had when
the request was verified. -/
theorem passwords_chosen_by_owner {cfg : AccountConfig} {fails : StoreOp → Bool}
    {boot : BootstrapConfig} {generated hash : Option String} {now : Int} {adminID : String}
    {users : List UserRow} {clients : List OidcClient} {as : List ChangeAction} {w : ChangeServer}
    (hboot : bootstrapRun cfg fails boot generated [] now adminID hash = some users)
    (hid : adminID ≠ "") (hrun : run (changeStep cfg) (.start now clients users) as = some w) :
    ∀ row ∈ w.server.users, ∀ hash, row.passwordHash = some hash →
      PasswordOrigin cfg (.start now clients users) adminID (boot.password generated) as row.id
        hash := by
  obtain ⟨admin, password, hash', rfl, hadmin, hpassword, hhash, hverify, -⟩ :=
    bootstrapRun_eq_some hboot
  have hstart : ChangeInv (.start now clients [admin]) := by
    refine changeInv_run ⟨by simp, by simp⟩ ?_ (run_nil (changeStep cfg) _)
    simpa [hadmin] using hid
  refine (trace_invariant (P := OriginInv cfg (.start now clients [admin]) adminID
    (boot.password generated)) ?_ ?_ hrun).rows
  · refine ⟨hstart, by simp [ChangeServer.start], by simp [ChangeServer.start],
      by simp [ChangeServer.start], ?_⟩
    intro row hrow hash hrowhash
    obtain rfl := List.mem_singleton.mp hrow
    obtain rfl := Option.some.inj (hhash.symm.trans hrowhash)
    exact .bootstrap hadmin hpassword hverify
  · exact fun as t a t' hrun ht hstep => ht.step hrun (changeStep_cases hstep)

/-- A server whose first account has the default password. -/
def exampleBoot : BootstrapConfig := ⟨"alice", "alice@idp.example", "changeme"⟩

/-- The example server is one as the bootstrap leaves it. -/
theorem bootstrapRun_example :
    bootstrapRun exampleHashing (fun _ => false) exampleBoot none [] 0 "u"
        (some "bcrypt:changeme") =
      some [{ exampleUser with passwordHash := some "bcrypt:changeme" }] := by
  decide +kernel

/-- The user's new password is one that the user has sent. -/
theorem passwords_chosen_by_owner_example :
    ∃ w, run (changeStep exampleHashing) exampleChangeServer (exampleChanging "battery staple") =
        some w ∧
      ∃ row ∈ w.server.users, row.passwordHash = some "bcrypt:battery staple" ∧
        PasswordOrigin exampleHashing exampleChangeServer "u" (some "changeme")
          (exampleChanging "battery staple") row.id "bcrypt:battery staple" := by
  have hrun : (run (changeStep exampleHashing) exampleChangeServer
      (exampleChanging "battery staple")).any (fun w =>
        w.server.users.any fun row => row.passwordHash = some "bcrypt:battery staple") = true := by
    decide +kernel
  obtain ⟨w, hw, hany⟩ := (Option.any_eq_true _ _).mp hrun
  obtain ⟨row, hrow, hhash⟩ := List.any_eq_true.mp hany
  rw [decide_eq_true_eq] at hhash
  exact ⟨w, hw, row, hrow, hhash,
    passwords_chosen_by_owner bootstrapRun_example (by decide) hw row hrow _ hhash⟩

/-! ### The default password -/

section Default

variable (cfg : AccountConfig) (w : ChangeServer)

/-- Every account that the configured default password opens must change it. -/
def ChangeServer.DefaultForced : Prop :=
  ∀ row ∈ w.server.users, ∀ hash, row.passwordHash = some hash → cfg.defaultPassword ≠ "" →
    cfg.verifyPassword hash cfg.defaultPassword = true → row.forcePasswordChange = true

/-- If the step sets the password that a user has chosen, it is not one that bcrypt takes for
the configured default. -/
def ChoosesOther : ChangeAction → Prop
  | .setPassword r ctx (some hash) =>
      ctx.fails .setPassword = false → ∀ call ∈ w.callAt r .setting,
        call.userID ∈ w.server.users.map (·.id) → cfg.defaultPassword ≠ "" →
          cfg.verifyPassword hash cfg.defaultPassword = false
  | .setPassword _ _ none | .request _ | .begin .. | .read .. | .compare .. | .clearFlag .. => True

instance (a : ChangeAction) : Decidable (ChoosesOther cfg w a) :=
  match a with
  | .setPassword r _ (some _) =>
      inferInstanceAs (Decidable (_ → ∀ call ∈ w.callAt r .setting, _ → _ → _))
  | .setPassword _ _ none => inferInstanceAs (Decidable True)
  | .request _ => inferInstanceAs (Decidable True)
  | .begin .. => inferInstanceAs (Decidable True)
  | .read .. => inferInstanceAs (Decidable True)
  | .compare .. => inferInstanceAs (Decidable True)
  | .clearFlag .. => inferInstanceAs (Decidable True)

end Default

section Default

variable {cfg : AccountConfig} {w w' : ChangeServer}

/-- **What keeps the default password a forced one.** -/
theorem defaultForced_iff_choosesOther {a : ChangeAction} (h : w.DefaultForced cfg)
    (hstep : ChangeStep cfg w a w') : w'.DefaultForced cfg ↔ ChoosesOther cfg w a := by
  cases hstep with
  | request hserver hcalls hsessions ha =>
      refine ⟨fun _ => trivial, fun _ row' hrow' hash hhash hconfigured hverify => ?_⟩
      rcases (usersStep_cases hserver).password_cases ha hrow' with
        ⟨row, hrow, -, hsame, hforce⟩ | ⟨-, hforce, -⟩
      · rw [← hforce]
        exact h row hrow hash (hsame.trans hhash) hconfigured hverify
      · exact hforce
  | ended hnothing =>
      refine ⟨fun _ => ?_, fun _ => h⟩
      cases a with
      | setPassword r ctx hash =>
          cases hash with
          | none => trivial
          | some hash =>
              rcases hnothing with hnone | hfails
              · simp at hnone
              · exact fun hok => absurd (hfails.symm.trans hok) (by decide)
      | _ => trivial
  | begun => exact ⟨fun _ => trivial, fun _ => h⟩
  | read => exact ⟨fun _ => trivial, fun _ => h⟩
  | compared => exact ⟨fun _ => trivial, fun _ => h⟩
  | @set r ctx call hash hcall hhash hok =>
      have hguard : ChoosesOther cfg w (.setPassword r ctx (some hash)) ↔
          (call.userID ∈ w.server.users.map (·.id) → cfg.defaultPassword ≠ "" →
            cfg.verifyPassword hash cfg.defaultPassword = false) := by
        simp [ChoosesOther, callAt_eq_some.mpr hcall, hok]
      have hrows : ChangeServer.DefaultForced cfg
          ((w.setUsers (updateWhere w.server.users call.userID fun row =>
            row.withPassword w.now hash false)).setCall r (some (call, .clearing))) ↔
          ∀ row ∈ updateWhere w.server.users call.userID (fun row =>
            row.withPassword w.now hash false), ∀ hash, row.passwordHash = some hash →
            cfg.defaultPassword ≠ "" → cfg.verifyPassword hash cfg.defaultPassword = true →
            row.forcePasswordChange = true := Iff.rfl
      rw [hguard, hrows, forall_mem_updateWhere]
      constructor
      · intro hall hmem hconfigured
        obtain ⟨row, hrow, hid⟩ := List.mem_map.mp hmem
        by_contra hverify
        have hforced := (hall row hrow).1 hid hash rfl hconfigured (by simpa using hverify)
        simp [UserRow.withPassword] at hforced
      · intro hother row hrow
        refine ⟨fun hid hash' hhash' hconfigured hverify => ?_, fun _ => h row hrow⟩
        obtain rfl := Option.some.inj hhash'
        have hfalse := hother (List.mem_map.mpr ⟨row, hrow, hid⟩) hconfigured
        simp [hverify] at hfalse
  | cleared => exact ⟨fun _ => trivial, fun _ => h⟩

/-- The default itself is among the passwords that bcrypt takes for it. -/
theorem ChoosesOther.newPassword_ne {r : Nat} {ctx : RequestContext} {hash : String}
    {call : PendingChange} (hstep : changeStep cfg w (.setPassword r ctx (some hash)) = some w')
    (h : ChoosesOther cfg w (.setPassword r ctx (some hash)))
    (hcall : w.calls r = some (call, .setting)) (hok : ctx.fails .setPassword = false)
    (huser : call.userID ∈ w.server.users.map (·.id)) (hconfigured : cfg.defaultPassword ≠ "") :
    call.newPassword ≠ cfg.defaultPassword := by
  intro hdefault
  have hother := h hok call (callAt_eq_some.mpr hcall) huser hconfigured
  rw [changeStep, ChangeServer.setPasswordStep, hcall] at hstep
  by_cases hfits : cfg.hashes call.newPassword (some hash) = true
  · rw [hdefault] at hfits
    exact absurd (hother.symm.trans hfits) (by decide)
  · simp [hfits] at hstep

end Default

/-- **When the default password is never a settled one.** Along every run from the server as
the bootstrap leaves it, every account with the configured default password must change it if
and only if no user's own change of password sets one that bcrypt takes for the default. -/
theorem default_forced_iff {cfg : AccountConfig} {fails : StoreOp → Bool} {boot : BootstrapConfig}
    {generated hash : Option String} {now : Int} {adminID : String} {users : List UserRow}
    {clients : List OidcClient} {as : List ChangeAction} {w : ChangeServer}
    (hboot : bootstrapRun cfg fails boot generated [] now adminID hash = some users)
    (hrun : run (changeStep cfg) (.start now clients users) as = some w) :
    AlongRun (changeStep cfg) (ChangeServer.DefaultForced cfg) (.start now clients users) as ↔
      Guarded (changeStep cfg) (ChoosesOther cfg) (.start now clients users) as := by
  refine alongRun_iff_guarded (I := fun _ => True) (fun _ _ _ _ _ _ => trivial) ?_ trivial ?_
    (guarded_true _ as) hrun
  · exact fun t a t' _ ht _ hstep => defaultForced_iff_choosesOther ht (changeStep_cases hstep)
  · obtain ⟨admin, -, -, rfl, -, -, -, -, hforce⟩ := bootstrapRun_eq_some hboot
    intro row hrow _ _ _ _
    obtain rfl := List.mem_singleton.mp hrow
    exact hforce

/-- A change to another password leaves nobody with a settled default, and a change to the
default does. -/
theorem default_forced_iff_example :
    ∃ w w', run (changeStep exampleHashing) exampleChangeServer (exampleChanging "battery staple") =
        some w ∧
      AlongRun (changeStep exampleHashing) (ChangeServer.DefaultForced exampleHashing)
        exampleChangeServer (exampleChanging "battery staple") ∧
      run (changeStep exampleHashing) exampleChangeServer (exampleChanging "changeme") = some w' ∧
      ¬ AlongRun (changeStep exampleHashing) (ChangeServer.DefaultForced exampleHashing)
        exampleChangeServer (exampleChanging "changeme") := by
  have hother : (run (changeStep exampleHashing) exampleChangeServer
      (exampleChanging "battery staple")).isSome = true := by
    decide +kernel
  have hsame : (run (changeStep exampleHashing) exampleChangeServer
      (exampleChanging "changeme")).isSome = true := by
    decide +kernel
  obtain ⟨w, hw⟩ := Option.isSome_iff_exists.mp hother
  obtain ⟨w', hw'⟩ := Option.isSome_iff_exists.mp hsame
  refine ⟨w, w', hw, ?_, hw', ?_⟩
  · rw [exampleChangeServer, default_forced_iff bootstrapRun_example hw]
    decide +kernel
  · rw [exampleChangeServer, default_forced_iff bootstrapRun_example hw']
    decide +kernel

/-- A user changes the default password to the default password and need not change it any
more. -/
theorem default_settled :
    ∃ w, run (changeStep exampleHashing) exampleChangeServer
        (exampleChanging "changeme" ++ [.clearFlag 0 {}]) = some w ∧
      exampleHashing.defaultPassword ≠ "" ∧ ¬ w.DefaultForced exampleHashing := by
  have hrun : (run (changeStep exampleHashing) exampleChangeServer
      (exampleChanging "changeme" ++ [.clearFlag 0 {}])).any (fun w =>
        w.server.users.any fun row =>
          row.passwordHash = some "bcrypt:changeme" && !row.forcePasswordChange) = true := by
    decide +kernel
  obtain ⟨w, hw, hany⟩ := (Option.any_eq_true _ _).mp hrun
  obtain ⟨row, hrow, hsettled⟩ := List.any_eq_true.mp hany
  rw [Bool.and_eq_true, decide_eq_true_eq, Bool.not_eq_true'] at hsettled
  refine ⟨w, hw, by decide, fun h => ?_⟩
  have hforced := h row hrow _ hsettled.1 (by decide) (by decide)
  simp [hsettled.2] at hforced

end IdpForge
