import IdpForge.OidcSteps

/-!
# Codes and Refresh Tokens are Single Use, One Redemption at a Time

A redemption reads its code or refresh token from the cache and deletes it in a separate
step, whose error is dropped. Two redemptions that both read before either deletes both
succeed, and so do two in a row when the first deletion fails. Where neither happens, a code
or refresh token passes through a linear lifecycle and ends in one response at most.

## Main results

* `Lifecycle`, `lifecycle_step`: every code and every refresh token has one status, which
  agrees with the cache, the running calls and the history.
* `redeemed_at_most_once_of_exclusive`: in a run of exclusive steps, each code and each
  refresh token leads to one response at most.
* `code_redeemed_twice`: two interleaved exchanges of one code.
-/

open PartialMap TransitionSystem

namespace IdpForge

/-- What a redemption presents: a code, or the digest of a refresh token. -/
inductive RedemptionKey where
  | code (code : String)
  | refresh (digest : String)
  deriving DecidableEq, Repr

/-- The lifecycle of a key: drawn by a call, cached, read by a call that will succeed with
it, deleted by that call, and answered with tokens. -/
inductive KeyStatus where
  | fresh
  | storing (id : Nat)
  | available
  | held (id : Nat)
  | issuing (id : Nat)
  | redeemed
  deriving DecidableEq, Repr

/-- The call a status belongs to. -/
def KeyStatus.owner : KeyStatus → Option Nat
  | .storing id => some id
  | .held id => some id
  | .issuing id => some id
  | _ => none

section Claims

variable (cfg : OidcConfig)

/-- The key a grant redeems. -/
def Grant.key : Grant → Option RedemptionKey
  | .exchange req => some (.code req.code)
  | .refresh req => some (.refresh (hashToken cfg req.refreshToken))
  | .clientCredentials _ _ => none

/-- What the stage of a call says about the status of a key. A call that has read a code
which does not match it will return without tokens and claims nothing. -/
def Stage.claim (id : Nat) : Stage → Option (RedemptionKey × KeyStatus)
  | .storingCode _ _ code => some (.code code, .storing id)
  | .gotCode _ req record _ =>
      match exchangeCheck cfg req record with
      | .ok () => some (.code req.code, .held id)
      | .error _ => none
  | .gotRefresh _ req _ => some (.refresh (hashToken cfg req.refreshToken), .held id)
  | .issuing _ grant _ _ => (grant.key cfg).map fun key => (key, .issuing id)
  | _ => none

/-- The key that a recorded response has redeemed. -/
def OidcEvent.key : OidcEvent → Option RedemptionKey
  | .issued e => e.grant.key cfg
  | _ => none

/-- The key is in the cache, whether or not past its deadline. -/
def OidcState.Live (s : OidcState) : RedemptionKey → Prop
  | .code code => ∃ e, s.codes code = some e
  | .refresh digest => ∃ e, s.refreshes digest = some e

/-- The key has been drawn. -/
def OidcState.Drawn (s : OidcState) : RedemptionKey → Prop
  | .code code => code ∈ s.drawn
  | .refresh digest => digest ∈ s.digests

/-- No running call has read the key and will succeed with it. -/
def OidcState.Unheld (s : OidcState) (key : RedemptionKey) : Prop :=
  ∀ id stage, s.calls id = some stage → stage.claim cfg id ≠ some (key, .held id)

/-- The step leaves redemptions exclusive: a call that reads its code or refresh token and
will succeed with it is not between the reading and the deletion of another such call, and
the deletion of such a call does not fail. -/
def Exclusive (s : OidcState) : OidcAction → Prop
  | .getCode id true =>
      ∀ client req record, s.calls id = some (.exchanging client req) →
        get s.codes s.now req.code = some record → exchangeCheck cfg req record = .ok () →
          s.Unheld cfg (.code req.code)
  | .getRefresh id true =>
      ∀ client req record, s.calls id = some (.refreshing client req) →
        get s.refreshes s.now (hashToken cfg req.refreshToken) = some record →
          refreshCheck req record = .ok () →
            s.Unheld cfg (.refresh (hashToken cfg req.refreshToken))
  | .deleteCode id false => ∀ stage, s.calls id = some stage → stage.claim cfg id = none
  | .deleteRefresh id false => ∀ stage, s.calls id = some stage → stage.claim cfg id = none
  | _ => True

/-- The statuses agree with the state. -/
structure Lifecycle (s : OidcState) (status : RedemptionKey → KeyStatus) : Prop where
  drawn : ∀ key, status key ≠ .fresh → s.Drawn key
  live : ∀ key, s.Live key → status key = .available ∨
    ∃ id stage, s.calls id = some stage ∧ stage.claim cfg id = some (key, .held id)
  calls : ∀ id stage key v, s.calls id = some stage → stage.claim cfg id = some (key, v) →
    status key = v
  history : ∀ e ∈ s.history, ∀ key, e.key cfg = some key → status key = .redeemed
  count : ∀ key, s.history.countP (fun e => e.key cfg = some key) ≤
    if status key = .redeemed then 1 else 0

end Claims

variable {cfg : OidcConfig}

/-- What a call claims belongs to the call. -/
theorem owner_of_claim {id : Nat} {stage : Stage} {key : RedemptionKey} {v : KeyStatus}
    (h : stage.claim cfg id = some (key, v)) : v.owner = some id := by
  cases stage with
  | storingCode client req code =>
      obtain ⟨-, rfl⟩ := Prod.mk.inj (Option.some.inj h)
      rfl
  | gotCode client req record gotAt =>
      rw [Stage.claim] at h
      split at h
      · obtain ⟨-, rfl⟩ := Prod.mk.inj (Option.some.inj h)
        rfl
      · simp at h
  | gotRefresh client req record =>
      obtain ⟨-, rfl⟩ := Prod.mk.inj (Option.some.inj h)
      rfl
  | issuing client grant userID scope =>
      obtain ⟨k, -, hk⟩ := Option.map_eq_some_iff.mp h
      obtain ⟨-, rfl⟩ := Prod.mk.inj hk
      rfl
  | exchanging client req => simp [Stage.claim] at h
  | refreshing client req => simp [Stage.claim] at h

namespace Lifecycle

variable {s s' : OidcState} {status : RedemptionKey → KeyStatus} {id : Nat}

/-- A call moves on without a claim on a key, from a stage that did not hold one. -/
theorem setCall (h : Lifecycle cfg s status) {call? : Option Stage}
    (hold : ∀ stage, s.calls id = some stage → ∀ key, stage.claim cfg id ≠ some (key, .held id))
    (hnew : ∀ stage, call? = some stage → stage.claim cfg id = none) :
    Lifecycle cfg { s with calls := Function.update s.calls id call? } status where
  drawn := h.drawn
  live := fun key hlive => by
    refine (h.live key hlive).imp_right ?_
    rintro ⟨id', stage, hcall, hclaim⟩
    refine ⟨id', stage, update_eq_some_iff.mpr (Or.inr ⟨?_, hcall⟩), hclaim⟩
    rintro rfl
    exact hold stage hcall key hclaim
  calls := fun id' stage key v hcall hclaim => by
    rcases update_eq_some_iff.mp hcall with ⟨rfl, hstage⟩ | ⟨-, hother⟩
    · simp [hnew stage hstage] at hclaim
    · exact h.calls id' stage key v hother hclaim
  history := h.history
  count := h.count

/-- The claims of the running calls after one call has taken a key to another status. -/
theorem calls_update (h : Lifecycle cfg s status) {key : RedemptionKey} {v : KeyStatus}
    {call? : Option Stage} (howner : ∀ id', (status key).owner = some id' → id' = id)
    (hnew : ∀ stage k w, call? = some stage → stage.claim cfg id = some (k, w) →
      k = key ∧ w = v) :
    ∀ id' stage k w, Function.update s.calls id call? id' = some stage →
      stage.claim cfg id' = some (k, w) → Function.update status key v k = w := by
  intro id' stage k w hcall hclaim
  rcases update_eq_some_iff.mp hcall with ⟨rfl, hstage⟩ | ⟨hne, hother⟩
  · obtain ⟨rfl, rfl⟩ := hnew stage k w hstage hclaim
    exact Function.update_self ..
  · have hstatus := h.calls id' stage k w hother hclaim
    have hk : k ≠ key := by
      rintro rfl
      exact hne (howner id' (hstatus ▸ owner_of_claim hclaim))
    rw [Function.update_of_ne hk, hstatus]

/-- The cached keys other than the one that a call takes to another status. -/
theorem live_update (h : Lifecycle cfg s status) {key : RedemptionKey} {v : KeyStatus}
    {call? : Option Stage}
    (hold : ∀ stage k w, s.calls id = some stage → stage.claim cfg id = some (k, w) → k = key)
    {k : RedemptionKey} (hk : k ≠ key) (hlive : s.Live k) :
    Function.update status key v k = .available ∨ ∃ id' stage,
      Function.update s.calls id call? id' = some stage ∧
        stage.claim cfg id' = some (k, .held id') := by
  rw [Function.update_of_ne hk]
  refine (h.live k hlive).imp_right ?_
  rintro ⟨id', stage, hcall, hclaim⟩
  refine ⟨id', stage, update_eq_some_iff.mpr (Or.inr ⟨?_, hcall⟩), hclaim⟩
  rintro rfl
  exact hk (hold stage k _ hcall hclaim)

/-- The history when a key that no response has redeemed changes its status. -/
theorem history_update (h : Lifecycle cfg s status) {key : RedemptionKey} {v : KeyStatus}
    (hkey : status key ≠ .redeemed) : ∀ e ∈ s.history, ∀ k, e.key cfg = some k →
      Function.update status key v k = .redeemed := by
  intro e he k hk
  have hstatus := h.history e he k hk
  have hne : k ≠ key := by
    rintro rfl
    exact hkey hstatus
  rw [Function.update_of_ne hne, hstatus]

/-- The number of responses when a key that none has redeemed changes its status. -/
theorem count_update (h : Lifecycle cfg s status) {key : RedemptionKey} {v : KeyStatus}
    (hkey : status key ≠ .redeemed) (k : RedemptionKey) :
    s.history.countP (fun e => e.key cfg = some k) ≤
      if Function.update status key v k = .redeemed then 1 else 0 := by
  have hcount := h.count k
  by_cases hk : k = key
  · subst hk
    rw [if_neg hkey] at hcount
    omega
  · rwa [Function.update_of_ne hk]

/-- Drawn keys stay drawn when one of them changes its status. -/
theorem drawn_update (h : Lifecycle cfg s status) {key : RedemptionKey} {v : KeyStatus}
    (hdrawn : s.Drawn key) (k : RedemptionKey)
    (hk : Function.update status key v k ≠ .fresh) : s.Drawn k := by
  by_cases heq : k = key
  · exact heq ▸ hdrawn
  · rw [Function.update_of_ne heq] at hk
    exact h.drawn k hk

/-- The key a call claims has been drawn. -/
theorem drawn_of_claim (h : Lifecycle cfg s status) {stage : Stage} {key : RedemptionKey}
    {v : KeyStatus} (hcall : s.calls id = some stage)
    (hclaim : stage.claim cfg id = some (key, v)) : s.Drawn key := by
  refine h.drawn key fun hfresh => ?_
  have howner := owner_of_claim hclaim
  rw [← h.calls id stage key v hcall hclaim, hfresh] at howner
  simp [KeyStatus.owner] at howner

/-! ### The steps that change a status -/

/-- `Authorize` draws a code. -/
theorem draw (h : Lifecycle cfg s status) {client : OidcClient} {req : AuthorizeRequest}
    {code : String} (hidle : s.calls id = none) (hnew : code ∉ s.drawn) :
    Lifecycle cfg ({ s with drawn := code :: s.drawn }.goOn id (.storingCode client req code))
      (Function.update status (.code code) (.storing id)) := by
  have hfresh : status (.code code) = .fresh := by
    by_contra hne
    exact hnew (h.drawn _ hne)
  have hred : status (.code code) ≠ .redeemed := by simp [hfresh]
  refine ⟨fun k hk => ?_, fun k hlive => ?_, ?_, h.history_update hred, h.count_update hred⟩
  · by_cases heq : k = .code code
    · subst heq
      exact List.mem_cons_self
    · rw [Function.update_of_ne heq] at hk
      have hdrawn := h.drawn k hk
      cases k with
      | code c => exact List.mem_cons_of_mem _ hdrawn
      | refresh d => exact hdrawn
  · have hlive' : s.Live k := by cases k <;> exact hlive
    refine h.live_update (fun stage k w hcall => by simp [hidle] at hcall) ?_ hlive'
    rintro rfl
    rcases h.live _ hlive' with havail | ⟨id', stage, hcall, hclaim⟩
    · simp [hfresh] at havail
    · simp [h.calls _ _ _ _ hcall hclaim] at hfresh
  · refine h.calls_update (fun id' howner => by simp [hfresh, KeyStatus.owner] at howner) ?_
    intro stage k w hstage hclaim
    obtain rfl := Option.some.inj hstage
    obtain ⟨rfl, rfl⟩ := Prod.mk.inj (Option.some.inj hclaim)
    exact ⟨rfl, rfl⟩

/-- A call that claims one key at most says nothing about the others. -/
theorem claim_unique {stage : Stage} {key k : RedemptionKey} {v w : KeyStatus}
    (hcall : s.calls id = some stage) (hclaim : stage.claim cfg id = some (key, v))
    {stage' : Stage} (hcall' : s.calls id = some stage')
    (hclaim' : stage'.claim cfg id = some (k, w)) : k = key := by
  obtain rfl := Option.some.inj (hcall.symm.trans hcall')
  exact (Prod.mk.inj (Option.some.inj (hclaim.symm.trans hclaim'))).1.symm

/-- `Authorize` stores its code. -/
theorem storeCode (h : Lifecycle cfg s status) {client : OidcClient} {req : AuthorizeRequest}
    {code : String} (hcall : s.calls id = some (.storingCode client req code)) {e : OidcEvent}
    (he : e.key cfg = none) :
    Lifecycle cfg { (s.leave id).record e with codes := set s.codes s.now code req.record 120 }
      (Function.update status (.code code) .available) := by
  have hstatus : status (.code code) = .storing id := h.calls id _ _ _ hcall rfl
  have hred : status (.code code) ≠ .redeemed := by simp [hstatus]
  refine ⟨h.drawn_update (h.drawn_of_claim hcall rfl), fun k hlive => ?_, ?_, ?_, fun k => ?_⟩
  · by_cases hk : k = .code code
    · subst hk
      exact Or.inl (Function.update_self ..)
    · refine h.live_update (fun stage k w hcall' hclaim' => claim_unique hcall rfl hcall' hclaim')
        hk ?_
      cases k with
      | code c =>
          obtain ⟨entry, hentry⟩ := hlive
          rcases update_eq_some_iff.mp hentry with ⟨rfl, -⟩ | ⟨-, hentry⟩
          · exact absurd rfl hk
          · exact ⟨entry, hentry⟩
      | refresh d => exact hlive
  · exact h.calls_update (fun id' howner => by simpa [hstatus, KeyStatus.owner] using howner.symm)
      (fun stage k w hstage => by simp at hstage)
  · intro e' he' k hk
    rcases List.mem_cons.mp he' with rfl | he'
    · simp [he] at hk
    · exact h.history_update hred e' he' k hk
  · have := h.count_update (v := .available) hred k
    simpa [OidcState.record, OidcState.leave, List.countP_cons, he] using this

/-- A call reads a key that no other call holds, and will succeed with it. -/
theorem hold (h : Lifecycle cfg s status) {stage stage' : Stage} {key : RedemptionKey}
    (hcall : s.calls id = some stage) (hclaim : stage.claim cfg id = none)
    (hlive : s.Live key) (hunheld : s.Unheld cfg key)
    (hclaim' : stage'.claim cfg id = some (key, .held id)) :
    Lifecycle cfg (s.goOn id stage') (Function.update status key (.held id)) := by
  have hstatus : status key = .available := by
    refine (h.live key hlive).resolve_right ?_
    rintro ⟨id', held, hcall', hheld⟩
    exact hunheld id' held hcall' hheld
  have hred : status key ≠ .redeemed := by simp [hstatus]
  have hnone : ∀ stage' k w, s.calls id = some stage' →
      stage'.claim cfg id = some (k, w) → k = key := by
    intro stage' k w hcall' hclaim'
    obtain rfl := Option.some.inj (hcall.symm.trans hcall')
    simp [hclaim] at hclaim'
  refine ⟨h.drawn_update (h.drawn key (by simp [hstatus])), fun k hlive' => ?_, ?_,
    h.history_update hred, h.count_update hred⟩
  · by_cases hk : k = key
    · subst hk
      exact Or.inr ⟨id, stage', update_eq_some_iff.mpr (Or.inl ⟨rfl, rfl⟩), hclaim'⟩
    · exact h.live_update hnone hk (by cases k <;> exact hlive')
  · refine h.calls_update (fun id' howner => by simp [hstatus, KeyStatus.owner] at howner) ?_
    intro stage'' k w hstage hclaim''
    obtain rfl := Option.some.inj hstage
    obtain ⟨rfl, rfl⟩ := Prod.mk.inj (Option.some.inj (hclaim'.symm.trans hclaim''))
    exact ⟨rfl, rfl⟩

/-- A call that holds a key deletes it and goes on to issue tokens. -/
theorem issue (h : Lifecycle cfg s status) {stage : Stage} (stage' : Stage)
    {key : RedemptionKey}
    (hcall : s.calls id = some stage) (hclaim : stage.claim cfg id = some (key, .held id))
    (hclaim' : stage'.claim cfg id = some (key, .issuing id))
    (hcalls : s'.calls = Function.update s.calls id (some stage'))
    (hlive : ∀ k, s'.Live k → k ≠ key ∧ s.Live k) (hdrawn : ∀ k, s.Drawn k → s'.Drawn k)
    (hhistory : ∀ e ∈ s'.history, ∀ k, e.key cfg = some k → e ∈ s.history)
    (hcount : ∀ k, s'.history.countP (fun e => e.key cfg = some k) =
      s.history.countP (fun e => e.key cfg = some k)) :
    Lifecycle cfg s' (Function.update status key (.issuing id)) := by
  have hstatus : status key = .held id := h.calls id stage key _ hcall hclaim
  have hred : status key ≠ .redeemed := by simp [hstatus]
  refine ⟨fun k hk => hdrawn k (h.drawn_update (h.drawn_of_claim hcall hclaim) k hk),
    fun k hk => ?_, ?_, fun e he k hk => ?_, fun k => ?_⟩
  · obtain ⟨hne, hold⟩ := hlive k hk
    rw [hcalls]
    exact h.live_update (fun stage' k w hc hw => claim_unique hcall hclaim hc hw) hne hold
  · rw [hcalls]
    refine h.calls_update (fun id' howner => by
      simpa [hstatus, KeyStatus.owner] using howner.symm) ?_
    intro stage'' k w hstage hclaim''
    obtain rfl := Option.some.inj hstage
    obtain ⟨rfl, rfl⟩ := Prod.mk.inj (Option.some.inj (hclaim'.symm.trans hclaim''))
    exact ⟨rfl, rfl⟩
  · exact h.history_update hred e (hhistory e he k hk) k hk
  · rw [hcount]
    exact h.count_update hred k

/-- A call that has deleted its key returns tokens for it. -/
theorem redeem (h : Lifecycle cfg s status) {stage : Stage} {key : RedemptionKey}
    (hcall : s.calls id = some stage) (hclaim : stage.claim cfg id = some (key, .issuing id))
    {e : OidcEvent} (he : e.key cfg = some key) :
    Lifecycle cfg ((s.leave id).record e) (Function.update status key .redeemed) := by
  have hstatus : status key = .issuing id := h.calls id stage key _ hcall hclaim
  refine ⟨h.drawn_update (h.drawn_of_claim hcall hclaim), fun k hlive => ?_, ?_, ?_, fun k => ?_⟩
  · have hlive' : s.Live k := by cases k <;> exact hlive
    refine h.live_update (fun stage' k w hc hw => claim_unique hcall hclaim hc hw) ?_ hlive'
    rintro rfl
    rcases h.live _ hlive' with havail | ⟨id', held, hcall', hheld⟩
    · simp [hstatus] at havail
    · simp [h.calls _ _ _ _ hcall' hheld] at hstatus
  · exact h.calls_update (fun id' howner => by simpa [hstatus, KeyStatus.owner] using howner.symm)
      (fun stage k w hstage => by simp at hstage)
  · intro e' he' k hk
    rcases List.mem_cons.mp he' with rfl | he'
    · obtain rfl := Option.some.inj (he.symm.trans hk)
      exact Function.update_self ..
    · exact h.history_update (by simp [hstatus]) e' he' k hk
  · have hcount := h.count k
    simp only [OidcState.record, OidcState.leave, List.countP_cons, he, Option.some.injEq,
      decide_eq_true_eq]
    by_cases hk : k = key
    · subst hk
      rw [hstatus, if_neg (by simp)] at hcount
      simp only [Function.update_self, if_true]
      omega
    · rw [Function.update_of_ne hk]
      simpa [Ne.symm hk] using hcount

/-- `issueTokens` draws a refresh token and stores it. -/
theorem drawRefresh (h : Lifecycle cfg s status) {digest : String} (hnew : digest ∉ s.digests)
    (record : RefreshRecord) (ttl : Int) :
    Lifecycle cfg { s with
      digests := digest :: s.digests
      refreshes := set s.refreshes s.now digest record ttl }
      (Function.update status (.refresh digest) .available) := by
  have hfresh : status (.refresh digest) = .fresh := by
    by_contra hne
    exact hnew (h.drawn _ hne)
  have hred : status (.refresh digest) ≠ .redeemed := by simp [hfresh]
  refine ⟨fun k hk => ?_, fun k hlive => ?_, fun id' stage k w hcall hclaim => ?_,
    h.history_update hred, h.count_update hred⟩
  · by_cases heq : k = .refresh digest
    · subst heq
      exact List.mem_cons_self
    · rw [Function.update_of_ne heq] at hk
      have hdrawn := h.drawn k hk
      cases k with
      | code c => exact hdrawn
      | refresh d => exact List.mem_cons_of_mem _ hdrawn
  · by_cases heq : k = .refresh digest
    · subst heq
      exact Or.inl (Function.update_self ..)
    · rw [Function.update_of_ne heq]
      refine h.live k ?_
      cases k with
      | code c => exact hlive
      | refresh d =>
          obtain ⟨entry, hentry⟩ := hlive
          rcases update_eq_some_iff.mp hentry with ⟨rfl, -⟩ | ⟨-, hentry⟩
          · exact absurd rfl heq
          · exact ⟨entry, hentry⟩
  · have hstatus := h.calls id' stage k w hcall hclaim
    have hk : k ≠ .refresh digest := by
      rintro rfl
      have howner := owner_of_claim hclaim
      simp [← hstatus, hfresh, KeyStatus.owner] at howner
    rw [Function.update_of_ne hk, hstatus]

/-! ### The steps that change none -/

/-- Entries may leave the cache, keys may be drawn. -/
theorem mono (h : Lifecycle cfg s status) (hlive : ∀ k, s'.Live k → s.Live k)
    (hdrawn : ∀ k, s.Drawn k → s'.Drawn k) (hcalls : s'.calls = s.calls)
    (hhistory : s'.history = s.history) : Lifecycle cfg s' status where
  drawn := fun k hk => hdrawn k (h.drawn k hk)
  live := fun k hk => hcalls ▸ h.live k (hlive k hk)
  calls := hcalls ▸ h.calls
  history := hhistory ▸ h.history
  count := hhistory ▸ h.count

/-- An event that redeems no key is recorded. -/
theorem record (h : Lifecycle cfg s status) {e : OidcEvent} (he : e.key cfg = none) :
    Lifecycle cfg (s.record e) status where
  drawn := fun k hk => by cases k <;> exact h.drawn _ hk
  live := fun k hk => h.live k (by cases k <;> exact hk)
  calls := h.calls
  history := fun e' he' k hk => by
    rcases List.mem_cons.mp he' with rfl | he'
    · simp [he] at hk
    · exact h.history e' he' k hk
  count := fun k => by simpa [OidcState.record, List.countP_cons, he] using h.count k

/-- A call that does not hold a key returns. -/
theorem leave (h : Lifecycle cfg s status) {stage : Stage} (hcall : s.calls id = some stage)
    (hold : ∀ key, stage.claim cfg id ≠ some (key, .held id)) :
    Lifecycle cfg (s.leave id) status := by
  refine h.setCall (fun stage' hcall' => ?_) (fun stage' hstage => by simp at hstage)
  obtain rfl := Option.some.inj (hcall.symm.trans hcall')
  exact hold

/-- A call goes on from a stage without a claim to another one. -/
theorem goOn (h : Lifecycle cfg s status) {stage : Stage}
    (hold : ∀ stage', s.calls id = some stage' → stage'.claim cfg id = none)
    (hnew : stage.claim cfg id = none) : Lifecycle cfg (s.goOn id stage) status := by
  refine h.setCall (fun stage' hcall key => ?_) (fun stage' hstage => ?_)
  · simp [hold stage' hcall]
  · exact Option.some.inj hstage ▸ hnew

/-- An idle call begins with a stage without a claim. -/
theorem begin_ (h : Lifecycle cfg s status) {stage : Stage} (hidle : s.calls id = none)
    (hnew : stage.claim cfg id = none) : Lifecycle cfg (s.goOn id stage) status :=
  h.goOn (fun stage' hcall => by simp [hidle] at hcall) hnew

/-- A code is deleted, or not. -/
theorem dropCode (h : Lifecycle cfg s status) (code : String) (ok : Bool) :
    Lifecycle cfg (s.dropCode code ok) status := by
  refine h.mono (fun k hk => ?_) (fun k hk => by cases k <;> exact hk) rfl rfl
  cases k with
  | code c =>
      obtain ⟨entry, hentry⟩ := hk
      cases ok with
      | true => exact ⟨entry, (of_update_none hentry).2⟩
      | false => exact ⟨entry, hentry⟩
  | refresh d => exact hk

/-! ### One step -/

/-- `ExchangeCode` reads a code, which it may or may not go on to claim. -/
theorem getCode (h : Lifecycle cfg s status) {client : OidcClient} {req : ExchangeRequest}
    {record : AuthCode} (hexclusive : Exclusive cfg s (.getCode id true))
    (hcall : s.calls id = some (.exchanging client req))
    (hget : get s.codes s.now req.code = some record) :
    ∃ status', Lifecycle cfg (s.goOn id (.gotCode client req record s.now)) status' := by
  cases hcheck : exchangeCheck cfg req record with
  | error e =>
      refine ⟨status, h.goOn (fun stage hstage => ?_) (by simp [Stage.claim, hcheck])⟩
      obtain rfl := Option.some.inj (hcall.symm.trans hstage)
      rfl
  | ok u =>
      obtain ⟨entry, hentry, -⟩ := get_eq_some_iff.mp hget
      have hunheld := hexclusive client req record hcall hget hcheck
      have hlive : s.Live (.code req.code) := ⟨entry, hentry⟩
      exact ⟨_, h.hold hcall rfl hlive hunheld (by simp [Stage.claim, hcheck])⟩

/-- `ExchangeCode` deletes the code it has claimed. -/
theorem deleteCode (h : Lifecycle cfg s status) {client : OidcClient} {req : ExchangeRequest}
    {record : AuthCode} {gotAt : Int} {ok : Bool}
    (hexclusive : Exclusive cfg s (.deleteCode id ok))
    (hcall : s.calls id = some (.gotCode client req record gotAt))
    (hcheck : exchangeCheck cfg req record = .ok ()) :
    ∃ status', Lifecycle cfg (((s.dropCode req.code ok).goOn id
      (.issuing client (.exchange req) record.userID record.scope)).record
        (.exchanged ⟨gotAt, client, req⟩)) status' := by
  have hclaim : (Stage.gotCode client req record gotAt).claim cfg id =
      some (.code req.code, .held id) := by simp [Stage.claim, hcheck]
  cases ok with
  | false => simp [hexclusive _ hcall] at hclaim
  | true =>
      refine ⟨_, (h.issue (.issuing client (.exchange req) record.userID record.scope) hcall
        hclaim rfl rfl (fun k hk => ?_) (fun k hk => by cases k <;> exact hk)
        (fun e he k hk => ?_) fun k => ?_)⟩
      · cases k with
        | code c =>
            obtain ⟨entry, hentry⟩ := hk
            obtain ⟨hne, hold⟩ := of_update_none hentry
            exact ⟨fun heq => hne (RedemptionKey.code.inj heq), entry, hold⟩
        | refresh d => exact ⟨by simp, hk⟩
      · rcases List.mem_cons.mp he with rfl | he
        · simp [OidcEvent.key] at hk
        · exact he
      · simp [OidcState.record, OidcState.goOn, OidcState.dropCode, OidcEvent.key]

/-- `RefreshTokens` deletes the token it has claimed. -/
theorem deleteRefresh (h : Lifecycle cfg s status) {client : OidcClient} {req : RefreshRequest}
    {record : RefreshRecord} {ok : Bool} (hexclusive : Exclusive cfg s (.deleteRefresh id ok))
    (hcall : s.calls id = some (.gotRefresh client req record)) :
    ∃ status', Lifecycle cfg ((s.dropRefresh (hashToken cfg req.refreshToken) ok).goOn id
      (.issuing client (.refresh req) record.userID record.scope)) status' := by
  cases ok with
  | false => exact absurd (hexclusive _ hcall) (by simp [Stage.claim])
  | true =>
      refine ⟨_, (h.issue (.issuing client (.refresh req) record.userID record.scope) hcall rfl
        rfl rfl (fun k hk => ?_) (fun k hk => by cases k <;> exact hk) (fun e he k hk => he)
        fun k => rfl)⟩
      cases k with
      | code c => exact ⟨by simp, hk⟩
      | refresh d =>
          obtain ⟨entry, hentry⟩ := hk
          obtain ⟨hne, hold⟩ := of_update_none hentry
          exact ⟨fun heq => hne (RedemptionKey.refresh.inj heq), entry, hold⟩

/-- A grant on behalf of a user redeems a key. -/
theorem grant_key {grant : Grant} (hgrant : grant.withRefresh = true) :
    ∃ key, grant.key cfg = some key := by
  cases grant with
  | exchange req => exact ⟨_, rfl⟩
  | refresh req => exact ⟨_, rfl⟩
  | clientCredentials clientID clientSecret => simp [Grant.withRefresh] at hgrant

/-- A grant of a client for itself redeems none. -/
theorem grant_key_none {grant : Grant} (hgrant : grant.withRefresh = false) :
    grant.key cfg = none := by
  cases grant with
  | clientCredentials clientID clientSecret => rfl
  | _ => simp [Grant.withRefresh] at hgrant

end Lifecycle

/-- **Every exclusive step leaves every key a status.** -/
theorem lifecycle_step {s s' : OidcState} {a : OidcAction}
    (h : ∃ status, Lifecycle cfg s status) (hexclusive : Exclusive cfg s a)
    (hstep : oidcStep cfg s a = some s') : ∃ status', Lifecycle cfg s' status' := by
  obtain ⟨status, h⟩ := h
  cases oidcStep_cases hstep with
  | refused => exact ⟨status, h⟩
  | @leave _ id stage _ hcall hstage =>
      refine ⟨status, h.leave hcall fun key => ?_⟩
      cases stage <;> simp_all [Stage.claim, Stage.afterGet]
  | authorize hidle _ hnew => exact ⟨_, h.draw hidle hnew⟩
  | storeCode hcall => exact ⟨_, h.storeCode hcall rfl⟩
  | exchange hidle => exact ⟨status, h.begin_ hidle rfl⟩
  | getCode hcall hget => exact h.getCode hexclusive hcall hget
  | @rejectCode id ok client req record gotAt e hcall hcheck =>
      refine ⟨status, (h.dropCode req.code ok).leave hcall ?_⟩
      simp [Stage.claim, hcheck]
  | deleteCode hcall hcheck => exact h.deleteCode hexclusive hcall hcheck
  | refresh hidle => exact ⟨status, h.begin_ hidle rfl⟩
  | @getRefresh id client req record hcall hget hcheck =>
      obtain ⟨entry, hentry, -⟩ := get_eq_some_iff.mp hget
      have hunheld := hexclusive client req record hcall hget hcheck
      have hlive : s.Live (.refresh (hashToken cfg req.refreshToken)) := ⟨entry, hentry⟩
      exact ⟨_, h.hold hcall rfl hlive hunheld rfl⟩
  | deleteRefresh hcall => exact h.deleteRefresh hexclusive hcall
  | clientCredentials hidle => exact ⟨status, h.begin_ hidle rfl⟩
  | issueClient hcall hgrant =>
      have hkey : Grant.key cfg _ = none := Lifecycle.grant_key_none hgrant
      exact ⟨status, (h.leave hcall (by simp [Stage.claim])).record hkey⟩
  | drawRefresh hcall =>
      refine ⟨status, (h.leave hcall (by simp [Stage.claim])).mono
        (fun k hk => by cases k <;> exact hk) (fun k hk => ?_) rfl rfl⟩
      cases k with
      | code c => exact hk
      | refresh d => exact List.mem_cons_of_mem _ hk
  | @issue id roles refreshToken client grant userID scope hcall hgrant hnew =>
      obtain ⟨key, hkey⟩ : ∃ key, grant.key cfg = some key := Lifecycle.grant_key hgrant
      have hclaim : (Stage.issuing client grant userID scope).claim cfg id =
          some (key, .issuing id) := by simp [Stage.claim, hkey]
      have hredeemed := h.redeem hcall hclaim (e := .issued ⟨s.now, client, grant,
        issueTokens cfg s.now grant.clientID userID scope roles refreshToken⟩) hkey
      exact ⟨_, hredeemed.drawRefresh hnew ⟨grant.clientID, userID, scope⟩ cfg.refreshTokenTTL⟩
  | tick d =>
      exact ⟨status, h.mono (fun k hk => by cases k <;> exact hk)
        (fun k hk => by cases k <;> exact hk) rfl rfl⟩
  | setClients clients =>
      exact ⟨status, h.mono (fun k hk => by cases k <;> exact hk)
        (fun k hk => by cases k <;> exact hk) rfl rfl⟩

/-- Before any call every key is fresh. -/
theorem lifecycle_start (now : Int) (clients : List OidcClient) :
    Lifecycle cfg (OidcState.start now clients) fun _ => .fresh where
  drawn := by simp
  live := fun k hk => by cases k <;> simp [OidcState.Live, OidcState.start] at hk
  calls := by simp [OidcState.start]
  history := by simp [OidcState.start]
  count := by simp [OidcState.start]

/-! ### Responses -/

/-- The event is a response to the exchange of the code. -/
def OidcEvent.redeemsCode (code : String) : OidcEvent → Bool
  | .issued ⟨_, _, .exchange req, _⟩ => req.code = code
  | _ => false

/-- The event is a response to the use of the refresh token. -/
def OidcEvent.redeemsRefresh (token : String) : OidcEvent → Bool
  | .issued ⟨_, _, .refresh req, _⟩ => req.refreshToken = token
  | _ => false

/-- A response to the exchange of a code redeems its key. -/
theorem OidcEvent.key_of_redeemsCode {code : String} {e : OidcEvent}
    (h : e.redeemsCode code = true) : e.key cfg = some (.code code) := by
  rw [redeemsCode.eq_def] at h
  split at h
  · simpa [key, Grant.key] using h
  · simp at h

/-- A response to the use of a refresh token redeems its key. -/
theorem OidcEvent.key_of_redeemsRefresh {token : String} {e : OidcEvent}
    (h : e.redeemsRefresh token = true) :
    e.key cfg = some (.refresh (hashToken cfg token)) := by
  rw [redeemsRefresh.eq_def] at h
  split at h
  · simp only [decide_eq_true_eq] at h
    simp [key, Grant.key, h]
  · simp at h

/-- A key is redeemed at most once. -/
theorem Lifecycle.countP_le_one {s : OidcState} {status : RedemptionKey → KeyStatus}
    (h : Lifecycle cfg s status) {p : OidcEvent → Bool} {key : RedemptionKey}
    (hp : ∀ e, p e = true → e.key cfg = some key) : s.history.countP p ≤ 1 := by
  have hmono : s.history.countP p ≤ s.history.countP fun e => e.key cfg = some key :=
    List.countP_mono_left fun e _ he => by simpa using hp e he
  have hcount := h.count key
  split at hcount <;> omega

/-- **Codes and refresh tokens are single use where redemptions are exclusive.** In a run
whose steps are all exclusive, each code and each refresh token leads to one response at
most. -/
theorem redeemed_at_most_once_of_exclusive (cfg : OidcConfig) (now : Int)
    (clients : List OidcClient) (as : List OidcAction) (s : OidcState)
    (hrun : run (oidcStep cfg) (OidcState.start now clients) as = some s)
    (hexclusive : Guarded (oidcStep cfg) (Exclusive cfg) (OidcState.start now clients) as) :
    (∀ code, s.history.countP (OidcEvent.redeemsCode code) ≤ 1) ∧
      ∀ token, s.history.countP (OidcEvent.redeemsRefresh token) ≤ 1 := by
  obtain ⟨status, h⟩ := guarded_run_invariant (fun _ _ _ h hg hs => lifecycle_step h hg hs)
    ⟨_, lifecycle_start now clients⟩ hexclusive hrun
  exact ⟨fun code => h.countP_le_one fun e he => e.key_of_redeemsCode he,
    fun token => h.countP_le_one fun e he => e.key_of_redeemsRefresh he⟩

/-- Two exchanges of one code that both look it up before either deletes it. -/
def racingActions : List OidcAction :=
  [.authorize 0 exampleAuthorize "c", .storeCode 0 true,
    .exchange 0 (exampleExchange "c"), .exchange 1 (exampleExchange "c"),
    .getCode 0 true, .getCode 1 true, .deleteCode 0 true, .deleteCode 1 true,
    .issue 0 [] "t1" true true, .issue 1 [] "t2" true true]

/-- A code that is exchanged again after its deletion has failed. -/
def replayActions : List OidcAction :=
  [.authorize 0 exampleAuthorize "c", .storeCode 0 true,
    .exchange 0 (exampleExchange "c"), .getCode 0 true, .deleteCode 0 false,
    .issue 0 [] "t1" true true,
    .exchange 0 (exampleExchange "c"), .getCode 0 true, .deleteCode 0 true,
    .issue 0 [] "t2" true true]

/-- One code leads to two responses, by a race and by a failed deletion. -/
theorem code_redeemed_twice :
    (run (oidcStep exampleConfig) (OidcState.start 0 [exampleClient]) racingActions).map
        (fun s => s.history.countP (OidcEvent.redeemsCode "c")) = some 2 ∧
      (run (oidcStep exampleConfig) (OidcState.start 0 [exampleClient]) replayActions).map
        (fun s => s.history.countP (OidcEvent.redeemsCode "c")) = some 2 := by
  decide +kernel

/-! ### One call at a time -/

/-- The action is not a failing deletion. -/
def OidcAction.deletes : OidcAction → Bool
  | .deleteCode _ ok => ok
  | .deleteRefresh _ ok => ok
  | _ => true

/-- A key is not held when only a call without a claim runs. -/
theorem unheld_of_alone {s : OidcState} {id : Nat} {stage : Stage} {key : RedemptionKey}
    (halone : ∀ id', id' ≠ id → s.calls id' = none) (hcall : s.calls id = some stage)
    (hclaim : stage.claim cfg id = none) : s.Unheld cfg key := by
  intro id' stage' hcall' hheld
  by_cases hid : id' = id
  · subst hid
    obtain rfl := Option.some.inj (hcall.symm.trans hcall')
    simp [hclaim] at hheld
  · simp [halone id' hid] at hcall'

/-- The steps of a call that runs alone are exclusive when its deletions succeed. -/
theorem exclusive_of_alone {s : OidcState} {id : Nat} {a : OidcAction}
    (halone : ∀ id', id' ≠ id → s.calls id' = none) (ha : ∀ id', a.call = some id' → id' = id)
    (hdeletes : a.deletes = true) : Exclusive cfg s a := by
  cases a with
  | getCode id' ok =>
      obtain rfl := ha id' rfl
      cases ok with
      | true => exact fun client req record hcall _ _ => unheld_of_alone halone hcall rfl
      | false => trivial
  | getRefresh id' ok =>
      obtain rfl := ha id' rfl
      cases ok with
      | true => exact fun client req record hcall _ _ => unheld_of_alone halone hcall rfl
      | false => trivial
  | deleteCode id' ok =>
      cases ok with
      | true => trivial
      | false => simp [OidcAction.deletes] at hdeletes
  | deleteRefresh id' ok =>
      cases ok with
      | true => trivial
      | false => simp [OidcAction.deletes] at hdeletes
  | _ => trivial

/-- **Calls that run one at a time are exclusive**, when their deletions succeed. -/
theorem exclusive_of_sequential {s : OidcState} (id : Nat) {as : List OidcAction}
    (halone : ∀ id', id' ≠ id → s.calls id' = none)
    (has : ∀ a ∈ as, (∀ id', a.call = some id' → id' = id) ∧ a.deletes = true) :
    Guarded (oidcStep cfg) (Exclusive cfg) s as := by
  refine guarded_of_invariant (P := fun s => ∀ id', id' ≠ id → s.calls id' = none)
    (fun s a halone ha => exclusive_of_alone halone ha.1 ha.2) ?_ halone has
  intro s a s' halone ha hstep id' hid
  have hne : a.call ≠ some id' := fun hcall => hid (ha.1 id' hcall)
  rw [(oidcStep_cases hstep).calls_of_ne hne, halone id' hid]

/-- In the example, whose calls run one at a time, the code leads to one response. -/
theorem redeemed_at_most_once_of_exclusive_example :
    ∃ s, run (oidcStep exampleConfig) (OidcState.start 0 [exampleClient]) exampleActions = some s ∧
      OidcEvent.issued exampleExchanged ∈ s.history ∧
      s.history.countP (OidcEvent.redeemsCode "c") ≤ 1 := by
  obtain ⟨s, hrun, hhistory⟩ := Option.map_eq_some_iff.mp exampleActions_history
  have hexclusive : Guarded (oidcStep exampleConfig) (Exclusive exampleConfig)
      (OidcState.start 0 [exampleClient]) exampleActions :=
    exclusive_of_sequential 0 (fun _ _ => rfl)
      (by simp [exampleActions, OidcAction.call, OidcAction.deletes])
  refine ⟨s, hrun, by simp [hhistory, examplePast], ?_⟩
  exact (redeemed_at_most_once_of_exclusive exampleConfig 0 [exampleClient] exampleActions s hrun
    hexclusive).1 "c"

end IdpForge
