import IdpForge.ReadModifyWrite
import IdpForge.SecondFactor

/-!
# Concurrent Changes of the Security Keys

`AddCredential` and `RemoveCredential` load a user's whole list of credentials, change their
copy and save it. Requests run side by side, so between the two statements of a call other calls
save their own copies, which the call then overwrites. This is the read-modify-write of
`ReadModifyWrite`, on the column `webauthn_credentials`.

All statements succeed here, so that each call returns `nil` with its save.

## Main results

* `run_alone`: a call that meets no other is `addCredential` or `removeCredential`.
* `mem_inSequence_iff`: after calls one at a time a credential is stored when the last call about
  it added it.
* `security_keys_kept_iff`: the runs along which the saves, in their order, explain the list.
* `security_key_lost`: two additions, one key.
-/

open ReadModifyWrite TransitionSystem

namespace IdpForge

/-- A call on the credentials of the user. -/
inductive CredentialCall where
  | add (cred : WebAuthnCredential)
  | remove (credentialID : List UInt8)
  deriving DecidableEq, Repr

namespace CredentialCall

/-- What the call makes of its copy. -/
def edit : CredentialCall → List WebAuthnCredential → List WebAuthnCredential
  | .add cred, creds => creds ++ [cred]
  | .remove credentialID, creds => creds.filter fun c => c.id ≠ credentialID

/-- The credentials whose presence the call settles. -/
def Settles : CredentialCall → WebAuthnCredential → Prop
  | .add cred, c => c = cred
  | .remove credentialID, c => c.id = credentialID

/-- The call, with nothing else going on. -/
def exec (fails : FactorOp → Bool) (s : FactorState) (userID : String) :
    CredentialCall → Option FactorState
  | .add cred => addCredential fails s userID cred
  | .remove credentialID => removeCredential fails s userID credentialID

end CredentialCall

/-- The tables, the copies of the calls under way, and the calls that have returned. -/
structure CredentialRaces where
  factors : FactorState
  loaded : Nat → Option (CredentialCall × List WebAuthnCredential)
  returned : List CredentialCall

/-- No call has been made yet. -/
def CredentialRaces.start (factors : FactorState) : CredentialRaces :=
  ⟨factors, fun _ => none, []⟩

section Steps

variable (userID : String)

/-- `Load` and `save`, of a call on the user's credentials. -/
def credentialStep (s : CredentialRaces) : Action CredentialCall → Option CredentialRaces
  | .read id call =>
      if (s.loaded id).isSome then none
      else
        (loadCredentials (fun _ => false) s.factors userID).map fun creds =>
          { s with loaded := Function.update s.loaded id (some (call, creds)) }
  | .write id =>
      (s.loaded id).bind fun copy =>
        (saveCredentials (fun _ => false) s.factors userID (copy.1.edit copy.2)).map fun factors =>
          { factors := factors
            loaded := Function.update s.loaded id none
            returned := s.returned ++ [copy.1] }

/-- The column, the copies and the calls. -/
def CredentialRaces.view (s : CredentialRaces) : State (List WebAuthnCredential) CredentialCall :=
  ⟨s.factors.credentials userID, s.loaded, s.returned⟩

/-- Between the load and the save of a call, no credential has come or gone that the call does
not settle itself. -/
def UpToDate (s : CredentialRaces) : Action CredentialCall → Prop
  | .read _ _ => True
  | .write id => ∀ call copy, s.loaded id = some (call, copy) →
      ∀ cred, ¬ call.Settles cred → (cred ∈ copy ↔ cred ∈ s.factors.credentials userID)

end Steps

/-! ### The calls one at a time -/

section Sequence

variable {userID : String} {creds : List WebAuthnCredential} {cred : WebAuthnCredential}
  {call : CredentialCall}

/-- `Load` answers with the stored list. -/
theorem credentials_of_loadCredentials {fails : FactorOp → Bool} {s : FactorState}
    (h : loadCredentials fails s userID = some creds) : s.credentials userID = creds := by
  rw [loadCredentials_eq] at h
  split at h
  · exact Option.some.inj h
  · cases h

/-- `save` writes the list. -/
theorem saveCredentials_credentials {fails : FactorOp → Bool} {s s' : FactorState}
    (h : saveCredentials fails s userID creds = some s') : s'.credentials userID = creds := by
  rw [saveCredentials] at h
  split at h
  · cases h
  · obtain rfl := Option.some.inj h
    exact Function.update_self ..

/-- A call without others edits the stored list. -/
theorem exec_credentials {fails : FactorOp → Bool} {s s' : FactorState}
    (h : call.exec fails s userID = some s') :
    s'.credentials userID = call.edit (s.credentials userID) := by
  cases call with
  | add cred =>
      obtain ⟨creds, hload, hsave⟩ := Option.bind_eq_some_iff.mp h
      rw [credentials_of_loadCredentials hload]
      exact saveCredentials_credentials hsave
  | remove credentialID =>
      obtain ⟨creds, hload, hsave⟩ := Option.bind_eq_some_iff.mp h
      rw [credentials_of_loadCredentials hload]
      exact saveCredentials_credentials hsave

/-- **One call alone.** A save right after its load is the call as the store executes it. -/
theorem run_alone {s : CredentialRaces} {id : Nat} (hidle : s.loaded id = none) :
    run (credentialStep userID) s [.read id call, .write id] =
      (call.exec (fun _ => false) s.factors userID).map fun factors =>
        { s with factors := factors, returned := s.returned ++ [call] } := by
  have hback : Function.update s.loaded id none = s.loaded := by
    rw [← hidle, Function.update_eq_self]
  rw [run_cons, credentialStep, hidle]
  cases hload : loadCredentials (fun _ => false) s.factors userID with
  | none => cases call <;> simp [CredentialCall.exec, addCredential, removeCredential, hload]
  | some creds =>
      have hexec : call.exec (fun _ => false) s.factors userID =
          saveCredentials (fun _ => false) s.factors userID (call.edit creds) := by
        cases call <;>
          simp [CredentialCall.exec, addCredential, removeCredential, hload, CredentialCall.edit]
      simp [credentialStep, hexec, hback]

/-- What an edit leaves. -/
theorem mem_edit_iff :
    cred ∈ call.edit creds ↔ call = .add cred ∨ ¬ call.Settles cred ∧ cred ∈ creds := by
  cases call with
  | add c =>
      by_cases hc : c = cred
      · simp [CredentialCall.edit, hc]
      · simp [CredentialCall.edit, CredentialCall.Settles, hc, Ne.symm hc]
  | remove credentialID => simp [CredentialCall.edit, CredentialCall.Settles, and_comm]

/-- A call settles what it adds or removes. -/
theorem settles_iff : call.Settles cred ↔ call = .add cred ∨ call = .remove cred.id := by
  cases call <;> simp [CredentialCall.Settles, eq_comm]

/-- A credential was added and not removed afterwards. -/
def Added (cred : WebAuthnCredential) (calls : List CredentialCall) : Prop :=
  ∃ before after, calls = before ++ .add cred :: after ∧ .remove cred.id ∉ after

/-- The first call is the addition, or it comes later. -/
theorem added_cons_iff {calls : List CredentialCall} :
    Added cred (call :: calls) ↔
      (call = .add cred ∧ .remove cred.id ∉ calls) ∨ Added cred calls := by
  constructor
  · rintro ⟨before, after, hcalls, hafter⟩
    cases before with
    | nil =>
        obtain ⟨rfl, rfl⟩ := List.cons.inj hcalls
        exact Or.inl ⟨rfl, hafter⟩
    | cons c before => exact Or.inr ⟨before, after, (List.cons.inj hcalls).2, hafter⟩
  · rintro (⟨rfl, hafter⟩ | ⟨before, after, rfl, hafter⟩)
    · exact ⟨[], calls, rfl, hafter⟩
    · exact ⟨call :: before, after, rfl, hafter⟩

/-- **The calls in a sequence.** A credential is in the list when it was added and not removed
afterwards, or was there and has not been removed. -/
theorem mem_inSequence_iff {calls : List CredentialCall} :
    cred ∈ inSequence CredentialCall.edit creds calls ↔
      Added cred calls ∨ cred ∈ creds ∧ .remove cred.id ∉ calls := by
  induction calls generalizing creds with
  | nil => simp [inSequence, Added]
  | cons call calls ih =>
      have hnext : inSequence CredentialCall.edit creds (call :: calls) =
          inSequence CredentialCall.edit (call.edit creds) calls := rfl
      have hne : call = .add cred → call ≠ .remove cred.id := by
        rintro rfl
        simp
      rw [hnext, ih, mem_edit_iff, settles_iff, added_cons_iff, List.mem_cons]
      have hcomm : (CredentialCall.remove cred.id = call) = (call = .remove cred.id) :=
        propext eq_comm
      rw [hcomm]
      tauto

end Sequence

/-! ### The calls side by side -/

section Races

variable {userID : String}

/-- Two lists with the same credentials. -/
def SameCredentials (creds creds' : List WebAuthnCredential) : Prop :=
  ∀ cred, cred ∈ creds ↔ cred ∈ creds'

/-- Lists are compared by an equivalence. -/
theorem sameCredentials_equivalence : Equivalence SameCredentials :=
  ⟨fun _ _ => Iff.rfl, fun h cred => (h cred).symm, fun h h' cred => (h cred).trans (h' cred)⟩

/-- The calls do not tell lists with the same credentials apart. -/
theorem SameCredentials.edit (call : CredentialCall) (creds creds' : List WebAuthnCredential)
    (h : SameCredentials creds creds') : SameCredentials (call.edit creds) (call.edit creds') := by
  intro cred
  rw [mem_edit_iff, mem_edit_iff, h cred]

/-- A call comes out the same on two lists that agree on what it does not settle. -/
theorem sameCredentials_edit_iff {call : CredentialCall} {creds creds' : List WebAuthnCredential} :
    SameCredentials (call.edit creds) (call.edit creds') ↔
      ∀ cred, ¬ call.Settles cred → (cred ∈ creds ↔ cred ∈ creds') := by
  refine forall_congr' fun cred => ?_
  have hadd : call = .add cred → call.Settles cred := fun h => settles_iff.mpr (Or.inl h)
  rw [mem_edit_iff, mem_edit_iff]
  tauto

/-- **The refinement.** A load or save is a read or write of the column. -/
theorem credentialStep_view {s s' : CredentialRaces} {a : Action CredentialCall}
    (h : credentialStep userID s a = some s') :
    step CredentialCall.edit (s.view userID) a = some (s'.view userID) := by
  cases a with
  | read id call =>
      rw [credentialStep] at h
      split at h
      · cases h
      · next hidle =>
          obtain ⟨creds, hload, rfl⟩ := Option.map_eq_some_iff.mp h
          have hidle' : ¬ ((s.view userID).copies id).isSome = true := hidle
          rw [step, if_neg hidle', ← credentials_of_loadCredentials hload]
          rfl
  | write id =>
      obtain ⟨copy, hcopy, hsaved⟩ := Option.bind_eq_some_iff.mp h
      obtain ⟨factors, hsave, rfl⟩ := Option.map_eq_some_iff.mp hsaved
      have hcolumn := saveCredentials_credentials hsave
      have hcopy' : (s.view userID).copies id = some copy := hcopy
      rw [step, hcopy', Option.map_some, ← hcolumn]
      rfl

/-- A save is current when its copy was not outdated. -/
theorem current_view_iff {s : CredentialRaces} {a : Action CredentialCall} :
    Current CredentialCall.edit SameCredentials (s.view userID) a ↔ UpToDate userID s a := by
  cases a with
  | read id call => exact Iff.rfl
  | write id =>
      exact forall_congr' fun call => forall_congr' fun copy =>
        forall_congr' fun _ => sameCredentials_edit_iff

/-- The stored list is the one of the calls that have returned, in the order of their saves. -/
def SavesExplain (userID : String) (initial : FactorState) (s : CredentialRaces) : Prop :=
  SameCredentials (s.factors.credentials userID)
    (inSequence CredentialCall.edit (initial.credentials userID) s.returned)

/-- **Concurrent changes.** The order of the saves explains the stored list all along a run
exactly when no call saves an outdated copy; and then the list is the one that the calls leave
when they are made one at a time, in some order. -/
theorem security_keys_kept_iff {initial : FactorState} {as : List (Action CredentialCall)}
    {s : CredentialRaces} (hrun : run (credentialStep userID) (.start initial) as = some s) :
    (AlongRun (credentialStep userID) (SavesExplain userID initial) (.start initial) as ↔
      Guarded (credentialStep userID) (UpToDate userID) (.start initial) as) ∧
    (Guarded (credentialStep userID) (UpToDate userID) (.start initial) as →
      ∃ order, order.Perm s.returned ∧ ∀ cred, cred ∈ s.factors.credentials userID ↔
        cred ∈ inSequence CredentialCall.edit (initial.credentials userID) order) := by
  have hstart : InOrder CredentialCall.edit SameCredentials (initial.credentials userID)
      ((CredentialRaces.start initial).view userID) := sameCredentials_equivalence.refl _
  have hrun' := run_view (fun s => s.view userID) (fun _ _ _ => credentialStep_view) hrun
  have hguard : Guarded (step CredentialCall.edit) (Current CredentialCall.edit SameCredentials)
        ((CredentialRaces.start initial).view userID) as ↔
      Guarded (credentialStep userID) (UpToDate userID) (.start initial) as := by
    rw [guarded_view_iff (fun s => s.view userID) (fun _ _ _ => credentialStep_view) hrun]
    simp only [current_view_iff]
  rw [← hguard]
  constructor
  · rw [← alongRun_inOrder_iff sameCredentials_equivalence SameCredentials.edit hstart hrun']
    exact (alongRun_view_iff (P := InOrder CredentialCall.edit SameCredentials
      (initial.credentials userID)) (fun s => s.view userID) (fun _ _ _ => credentialStep_view)
      hrun).symm
  · exact exists_order_of_guarded sameCredentials_equivalence SameCredentials.edit hstart hrun'

/-- A key. -/
def keyA : WebAuthnCredential := ⟨[1]⟩

/-- Another one. -/
def keyB : WebAuthnCredential := ⟨[2]⟩

/-- Two additions that both load before either saves. -/
def additionsSideBySide : List (Action CredentialCall) :=
  [.read 0 (.add keyA), .read 1 (.add keyB), .write 0, .write 1]

/-- The run of the two additions. -/
theorem security_keys_kept_iff_example :
    ∃ s, run (credentialStep "u") (.start exampleFactors) additionsSideBySide = some s ∧
      (AlongRun (credentialStep "u") (SavesExplain "u" exampleFactors) (.start exampleFactors)
          additionsSideBySide ↔
        Guarded (credentialStep "u") (UpToDate "u") (.start exampleFactors)
          additionsSideBySide) :=
  ⟨_, rfl, (security_keys_kept_iff rfl).1⟩

/-- **The lost key.** Two calls add a key each, both return without an error, and one key is
stored; no order of the two calls leaves that. -/
theorem security_key_lost :
    ∃ s, run (credentialStep "u") (.start exampleFactors) additionsSideBySide = some s ∧
      s.returned = [.add keyA, .add keyB] ∧ s.factors.credentials "u" = [keyB] ∧
      ¬ ∃ order, order.Perm s.returned ∧ ∀ cred, cred ∈ s.factors.credentials "u" ↔
        cred ∈ inSequence CredentialCall.edit (exampleFactors.credentials "u") order := by
  refine ⟨_, rfl, rfl, rfl, ?_⟩
  rintro ⟨order, hperm, hstored⟩
  have hadded : Added keyA order := by
    obtain ⟨before, after, horder⟩ := List.append_of_mem
      (hperm.mem_iff.mpr (List.mem_cons_self : CredentialCall.add keyA ∈ [_, _]))
    refine ⟨before, after, horder, fun hremove => ?_⟩
    have hcalls := hperm.mem_iff.mp (horder ▸ List.mem_append_right before
      (List.mem_cons_of_mem _ hremove))
    revert hcalls
    decide
  have hkept := (hstored keyA).mpr (mem_inSequence_iff.mpr (Or.inl hadded))
  revert hkept
  decide

end Races

end IdpForge
