import IdpForge.TransitionSystem
import Mathlib.Logic.Function.Basic

/-!
# Concurrent Read-Modify-Write

A call reads a shared value, edits its own copy and writes that back; other calls read and
write in between, and nothing tells a call that its copy is stale. The edits that were written,
in the order of their writes, are the order in which the calls would have to be made one at a
time to end with the same value.

Values are compared by an equivalence that every edit respects.

## Main results

* `inOrder_step_iff`: a write keeps the value explained exactly when the edit would not have
  come out otherwise on the value it overwrites.
* `alongRun_inOrder_iff`: the runs along which the order of the writes explains the value.
* `exists_order_of_guarded`: along those the value is that of the calls made one at a time.
-/

open TransitionSystem

namespace ReadModifyWrite

variable {V E : Type*}

/-- The shared value, the copies that were read with the edits they are read for, and the edits
that were written, oldest first. -/
structure State (V E : Type*) where
  value : V
  copies : Nat → Option (E × V)
  written : List E

/-- The two halves of a call. -/
inductive Action (E : Type*) where
  | read (id : Nat) (e : E)
  | write (id : Nat)
  deriving DecidableEq, Repr

section Steps

variable (edit : E → V → V)

/-- One step. -/
def step (s : State V E) : Action E → Option (State V E)
  | .read id e =>
      if (s.copies id).isSome then none
      else some { s with copies := Function.update s.copies id (some (e, s.value)) }
  | .write id =>
      (s.copies id).map fun copy =>
        { value := edit copy.1 copy.2
          copies := Function.update s.copies id none
          written := s.written ++ [copy.1] }

/-- The value after the edits one at a time. -/
def inSequence (v : V) (edits : List E) : V := edits.foldl (fun v e => edit e v) v

/-- One more edit. -/
theorem inSequence_snoc (v : V) (edits : List E) (e : E) :
    inSequence edit v (edits ++ [e]) = edit e (inSequence edit v edits) := by
  rw [inSequence, List.foldl_append]
  rfl

variable (R : V → V → Prop)

/-- The value is the one of the written edits in their order. -/
def InOrder (v : V) (s : State V E) : Prop := R s.value (inSequence edit v s.written)

/-- A write whose edit comes out the same on the copy as on the value it overwrites. -/
def Current (s : State V E) : Action E → Prop
  | .read _ _ => True
  | .write id => ∀ e copy, s.copies id = some (e, copy) → R (edit e copy) (edit e s.value)

end Steps

variable {edit : E → V → V} {R : V → V → Prop} {v : V} {s s' : State V E} {as : List (Action E)}

section Explained

variable (hR : Equivalence R) (hedit : ∀ e v w, R v w → R (edit e v) (edit e w))

include hR hedit

/-- **One step.** Where the value is explained, it is still explained after a write exactly when
the write was current. -/
theorem inOrder_step_iff {a : Action E} (h : InOrder edit R v s) (hstep : step edit s a = some s') :
    InOrder edit R v s' ↔ Current edit R s a := by
  cases a with
  | read id e =>
      rw [step] at hstep
      split at hstep
      · cases hstep
      · obtain rfl := Option.some.inj hstep
        exact iff_of_true h trivial
  | write id =>
      obtain ⟨⟨e, copy⟩, hcopy, rfl⟩ := Option.map_eq_some_iff.mp hstep
      have hsame : R (edit e s.value) (edit e (inSequence edit v s.written)) := hedit e _ _ h
      rw [InOrder, inSequence_snoc, Current]
      constructor
      · intro hafter e' copy' hcopy'
        obtain ⟨rfl, rfl⟩ := Prod.mk.inj (Option.some.inj (hcopy.symm.trans hcopy'))
        exact hR.trans hafter (hR.symm hsame)
      · intro hcurrent
        exact hR.trans (hcurrent e copy hcopy) hsame

/-- **The runs without a lost edit.** -/
theorem alongRun_inOrder_iff (h : InOrder edit R v s) (hrun : run (step edit) s as = some s') :
    AlongRun (step edit) (InOrder edit R v) s as ↔
      Guarded (step edit) (Current edit R) s as :=
  alongRun_iff_guarded (I := fun _ => True) (fun _ _ _ _ _ _ => trivial)
    (fun _ _ _ _ h _ hstep => inOrder_step_iff hR hedit h hstep) trivial h (guarded_true s as) hrun

/-- Along a run of current writes the value is the one of the calls in some order, which is that
of the writes. -/
theorem exists_order_of_guarded (h : InOrder edit R v s) (hrun : run (step edit) s as = some s')
    (hguard : Guarded (step edit) (Current edit R) s as) :
    ∃ order, order.Perm s'.written ∧ R s'.value (inSequence edit v order) :=
  ⟨s'.written, .refl _, ((alongRun_inOrder_iff hR hedit h hrun).mpr hguard).last hrun⟩

end Explained

end ReadModifyWrite
