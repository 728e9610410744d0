import EcmaCore.Proofs.Guarantee.Program
import EcmaCore.Proofs.World.Settle

/-!
# Prototypes stay

An object gets its prototype when it is created and has it for good. No single change
replaces the prototype of an object that was there, so no run of a program does, whatever
user code takes part in it.

## Main results

* `World.prototypesStay_change`: a single change leaves every prototype alone.
* `Program.engine_prototypesStay`: so do calls and constructions.
-/

namespace EcmaCore

namespace Object

@[simp] theorem prototype_defineQuietly (o : Object) (key : PropertyKey) (update : PropertyUpdate) :
    (o.defineQuietly key update).prototype = o.prototype := by
  unfold defineQuietly
  cases h : o.define key update with
  | none => rfl
  | some changed => exact (define_frame h).1

@[simp] theorem prototype_delete (o : Object) (key : PropertyKey) :
    ((o.delete key).getD o).prototype = o.prototype := by
  unfold delete
  split
  · rfl
  · split <;> rfl

end Object

namespace World

variable {σ : Type}

/-- Every object of a world is there in another one and has the prototype that it had. -/
def PrototypesStay (w w' : World σ) : Prop :=
  ∀ o : ObjectId, o.index < w.objects.size →
    o.index < w'.objects.size ∧ (w'.object o).prototype = (w.object o).prototype

theorem prototypesStay_of_objects {w w' : World σ} (h : w'.objects = w.objects) :
    w.PrototypesStay w' := by
  intro o hlt
  rw [object, object, h]
  exact ⟨hlt, rfl⟩

theorem PrototypesStay.trans {u v w : World σ} (h : u.PrototypesStay v) (h' : v.PrototypesStay w) :
    u.PrototypesStay w := by
  intro o hlt
  obtain ⟨hv, hprototype⟩ := h o hlt
  obtain ⟨hw, hprototype'⟩ := h' o hv
  exact ⟨hw, hprototype'.trans hprototype⟩

/-- Changing an object into one with the same prototype leaves every prototype alone. -/
theorem prototypesStay_modifyObject (w : World σ) (o : ObjectId) {f : Object → Object}
    (h : ∀ x, (f x).prototype = x.prototype) : w.PrototypesStay (w.modifyObject o f) := by
  intro other hlt
  refine ⟨by simpa [modifyObject] using hlt, ?_⟩
  rw [object_modifyObject]
  split
  · exact h _
  · rfl

theorem prototypesStay_setBuffer (w : World σ) (o : ObjectId) (b : Buffer) :
    w.PrototypesStay (w.setBuffer o b) :=
  w.prototypesStay_modifyObject o fun _ => rfl

theorem prototypesStay_addObject (w : World σ) (new : Object) :
    w.PrototypesStay (w.addObject new).2 := by
  intro o hlt
  refine ⟨by simpa [addObject] using Nat.lt_succ_of_lt hlt, ?_⟩
  rw [object_addObject, if_neg (Nat.ne_of_lt hlt)]

theorem prototypesStay_giveUp (w : World σ) (e : Entity) : w.PrototypesStay (w.giveUp e) := by
  unfold giveUp
  split
  · split
    · split
      · exact w.prototypesStay_setBuffer _ _
      · exact prototypesStay_of_objects rfl
    · exact prototypesStay_of_objects rfl
  · exact prototypesStay_of_objects rfl
  · exact prototypesStay_of_objects rfl

/-- A single change leaves every prototype alone. -/
theorem prototypesStay_change [Embedding σ] {L : Licence} {w w' : World σ} (h : Change L w w') :
    w.PrototypesStay w' := by
  cases h with
  | settle =>
      exact settle_induction (motive := w.PrototypesStay) (prototypesStay_of_objects rfl)
        fun u e h => h.trans (u.prototypesStay_giveUp e)
  | define o key update h =>
      rw [define_eq]
      exact w.prototypesStay_modifyObject o fun x => x.prototype_defineQuietly key update
  | delete o key =>
      rw [delete_eq]
      exact w.prototypesStay_modifyObject o fun x => x.prototype_delete key
  | preventExtensions o => exact w.prototypesStay_modifyObject o fun _ => rfl
  | addObject new => exact w.prototypesStay_addObject new
  | addUncharged => exact w.prototypesStay_addObject _
  | addBuffer => exact prototypesStay_addObject _ _
  | resize o => exact w.prototypesStay_setBuffer o _
  | detach o =>
      unfold detachBuffer
      split
      · exact prototypesStay_of_objects rfl
      · exact w.prototypesStay_setBuffer o _
  | fill o =>
      unfold fillBuffer
      split
      · exact prototypesStay_of_objects rfl
      · exact w.prototypesStay_setBuffer o _
  | reserve h =>
      obtain ⟨_, _, _, rfl⟩ := reserve_eq_ok h
      exact prototypesStay_of_objects rfl
  | moveReservation h =>
      rcases moveReservation_eq_ok h with ⟨_, rfl⟩ | ⟨_, _, _, _, rfl⟩ <;>
        exact prototypesStay_of_objects rfl
  | dropReservation r =>
      unfold World.dropReservation
      split <;> exact prototypesStay_of_objects rfl
  | _ => exact prototypesStay_of_objects rfl

/-- No run replaces a prototype. -/
theorem prototypesStay_guarantee [Embedding σ] (L : Licence) :
    RunGuarantee L (PrototypesStay (σ := σ)) where
  refl _ := prototypesStay_of_objects rfl
  trans := PrototypesStay.trans
  change := prototypesStay_change
  contexts _ _ := prototypesStay_of_objects rfl

end World

/-- Calls and constructions replace no prototype. -/
theorem Program.engine_prototypesStay {σ : Type} [Embedding σ] (P : Program σ) (budget : Nat) :
    (P.engine budget).Guarantees World.PrototypesStay :=
  (World.prototypesStay_guarantee .all).engine
    (fun _ _ => Script.allRequests_of Request.admitted_all _) budget

end EcmaCore
