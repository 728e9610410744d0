import EcmaCore.Proofs.Guarantee.Program
import EcmaCore.Proofs.World.Settle

/-!
# What becomes of functions

A function never changes: the code of an ordinary function and the environment that it
closed over, the target of a bound function with its `this` and arguments, stay what
they were when it was created. Changes of an object concern its properties, its
extensibility and the buffer that it may be.

## Main results

* `functionsKeep_change`: a single change leaves every function what it is.
* `functionsKeep_guarantee`: so does every run, whatever user code takes part in it.
-/

namespace EcmaCore

namespace Object

theorem function?_of_nature {o o' : Object} (h : o'.nature = o.nature) :
    o'.function? = o.function? := by
  rw [function?, function?, h]

@[simp] theorem function?_defineQuietly (o : Object) (key : PropertyKey)
    (update : PropertyUpdate) : (o.defineQuietly key update).function? = o.function? :=
  function?_of_nature (nature_defineQuietly o key update)

theorem function?_ofOrdinary (prototype : ObjectId) (name : String) (length : UInt32)
    (f : OrdinaryFunction) :
    (ofOrdinary prototype name length f).function? = some (.ordinary f) := by
  rw [ofOrdinary, setFunctionName, function?_defineQuietly, setFunctionLength,
    function?_defineQuietly]
  rfl

theorem function?_ofNative (prototype : Option ObjectId) (key : PropertyKey) (arity : UInt32)
    (call : Behaviour) (construct : Option Behaviour) :
    (ofNative prototype key arity call construct).function? =
      some (.native { name := key.functionName, arity, call, construct }) := by
  rw [ofNative, setFunctionName, function?_defineQuietly, setFunctionLength,
    function?_defineQuietly]
  rfl

theorem function?_of_buffer {o : Object} {b : Buffer} (h : o.buffer? = some b) :
    o.function? = none := by
  unfold buffer? at h
  unfold function?
  split at h
  · next hnature => rw [hnature]
  · cases h

theorem function?_givenUp (o : Object) : o.givenUp.function? = o.function? := by
  unfold givenUp
  split
  · next b hnature =>
    split
    · rw [function?, function?, hnature]
    · rfl
  · rfl

end Object

namespace World

variable {σ : Type}

/-- Every function is what it was. -/
def FunctionsKeep (w w' : World σ) : Prop :=
  ∀ o f, w.function? o = some f → w'.function? o = some f

theorem functionsKeep_of_objects {w w' : World σ} (h : w'.objects = w.objects) :
    w.FunctionsKeep w' := by
  intro o f hf
  rw [function?, object, h]
  exact hf

/-- Changing an object into one that is the same function changes no function. -/
theorem functionsKeep_modifyObject (w : World σ) (o : ObjectId) {f : Object → Object}
    (h : (f (w.object o)).function? = (w.object o).function?) :
    w.FunctionsKeep (w.modifyObject o f) := by
  intro other g hg
  rw [function?, object_modifyObject]
  split
  · next heq =>
    rw [← heq.1, h]
    rw [← heq.1] at hg
    exact hg
  · exact hg

theorem functionsKeep_setBuffer {w : World σ} {o : ObjectId} {b : Buffer} (b' : Buffer)
    (h : w.buffer? o = some b) : w.FunctionsKeep (w.setBuffer o b') := by
  apply w.functionsKeep_modifyObject
  rw [Object.function?_of_buffer h]
  rfl

/-- A new object takes the place of no function. -/
theorem functionsKeep_addObject (w : World σ) (new : Object) :
    w.FunctionsKeep (w.addObject new).2 := by
  intro o f hf
  rw [function?, object_addObject]
  split
  · next hnew =>
    rw [function?, w.object_of_size_le (Nat.le_of_eq hnew.symm)] at hf
    cases hf
  · exact hf

/-- Giving up entities changes no function. -/
theorem functionsKeep_settle [Embedding σ] (w : World σ) : w.FunctionsKeep w.settle := by
  intro o f hf
  rw [settle_eq, ← hf]
  apply foldl_giveUp_eq (·.function? o)
  intro e _ w'
  show ((w'.giveUp e).object o).function? = (w'.object o).function?
  rw [object_giveUp]
  split
  · exact (w'.object o).function?_givenUp
  · rfl

/-- A single change leaves every function what it is. -/
theorem functionsKeep_change [Embedding σ] {L : Licence} {w w' : World σ} (h : Change L w w') :
    w.FunctionsKeep w' := by
  cases h with
  | settle => exact w.functionsKeep_settle
  | define o key update h =>
      rw [define_eq]
      exact w.functionsKeep_modifyObject o (Object.function?_defineQuietly _ key update)
  | delete o key =>
      rw [delete_eq]
      apply w.functionsKeep_modifyObject
      exact Object.function?_of_nature (Object.nature_delete _ key)
  | preventExtensions o => exact w.functionsKeep_modifyObject o rfl
  | addObject new => exact w.functionsKeep_addObject new
  | addUncharged => exact w.functionsKeep_addObject _
  | addBuffer => exact functionsKeep_addObject _ _
  | resize o _ hbuffer => exact functionsKeep_setBuffer _ hbuffer
  | detach o =>
      unfold detachBuffer
      split
      · exact functionsKeep_of_objects rfl
      · next hbuffer => exact functionsKeep_setBuffer _ hbuffer
  | fill o =>
      unfold fillBuffer
      split
      · exact functionsKeep_of_objects rfl
      · next hbuffer => exact functionsKeep_setBuffer _ hbuffer
  | reserve h =>
      obtain ⟨_, _, _, rfl⟩ := reserve_eq_ok h
      exact functionsKeep_of_objects rfl
  | moveReservation h =>
      rcases moveReservation_eq_ok h with ⟨_, rfl⟩ | ⟨_, _, _, _, rfl⟩ <;>
        exact functionsKeep_of_objects rfl
  | dropReservation r =>
      unfold World.dropReservation
      split <;> exact functionsKeep_of_objects rfl
  | _ => exact functionsKeep_of_objects rfl

/-- No run changes a function. -/
theorem functionsKeep_guarantee [Embedding σ] (L : Licence) :
    RunGuarantee L (FunctionsKeep (σ := σ)) where
  refl _ := functionsKeep_of_objects rfl
  trans h h' o f hf := h' o f (h o f hf)
  change := functionsKeep_change
  contexts _ _ := functionsKeep_of_objects rfl

end World

/-- Calls and constructions change no function. -/
theorem Program.engine_functionsKeep {σ : Type} [Embedding σ] (P : Program σ) (budget : Nat) :
    (P.engine budget).Guarantees World.FunctionsKeep :=
  (World.functionsKeep_guarantee .all).engine
    (fun _ _ => Script.allRequests_of Request.admitted_all _) budget

end EcmaCore
