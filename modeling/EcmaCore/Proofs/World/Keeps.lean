import EcmaCore.Proofs.Guarantee.Program
import EcmaCore.Proofs.Object.Keeps

/-!
# What the objects of a world keep

Every change of a world keeps what its objects promised: it defines or deletes a
property, forbids extensions, or does not touch the properties of any object that
was there. So runs of programs keep it, whatever user code takes part in them, and
whichever way they end.

## Main results

* `World.keeps_change`: a single change keeps every object.
* `Program.runScript_keeps_objects`: so does every run of a program.
-/

namespace EcmaCore

namespace World

variable {σ : Type}

/-- Every object keeps what it promised. -/
def Keeps (w w' : World σ) : Prop :=
  ∀ o, (w.object o).Keeps (w'.object o)

theorem keeps_of_objects {w w' : World σ} (h : w'.objects = w.objects) : w.Keeps w' := by
  intro o
  rw [object, object, h]
  exact .refl _

theorem keeps_modifyObject (w : World σ) (o : ObjectId) {f : Object → Object}
    (h : (w.object o).Keeps (f (w.object o))) : w.Keeps (w.modifyObject o f) := by
  intro other
  rw [object_modifyObject]
  split
  · next heq =>
    rw [← heq.1]
    exact h
  · exact .refl _

theorem keeps_addObject (w : World σ) (new : Object) : w.Keeps (w.addObject new).2 := by
  intro o
  rw [object_addObject]
  split
  · next hnew =>
    rw [w.object_of_size_le (Nat.le_of_eq hnew.symm)]
    exact Object.keeps_of_default new
  · exact .refl _

theorem keeps_setBuffer (w : World σ) (o : ObjectId) (b : Buffer) : w.Keeps (w.setBuffer o b) :=
  w.keeps_modifyObject o (Object.keeps_of_same rfl rfl)

theorem keeps_giveUp (w : World σ) (e : Entity) : w.Keeps (w.giveUp e) := by
  unfold giveUp
  split
  · split
    · split
      · exact w.keeps_modifyObject _ (Object.keeps_of_same rfl rfl)
      · exact keeps_of_objects rfl
    · exact keeps_of_objects rfl
  · exact keeps_of_objects rfl
  · exact keeps_of_objects rfl

theorem Keeps.trans {u v w : World σ} (h : u.Keeps v) (h' : v.Keeps w) : u.Keeps w :=
  fun o => (h o).trans (h' o)

/-- Giving up entities changes no property of any object. -/
theorem keeps_settle [Embedding σ] (w : World σ) : w.Keeps w.settle :=
  settle_induction (motive := w.Keeps) (keeps_of_objects rfl) fun u e h =>
    h.trans (u.keeps_giveUp e)

/-- A single change keeps every object. -/
theorem keeps_change [Embedding σ] {w w' : World σ} (h : Change .coherent w w') : w.Keeps w' := by
  cases h with
  | settle => exact w.keeps_settle
  | define o key update h =>
      rw [define_eq]
      exact w.keeps_modifyObject o (Object.keeps_defineQuietly _ key (h.resolve_right id))
  | delete o key =>
      rw [delete_eq]
      refine w.keeps_modifyObject o ?_
      cases hdelete : (w.object o).delete key with
      | none => exact .refl _
      | some changed => exact Object.keeps_delete hdelete
  | preventExtensions o => exact w.keeps_modifyObject o (Object.keeps_preventExtensions _)
  | addObject new => exact w.keeps_addObject new
  | addUncharged => exact w.keeps_addObject _
  | addBuffer => exact keeps_addObject _ _
  | resize o => exact w.keeps_setBuffer o _
  | detach o =>
      unfold detachBuffer
      split
      · exact keeps_of_objects rfl
      · exact w.keeps_setBuffer o _
  | fill o =>
      unfold fillBuffer
      split
      · exact keeps_of_objects rfl
      · exact w.keeps_setBuffer o _
  | reserve h =>
      obtain ⟨_, _, _, rfl⟩ := reserve_eq_ok h
      exact keeps_of_objects rfl
  | moveReservation h =>
      rcases moveReservation_eq_ok h with ⟨_, rfl⟩ | ⟨_, _, _, _, rfl⟩ <;>
        exact keeps_of_objects rfl
  | dropReservation r =>
      unfold World.dropReservation
      split <;> exact keeps_of_objects rfl
  | _ => exact keeps_of_objects rfl

/-- Keeping what objects promised is a guarantee of runs that make coherent redefinitions. -/
theorem keeps_guarantee [Embedding σ] : RunGuarantee .coherent (Keeps (σ := σ)) where
  refl _ := keeps_of_objects rfl
  trans := Keeps.trans
  change := keeps_change
  contexts _ _ := keeps_of_objects rfl

end World

/-- Whatever a program does from any world on, every object keeps what it promised, provided that
user code redefines properties coherently. -/
theorem Program.runScript_keeps_objects {σ α : Type} [Embedding σ] (P : Program σ)
    (hP : P.AllRequests (·.Admitted .coherent)) (budget : Nat) {script : Script σ α}
    (hscript : script.AllRequests (·.Admitted .coherent)) (w : World σ) (o : ObjectId) :
    (w.object o).Keeps (((P.runScript budget script).after w).object o) :=
  World.keeps_guarantee.runScript hP budget hscript w o

/-- A getter deletes the constant `NaN` of the global object, and a script redefines it and reads
through the getter: the global object keeps the constant. -/
theorem Program.runScript_keeps_constant :
    let w := World.start none (.below 0) ()
    let P : Program Unit := fun _ _ =>
      .ask (.delete w.realm.global "NaN") fun _ => .done .undefined
    let script : Script Unit Unit :=
      .ask (.defineOrFail w.realm.global "NaN" (.ordinary .null)) fun _ =>
        .ask (.newNative none "get" 0 (.code ⟨0⟩) none) fun
          | .ok (.object (some f)) => .ask (.callObject f .undefined []) fun _ => .done ()
          | _ => .done ()
    (w.object w.realm.global).Keeps
      (((P.runScript 1 script).after w).object w.realm.global) := by
  intro w P script
  have hP : P.AllRequests (·.Admitted .coherent) := fun _ _ => ⟨trivial, fun _ => trivial⟩
  have hscript : script.AllRequests (·.Admitted .coherent) := by
    refine ⟨.inl (PropertyUpdate.coherent_ordinary .null), fun _ => ⟨trivial, fun answer => ?_⟩⟩
    dsimp only
    split
    · exact ⟨trivial, fun _ => trivial⟩
    · trivial
  exact P.runScript_keeps_objects hP 1 hscript w w.realm.global

end EcmaCore
