import EcmaCore.Engine.Convert
import EcmaCore.Proofs.Guarantee.Basic
import EcmaCore.Proofs.World.Settle

/-!
# What operations let go of

Operations that run user code do it inside of `Action.holding`, which lets go of everything
that was held on to inside. So a conversion ends with the same entities held on to with
which it started, whatever the code does. Whoever holds on to an object while it converts
something else still has the object afterwards: it does not depart, and settling leaves it
as it is.

## Main results

* `Action.LetsGo.holding`: what is run while entities are held on to.
* `Engine.letsGo_toIndex`: conversions, down to the property that they read first.
* `World.object_settle_of_held`: what is held on to outlasts settling.
-/

namespace EcmaCore

variable {σ α β : Type}

namespace Action

/-- An action ends with the same entities held on to with which it started. -/
def LetsGo (act : Action σ α) : Prop := act.Guarantees fun w w' => w'.held = w.held

namespace LetsGo

theorem pure (a : α) : (Pure.pure a : Action σ α).LetsGo := fun _ => rfl

theorem fail (e : Error) : (Action.fail e : Action σ α).LetsGo := fun _ => rfl

theorem ofExcept (x : Except Error α) : (Action.ofExcept x : Action σ α).LetsGo := by
  cases x <;> exact fun _ => rfl

theorem bind {act : Action σ α} {next : α → Action σ β} (hact : act.LetsGo)
    (hnext : ∀ a, (next a).LetsGo) : (act >>= next).LetsGo := by
  intro w
  cases hrun : act w with
  | error e w' =>
      rw [Action.after_of_error (Action.bind_error hrun)]
      exact hact.of_error hrun
  | ok a w' =>
      rw [Action.after, Action.bind_ok hrun]
      exact (hnext a w').trans (hact.of_ok hrun)

theorem ite {c : Prop} [Decidable c] {act other : Action σ α} (hact : act.LetsGo)
    (hother : other.LetsGo) : (if c then act else other).LetsGo :=
  Guarantees.ite hact hother

theorem look {next : World σ → Action σ α} (hnext : ∀ w, (next w).LetsGo) :
    (MonadState.get >>= next).LetsGo :=
  .bind (fun _ => rfl) hnext

/-- What is run while entities are held on to may do as it likes. -/
theorem holding (entities : List Entity) (act : Action σ α) : (act.holding entities).LetsGo := by
  intro w
  rw [Action.after, Action.holding_apply]
  cases act { w with held := entities ++ w.held } <;> rfl

end LetsGo

end Action

namespace Engine

variable (E : Engine σ)

theorem letsGo_getProperty (o : ObjectId) (key : PropertyKey) : (E.getProperty o key).LetsGo := by
  unfold getProperty getFor
  refine .look fun w => ?_
  split
  · exact .pure _
  · exact .pure _
  · exact .pure _
  · exact .holding _ _

theorem letsGo_getMethod (o : ObjectId) (key : PropertyKey) : (E.getMethod o key).LetsGo := by
  unfold getMethod
  refine .bind (E.letsGo_getProperty o key) fun v => ?_
  split
  · exact .pure _
  · exact .pure _
  · exact .look fun w => .ite (.pure _) (.fail _)
  · exact .fail _

theorem letsGo_firstPrimitive (o : ObjectId) (names : List String) :
    (E.firstPrimitive o names).LetsGo := by
  induction names with
  | nil => exact .fail _
  | cons name names ih =>
      unfold firstPrimitive
      refine .bind (E.letsGo_getProperty o _) fun method => .look fun w => .ite ?_ ih
      refine .bind (.holding _ _) fun result => ?_
      split
      · exact ih
      · exact .pure _

theorem letsGo_toPrimitive (v : Value) (hint : Hint) : (E.toPrimitive v hint).LetsGo := by
  unfold toPrimitive
  split
  · refine .bind (E.letsGo_getMethod _ _) fun method => ?_
    split
    · refine .bind (.holding _ _) fun result => ?_
      split
      · exact .fail _
      · exact .pure _
    · exact E.letsGo_firstPrimitive _ _
  · exact .pure _

/-- Converting a value to an index lets go of everything, whatever code it runs. -/
theorem letsGo_toIndex (v : Value) : (E.toIndex v).LetsGo := by
  unfold toIndex toIntegerOrInfinity toNumber
  refine .ite (.pure _) (.bind (.bind (.bind (E.letsGo_toPrimitive v _) fun primitive => ?_)
    fun x => .pure _) fun integer => ?_)
  · exact .ofExcept _
  · split
    · exact .pure _
    · exact .fail _

end Engine

namespace World

variable {w : World σ}

/-- What is held on to does not depart. -/
theorem not_departs_of_held {e : Entity} (h : e ∈ w.held) (roots : List Entity) :
    ¬w.Departs roots e := by
  rintro ⟨-, hown, -, -⟩
  refine hown ?_
  rw [ownRoots, List.append_assoc]
  exact List.mem_append_left _ h

/-- Settling leaves an object that is held on to as it is. -/
theorem object_settle_of_held [Embedding σ] {o : ObjectId} (h : .object o ∈ w.held) :
    w.settle.object o = w.object o :=
  object_settle (not_departs_of_held h _)

end World

end EcmaCore
