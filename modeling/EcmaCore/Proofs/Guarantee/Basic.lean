import EcmaCore.Proofs.Action
import EcmaCore.Proofs.World.Change

/-!
# Guarantees of actions

A guarantee is a relation between the world in which an action starts and the
world in which it ends, whichever way it ends: with a result, with an error or
without an answer. Relations that every single change respects, and that are
reflexive and transitive, are guaranteed by whatever is put together from
changes. This module has the rules for putting actions together; the modules
beside it apply them to the operations of the runtime, up to whole programs.

The relation is a parameter throughout. An invariant `I` of worlds is the
relation "if `I` held before then it holds now".

## Main results

* `Guarantee.bind`, `Guarantee.bindOf`: one action after another, in the second
  form with what is known of the result of the first.
* `Guarantee.holding`, `Guarantee.settle`: the two ways in which references are
  accounted for.
-/

namespace EcmaCore

variable {σ α β : Type} {R : World σ → World σ → Prop}

/-- The world in which an action ends, whichever way it ends. -/
def Action.after (act : Action σ α) (w : World σ) : World σ :=
  match act w with
  | .ok _ w' => w'
  | .error _ w' => w'

theorem Action.after_of_ok {act : Action σ α} {w w' : World σ} {a : α} (h : act w = .ok a w') :
    act.after w = w' := by
  rw [Action.after, h]

theorem Action.after_of_error {act : Action σ α} {w w' : World σ} {e : Failure}
    (h : act w = .error e w') : act.after w = w' := by
  rw [Action.after, h]

theorem Action.after_congr {act act' : Action σ α} {w : World σ} (h : act w = act' w) :
    act.after w = act'.after w := by
  rw [Action.after, Action.after, h]

theorem Action.after_andFinally (act : Action σ α) (cleanUp : World σ → World σ) (w : World σ) :
    (act.andFinally cleanUp).after w = cleanUp (act.after w) := by
  unfold Action.after Action.andFinally
  cases act w <;> rfl

/-- An action that gives a result ends with it. -/
theorem Action.eq_ok_of_run' {act : Action σ α} {w : World σ} {a : α}
    (h : act.run' w = some a) : act w = .ok a (act.after w) := by
  delta EStateM.run' EStateM.run at h
  cases hact : act w with
  | ok a' w' =>
      rw [hact] at h
      cases h
      rw [after_of_ok hact]
  | error e w' =>
      rw [hact] at h
      cases h

/-- Wherever an action starts, the world in which it ends stands in a relation to that one. -/
def Action.Guarantees (R : World σ → World σ → Prop) (act : Action σ α) : Prop :=
  ∀ w, R w (act.after w)

/-- Everything that an engine runs gives a guarantee. -/
structure Engine.Guarantees (R : World σ → World σ → Prop) (E : Engine σ) : Prop where
  call : ∀ f this args, (E.call f this args).Guarantees R
  construct : ∀ f args newTarget, (E.construct f args newTarget).Guarantees R
  readExport : ∀ m name strict, (E.readExport m name strict).Guarantees R

/-- A relation that can be guaranteed: doing nothing respects it, it survives composition, and
every single change respects it. -/
structure Guarantee [Embedding σ] (L : Licence) (R : World σ → World σ → Prop) : Prop where
  refl : ∀ w, R w w
  trans : ∀ {u v w}, R u v → R v w → R u w
  change : ∀ {v w}, World.Change L v w → R v w

namespace Action.Guarantees

theorem of_ok {act : Action σ α} (h : act.Guarantees R) {w w' : World σ} {a : α}
    (hrun : act w = .ok a w') : R w w' := by
  rw [← Action.after_of_ok hrun]
  exact h w

theorem of_error {act : Action σ α} (h : act.Guarantees R) {w w' : World σ} {e : Failure}
    (hrun : act w = .error e w') : R w w' := by
  rw [← Action.after_of_error hrun]
  exact h w

theorem modify {f : World σ → World σ} (h : ∀ w, R w (f w)) :
    (modifyGet fun w => (PUnit.unit, f w) : Action σ PUnit).Guarantees R :=
  h

theorem change {f : World σ → α × World σ} (h : ∀ w, R w (f w).2) :
    (Action.change f).Guarantees R :=
  h

/-- Choosing between two actions. -/
theorem ite {c : Prop} [Decidable c] {act other : Action σ α} (hact : act.Guarantees R)
    (hother : other.Guarantees R) : (if c then act else other).Guarantees R := by
  split
  · exact hact
  · exact hother

end Action.Guarantees

namespace Guarantee

variable [Embedding σ] {L : Licence}

/-! ## Actions that change nothing -/

theorem pure (hR : Guarantee L R) (a : α) : (Pure.pure a : Action σ α).Guarantees R :=
  hR.refl

theorem fail (hR : Guarantee L R) (e : Error) : (Action.fail e : Action σ α).Guarantees R :=
  hR.refl

theorem get (hR : Guarantee L R) : (MonadState.get : Action σ (World σ)).Guarantees R :=
  hR.refl

theorem read (hR : Guarantee L R) (f : World σ → α) : (Action.read f).Guarantees R :=
  hR.refl

theorem ofExcept (hR : Guarantee L R) (x : Except Error α) :
    (Action.ofExcept x : Action σ α).Guarantees R := by
  cases x <;> exact hR.refl

/-- A change that an error leaves undone has to be looked at only where it succeeds. -/
theorem attempt (hR : Guarantee L R) {f : World σ → Except Error (α × World σ)}
    (h : ∀ w a w', f w = .ok (a, w') → R w w') : (Action.attempt f).Guarantees R := by
  intro w
  unfold Action.after Action.attempt
  cases hf : f w with
  | error e => exact hR.refl w
  | ok result => exact h w result.1 result.2 hf

/-! ## Putting actions together -/

/-- One action after another, with what is known of the result of the first. -/
theorem bindOf (hR : Guarantee L R) {act : Action σ α} {next : α → Action σ β} {P : α → Prop}
    (hact : act.Guarantees R) (hresult : ∀ w a w', act w = .ok a w' → P a)
    (hnext : ∀ a, P a → (next a).Guarantees R) : (act >>= next).Guarantees R := by
  intro w
  cases hrun : act w with
  | error e w' =>
      rw [Action.after_of_error (Action.bind_error hrun)]
      exact hact.of_error hrun
  | ok a w' =>
      rw [Action.after, Action.bind_ok hrun]
      exact hR.trans (hact.of_ok hrun) (hnext a (hresult w a w' hrun) w')

/-- One action after another. -/
theorem bind (hR : Guarantee L R) {act : Action σ α} {next : α → Action σ β}
    (hact : act.Guarantees R) (hnext : ∀ a, (next a).Guarantees R) :
    (act >>= next).Guarantees R :=
  hR.bindOf (P := fun _ => True) hact (fun _ _ _ _ => trivial) fun a _ => hnext a

/-- An action that looks at the world first. -/
theorem look (hR : Guarantee L R) {next : World σ → Action σ α}
    (hnext : ∀ w, (next w).Guarantees R) : (MonadState.get >>= next).Guarantees R :=
  hR.bind hR.get hnext

theorem andFinally (hR : Guarantee L R) {act : Action σ α} {cleanUp : World σ → World σ}
    (hact : act.Guarantees R) (hclean : ∀ w, R w (cleanUp w)) :
    (act.andFinally cleanUp).Guarantees R := by
  intro w
  rw [Action.after_andFinally]
  exact hR.trans (hact w) (hclean _)

/-! ## Accounting for references -/

theorem holding (hR : Guarantee L R) (entities : List Entity) {act : Action σ α}
    (hact : act.Guarantees R) : (act.holding entities).Guarantees R := by
  unfold Action.holding
  refine hR.bind (hR.read _) fun before => ?_
  refine hR.bind (.modify fun w => hR.change (.hold _)) fun _ => ?_
  exact hR.andFinally hact fun w => hR.change (.hold before)

theorem settle (hR : Guarantee L R) : (Action.settle : Action σ Unit).Guarantees R :=
  .modify fun _ => hR.change .settle

end Guarantee

end EcmaCore
