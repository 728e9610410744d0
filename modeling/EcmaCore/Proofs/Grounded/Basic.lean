import EcmaCore.Proofs.Guarantee.Basic
import EcmaCore.Proofs.World.Closed

/-!
# Grounded actions

An action is grounded if it names nothing but objects that are there, provided that it was given
no others. How many objects there have to be is a parameter, since arguments that are there stay
there while worlds develop: an action that is grounded for `n` objects takes every closed world
with so many to another closed world, one closed world after the other, and what it tells is
there at the end.

This module has the rules for putting actions together; the modules beside it apply them to the
operations of the runtime, up to whole programs.

## Main results

* `Action.Grounded.bind`, `Action.Grounded.look`: one action after another, and an action that
  looks at the world first.
* `Action.Grounded.holding`, `Action.Grounded.andFinally`: what is done around an action.
-/

namespace EcmaCore

variable {σ α β : Type} [Embedding σ] {n m : Nat}

/-- In a closed world of at least `n` objects an action leads to a world that has developed from
it, and if the action has a result, the objects that this tells are there. -/
def Action.Grounded (n : Nat) (act : Action σ α) (told : α → List Entity) : Prop :=
  ∀ w : World σ, w.Closed → n ≤ w.objects.size →
    w.Develops (act.after w) ∧ ∀ a w', act w = .ok a w' → extent (told a) ≤ w'.objects.size

namespace Action.Grounded

variable {act : Action σ α} {told : α → List Entity} {told' : β → List Entity}

theorem of_le (h : act.Grounded n told) (hle : n ≤ m) : act.Grounded m told :=
  fun w hw hm => h w hw (Nat.le_trans hle hm)

/-! ## Actions that change nothing -/

theorem pure {a : α} (h : extent (told a) ≤ n) : (Pure.pure a : Action σ α).Grounded n told := by
  intro w _ hn
  refine ⟨.refl, fun a' w' hrun => ?_⟩
  cases hrun
  exact Nat.le_trans h hn

theorem fail (e : Error) : (Action.fail e : Action σ α).Grounded n told :=
  fun w _ _ => ⟨.refl, fun a w' hrun => by cases hrun⟩

theorem ofExcept {x : Except Error α} (h : ∀ a, x = .ok a → extent (told a) ≤ n) :
    (Action.ofExcept x : Action σ α).Grounded n told := by
  cases x with
  | ok a => exact .pure (h a rfl)
  | error e => exact .fail e

/-! ## Changes -/

theorem change {f : World σ → α × World σ}
    (h : ∀ w : World σ, w.Closed → n ≤ w.objects.size →
      w.Develops (f w).2 ∧ extent (told (f w).1) ≤ (f w).2.objects.size) :
    (Action.change f).Grounded n told := by
  intro w hw hn
  obtain ⟨hdevelops, htold⟩ := h w hw hn
  refine ⟨hdevelops, fun a w' hrun => ?_⟩
  cases hrun
  exact htold

theorem modify {f : World σ → World σ}
    (h : ∀ w : World σ, w.Closed → n ≤ w.objects.size → w.Develops (f w)) :
    (modifyGet fun w => (PUnit.unit, f w) : Action σ PUnit).Grounded n fun _ => [] :=
  change fun w hw hn => ⟨h w hw hn, Nat.zero_le _⟩

/-- A change that an error leaves undone. -/
theorem attempt {f : World σ → Except Error (α × World σ)}
    (h : ∀ w : World σ, w.Closed → n ≤ w.objects.size → ∀ a w', f w = .ok (a, w') →
      w.Develops w' ∧ extent (told a) ≤ w'.objects.size) : (Action.attempt f).Grounded n told := by
  intro w hw hn
  cases hf : f w with
  | error e =>
      rw [Action.after_of_error (Action.attempt_error hf), Action.attempt_error hf]
      exact ⟨.refl, fun a w' hrun => by cases hrun⟩
  | ok result =>
      obtain ⟨hdevelops, htold⟩ := h w hw hn result.1 result.2 hf
      rw [Action.after_of_ok (Action.attempt_ok hf), Action.attempt_ok hf]
      refine ⟨hdevelops, fun a w' hrun => ?_⟩
      cases hrun
      exact htold

theorem settle : (Action.settle : Action σ Unit).Grounded n fun _ => [] :=
  .modify fun _ hw _ => World.Change.develops .settle hw.settle

/-! ## Putting actions together -/

/-- One action after another, with what is known of the result of the first. -/
theorem bindOf {next : α → Action σ β} {P : α → Prop} (hact : act.Grounded n told)
    (hresult : ∀ w a w', act w = .ok a w' → P a)
    (hnext : ∀ a m, P a → n ≤ m → extent (told a) ≤ m → (next a).Grounded m told') :
    (act >>= next).Grounded n told' := by
  intro w hw hn
  obtain ⟨hdevelops, htold⟩ := hact w hw hn
  cases hrun : act w with
  | error e w' =>
      rw [Action.after_of_error hrun] at hdevelops
      rw [Action.after_of_error (Action.bind_error hrun), Action.bind_error hrun]
      exact ⟨hdevelops, fun b w'' h => by cases h⟩
  | ok a w' =>
      rw [Action.after_of_ok hrun] at hdevelops
      have hle := Nat.le_trans hn hdevelops.size_le
      obtain ⟨hrest, htold'⟩ := hnext a w'.objects.size (hresult w a w' hrun) hle (htold a w' hrun)
        w' (hdevelops.closed hw) (Nat.le_refl _)
      rw [Action.after, Action.bind_ok hrun]
      exact ⟨hdevelops.trans hrest, htold'⟩

/-- One action after another. -/
theorem bind {next : α → Action σ β} (hact : act.Grounded n told)
    (hnext : ∀ a m, n ≤ m → extent (told a) ≤ m → (next a).Grounded m told') :
    (act >>= next).Grounded n told' :=
  hact.bindOf (P := fun _ => True) (fun _ _ _ _ => trivial) fun a m _ => hnext a m

/-- An action that looks at the world first may name whatever it sees there. -/
theorem look {next : World σ → Action σ α}
    (hnext : ∀ w : World σ, w.Closed → n ≤ w.objects.size →
      (next w).Grounded w.objects.size told) : (MonadState.get >>= next).Grounded n told :=
  fun w hw hn => hnext w hw hn w hw (Nat.le_refl _)

/-- Choosing between two actions. -/
theorem ite {c : Prop} [Decidable c] {other : Action σ α} (hact : act.Grounded n told)
    (hother : other.Grounded n told) : (if c then act else other).Grounded n told := by
  split
  · exact hact
  · exact hother

theorem andFinally {cleanUp : World σ → World σ} (hact : act.Grounded n told)
    (hclean : ∀ w : World σ, w.Closed → w.Develops (cleanUp w)) :
    (act.andFinally cleanUp).Grounded n told := by
  intro w hw hn
  obtain ⟨hdevelops, htold⟩ := hact w hw hn
  have hafter := hclean _ (hdevelops.closed hw)
  rw [Action.after_andFinally]
  refine ⟨hdevelops.trans hafter, fun a w' hrun => ?_⟩
  unfold Action.andFinally at hrun
  cases hact' : act w with
  | error e u =>
      rw [hact'] at hrun
      cases hrun
  | ok a' u =>
      rw [hact'] at hrun
      cases hrun
      rw [Action.after_of_ok hact'] at hafter
      exact Nat.le_trans (htold a u hact') hafter.size_le

/-- What is held on to does not matter. -/
theorem holding (entities : List Entity) (hact : act.Grounded n told) :
    (act.holding entities).Grounded n told := by
  have hhold (w : World σ) (hw : w.Closed) (held : List Entity) : w.Develops { w with held } :=
    World.Change.develops (.hold held) (hw.frame rfl rfl rfl rfl rfl rfl)
  have hread : (Action.read (·.held) : Action σ (List Entity)).Grounded n fun _ => [] :=
    fun w _ _ => ⟨.refl, fun _ _ _ => Nat.zero_le _⟩
  unfold Action.holding
  refine hread.bind fun before m hm _ => ?_
  refine .bind (.modify fun w hw _ => hhold w hw _) fun _ k hk _ => ?_
  exact (hact.of_le (Nat.le_trans hm hk)).andFinally fun w hw => hhold w hw _

end Action.Grounded

/-- Everything that an engine runs is grounded if its arguments are. -/
structure Engine.Grounded (E : Engine σ) : Prop where
  call : ∀ {n} f {this args}, extent this.entities ≤ n →
    extent (args.flatMap Value.entities) ≤ n → (E.call f this args).Grounded n Value.entities
  construct : ∀ {n} f {args newTarget}, extent (args.flatMap Value.entities) ≤ n →
    newTarget.index < n → (E.construct f args newTarget).Grounded n Value.entities
  readExport : ∀ {n} m name strict, (E.readExport m name strict).Grounded n Value.entities

end EcmaCore
