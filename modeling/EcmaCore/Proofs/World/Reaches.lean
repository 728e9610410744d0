import EcmaCore.Proofs.Guarantee.Program

/-!
# Later worlds

A world is later than another one if single changes and moves of the stack of contexts
lead from the one to the other. Whatever is run, every world on the way is later than
the one in which the run started, so a fact about all later worlds is a fact about
every moment of every run: during a call, after it, and inside the calls that it makes.

## Main results

* `reaches_guarantee`: every run leads to later worlds only.
* `RunGuarantee.of_reaches`: what every run guarantees holds in all later worlds.
-/

namespace EcmaCore

variable {σ : Type} [Embedding σ]

/-- Changes of a world, and moves of its stack of contexts, lead to another world. -/
inductive World.Reaches (w : World σ) : World σ → Prop
  | refl : Reaches w w
  | change {u v : World σ} (before : Reaches w u) (h : Change .all u v) : Reaches w v
  | contexts {u : World σ} (before : Reaches w u) (contexts : List Context) :
      Reaches w { u with contexts }

namespace World

variable {u v w : World σ}

theorem Reaches.trans (h : u.Reaches v) (h' : v.Reaches w) : u.Reaches w := by
  induction h' with
  | refl => exact h
  | change _ hchange ih => exact ih.change hchange
  | contexts _ contexts ih => exact ih.contexts contexts

/-- Whatever is run leads to later worlds. -/
theorem reaches_guarantee : RunGuarantee .all (Reaches (σ := σ)) where
  refl _ := .refl
  trans := Reaches.trans
  change h := .change .refl h
  contexts _ contexts := .contexts .refl contexts

end World

/-- What every run guarantees holds between a world and all later ones. -/
theorem RunGuarantee.of_reaches {R : World σ → World σ → Prop} (hR : RunGuarantee .all R)
    {w w' : World σ} (h : w.Reaches w') : R w w' := by
  induction h with
  | refl => exact hR.refl w
  | change _ hchange ih => exact hR.trans ih (hR.change hchange)
  | contexts _ contexts ih => exact hR.trans ih (hR.contexts _ contexts)

/-- Running a script leads to a later world. -/
theorem Program.runScript_reaches {α : Type} (P : Program σ) (budget : Nat) (script : Script σ α)
    (w : World σ) : w.Reaches ((P.runScript budget script).after w) :=
  World.reaches_guarantee.runScript
    (fun _ _ => Script.allRequests_of Request.admitted_all _) budget
    (Script.allRequests_of Request.admitted_all script) w

/-- Calls and constructions lead to later worlds, and so do reads of module exports. -/
theorem Program.engine_reaches (P : Program σ) (budget : Nat) :
    (P.engine budget).Guarantees World.Reaches :=
  World.reaches_guarantee.engine (fun _ _ => Script.allRequests_of Request.admitted_all _) budget

end EcmaCore
