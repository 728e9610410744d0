import EcmaCore.Proofs.Grounded.Program
import Mathlib.Logic.Relation

/-!
# Prototype chains end

A lookup goes from an object to its prototype until it finds the key, and nothing but the way in
which objects come about keeps it from going round in a circle. Every way of creating an object
gives it a prototype that is there: one that user code names, the `prototype` of a constructor that
user code chose, that of the target of a bound function, or an intrinsic of the realm. So the
prototype of every object is older than the object, in every world that an embedding program gets
to and in every world on the way there.

Identifiers of objects are numbers, which could be made up. Programs hold on to objects that they
were given, and that is all that is asked of them: they are grounded.

## Main results

* `World.PrototypesFirst.chainsEnd`: what follows for chains and lookups from the age of prototypes.
* `Program.prototypeChains_finite`: prototypes are older and stay what they are, chains are finite
  and free of cycles, and lookups find what the nearest object has.
-/

namespace EcmaCore

namespace World

variable {σ : Type} {w : World σ} {o p : ObjectId}

/-! ## Chains of older objects -/

/-- An object has another one as its prototype. -/
def InheritsFrom (w : World σ) (o p : ObjectId) : Prop := (w.object o).prototype = some p

/-- What an object inherits from, in any number of steps, is older. -/
theorem PrototypesFirst.index_lt (hfirst : w.PrototypesFirst)
    (h : Relation.TransGen w.InheritsFrom o p) : p.index < o.index := by
  induction h with
  | single hstep => exact hfirst _ _ hstep
  | tail _ hstep ih => exact Nat.lt_trans (hfirst _ _ hstep) ih

/-- A list of prototypes that is long enough has all objects that an object inherits from, and the
object itself. -/
theorem PrototypesFirst.mem_prototypesWithin_iff (hfirst : w.PrototypesFirst) {bound : Nat}
    (hbound : o.index < bound) :
    p ∈ w.prototypesWithin bound o ↔ Relation.ReflTransGen w.InheritsFrom o p := by
  induction bound generalizing o with
  | zero => exact absurd hbound (Nat.not_lt_zero _)
  | succ bound ih =>
      rw [prototypesWithin, List.mem_cons, Relation.ReflTransGen.cases_head_iff]
      refine or_congr ⟨Eq.symm, Eq.symm⟩ ?_
      unfold InheritsFrom at ih ⊢
      cases hprototype : (w.object o).prototype with
      | none => simp
      | some prototype =>
          have hlt := hfirst _ _ hprototype
          rw [ih (by omega)]
          simp

/-- A lookup finds something if an object along the chain has the key. -/
theorem hasProperty_iff (w : World σ) (o : ObjectId) (key : PropertyKey) :
    w.hasProperty o key = true ↔ ∃ holder ∈ w.prototypeChain o, w.hasOwn holder key = true := by
  rw [hasProperty, lookup, List.findSome?_isSome_iff]
  rfl

/-- Prototypes are older than the objects that have them. Chains of prototypes have no cycle and
are finite, and along them lookups find the property of the nearest object that has the key. -/
structure ChainsEnd (w : World σ) : Prop where
  older : w.PrototypesFirst
  acyclic : ∀ o, ¬ Relation.TransGen w.InheritsFrom o o
  chain : ∀ o p, Relation.ReflTransGen w.InheritsFrom o p ↔ p ∈ w.prototypeChain o
  lookup : ∀ o key found, w.Inherits key o found ↔ w.lookup o key = found
  hasProperty : ∀ o key, w.hasProperty o key = true ↔
    ∃ holder, Relation.ReflTransGen w.InheritsFrom o holder ∧ w.hasOwn holder key = true

theorem PrototypesFirst.chainsEnd (h : w.PrototypesFirst) : w.ChainsEnd where
  older := h
  acyclic _ hcycle := Nat.lt_irrefl _ (h.index_lt hcycle)
  chain _ _ := (h.mem_prototypesWithin_iff (Nat.lt_succ_self _)).symm
  lookup _ _ _ := inherits_iff_lookup h
  hasProperty o key := by
    rw [hasProperty_iff]
    refine exists_congr fun holder => and_congr_left fun _ => ?_
    exact h.mem_prototypesWithin_iff (Nat.lt_succ_self _)

end World

/-! ## The worlds that a program gets to -/

variable {σ : Type} [Embedding σ]

/-- The worlds that an embedding program gets to from a first one. It runs scripts one after
another, each with a budget of its own, and goes on however they end. -/
inductive Program.Visits (P : Program σ) (first : World σ) : World σ → Prop
  | first : Visits P first first
  | run {w : World σ} {α : Type} {script : Script σ α} (before : Visits P first w) (budget : Nat)
      (h : script.Grounded (fun _ => []) w.objects.size) :
      Visits P first ((P.runScript budget script).after w)

/-- The worlds that a grounded program gets to develop from the first one. -/
theorem Program.Visits.develops {P : Program σ} (hP : P.Grounded) {first w : World σ}
    (hfirst : first.Closed) (h : P.Visits first w) : first.Develops w := by
  induction h with
  | first => exact .refl
  | run before budget hscript ih =>
      exact ih.trans (Grounded.runScript hP budget hscript _ (ih.closed hfirst) (Nat.le_refl _)).1

/-- **Prototype chains are finite.** Whatever objects, functions, bound functions, buffers and
realms are created, and whatever user code takes part in it, every world that a program gets to
from the start has prototypes that are older than the objects that have them, and chains of them
that end. So has every world on the way there. From any of these worlds on, objects keep their
prototypes. -/
theorem Program.prototypeChains_finite {P : Program σ} (hP : P.Grounded) {limit : Option UInt64}
    {memory : Memory} {host : σ} (hhost : extent (Embedding.roots host) = 0) {w : World σ}
    (hw : P.Visits (.start limit memory host) w) :
    w.ChainsEnd ∧ (World.start limit memory host).ReachesThrough World.ChainsEnd w ∧
      ∀ u v, (World.start limit memory host).Reaches u → u.Reaches v → u.PrototypesStay v := by
  have hstart : (World.start limit memory host).Closed := World.closed_start hhost
  have hdevelops := hw.develops hP hstart
  refine ⟨(hdevelops.closed hstart).first.chainsEnd, ?_, fun u v _ h => ?_⟩
  · exact hdevelops.imp fun _ hu => hu.first.chainsEnd
  · exact (World.prototypesStay_guarantee .all).of_reaches h

/-- A script that makes up an identifier is not grounded: this one has the object that is created
next inherit from itself. -/
example :
    let P : Program Unit := fun _ _ => .done .undefined
    let script : Script Unit Unit := .ask (.newObject (some ⟨17⟩)) fun _ => .done ()
    let w := (P.runScript 1 script).after (.start none (.below 100) ())
    (w.object ⟨17⟩).prototype = some ⟨17⟩ := by
  decide +kernel

/-- User code that answers with a new object, however it is entered. -/
def Program.creator : Program Unit := fun _ _ =>
  .ask (.newObject none) fun
    | .ok (.object (some o)) => .done (.object o)
    | _ => .done .undefined

/-- Calls a new function of user code and creates an object that inherits from the answer. -/
def Script.inheritAnswer : Script Unit Unit :=
  .ask (.newNative none "create" 0 (.code ⟨0⟩) none) fun
    | .ok (.object (some f)) =>
        .ask (.callObject f .undefined []) fun
          | .ok (.value (.object o)) => .ask (.newObject (some o)) fun _ => .done ()
          | _ => .done ()
    | _ => .done ()

theorem Program.creator_grounded : Program.creator.Grounded := by
  intro code entry n _
  refine ⟨Nat.zero_le n, fun answer m _ h => ?_⟩
  dsimp only
  split
  · exact h _ rfl
  · exact Nat.zero_le m

theorem Script.inheritAnswer_grounded (n : Nat) :
    Script.inheritAnswer.Grounded (fun _ => []) n := by
  refine ⟨Nat.zero_le n, fun answer m _ h => ?_⟩
  dsimp only
  split
  · refine ⟨h _ rfl, fun answer' k _ h' => ?_⟩
    dsimp only
    split
    · exact ⟨h' _ rfl, fun _ l _ _ => Nat.zero_le l⟩
    · exact Nat.zero_le k
  · exact Nat.zero_le m

/-- A chain of an object that inherits from one that user code created. -/
theorem Program.prototypeChains_finite_answer :
    let first : World Unit := .start none (.below 100) ()
    let w := (Program.creator.runScript 1 Script.inheritAnswer).after first
    w.prototypeChain ⟨19⟩ = [⟨19⟩, ⟨18⟩] ∧ w.ChainsEnd ∧
      first.ReachesThrough World.ChainsEnd w ∧
      ∀ u v, first.Reaches u → u.Reaches v → u.PrototypesStay v := by
  intro first w
  have hvisits : Program.creator.Visits first w :=
    .run .first 1 (Script.inheritAnswer_grounded _)
  refine ⟨?_, Program.prototypeChains_finite Program.creator_grounded rfl hvisits⟩
  decide +kernel

end EcmaCore
