import EcmaCore.Proofs.Program.Checked

/-!
# Calls and the stack of contexts

A call of an ordinary function puts a context on the stack, runs the body, and takes the
context off again, however the body ends. So a call leaves the stack as it was if user
code does not move it, at any depth of nesting.

The body of a function runs in an environment that the call has just created inside the
one that the function closed over, and where the callers are running plays no part in
that. An engine that checks this at the start of every body runs everything just as the
engine of the program does.

## Main results

* `World.nests_guarantee`: what calls leave as it is.
* `World.startsBody_enterBody`: how the environment and the context of a body come about.
* `Program.call_discipline`: the stack of contexts and the scopes of bodies.
-/

namespace EcmaCore

variable {σ : Type}

namespace World

/-! ## What calls leave as it is -/

/-- What calls leave as it is: the stack of contexts, the functions, and the environments that
there are, apart from what they declare. -/
structure Nests (w w' : World σ) : Prop where
  contexts : w'.contexts = w.contexts
  scopes : w.scopes.size ≤ w'.scopes.size
  functions : w.FunctionsKeep w'

theorem Nests.refl (w : World σ) : w.Nests w :=
  ⟨rfl, Nat.le_refl _, functionsKeep_of_objects rfl⟩

theorem nests_guarantee [Embedding σ] : CallGuarantee .all (Nests (σ := σ)) where
  refl := .refl
  trans h h' :=
    { contexts := h'.contexts.trans h.contexts
      scopes := Nat.le_trans h.scopes h'.scopes
      functions := (functionsKeep_guarantee .all).trans h.functions h'.functions }
  change h :=
    { contexts := h.scopes_cases.1
      scopes := (recordsKeep_change (Q := fun _ _ => True) (fun _ => trivial)
        (fun _ _ _ => trivial) h).size
      functions := functionsKeep_change h }
  inContext context h :=
    { contexts := by
        dsimp only
        rw [h.contexts, List.tail_cons]
      scopes := h.scopes
      functions := h.functions }

/-! ## Starts of bodies -/

/-- The environment that an ordinary function closed over. -/
def closure? (w : World σ) (f : ObjectId) : Option ScopeId :=
  match w.function? f with
  | some (.ordinary d) => some d.scope
  | _ => none

/-- How the body of a function `g` starts, in the world `w'` and with the environment `s`, when `f`
is called in the world `w`: `g` is `f`, it runs in a context of its own on top of those of the
caller, names are looked up in `s`, which is new and the last environment that was created, and
`s` lies inside the environment that `f` closed over. -/
structure StartsBody (w : World σ) (f : ObjectId) (w' : World σ) (g : ObjectId) (s : ScopeId) :
    Prop where
  function : g = f
  contexts : w'.contexts = ⟨some f, s, s⟩ :: w.contexts
  running : w'.runningScope = s
  fresh : w.scopes.size ≤ s.index
  last : w'.scopes.size = s.index + 1
  closed : (w.closure? f).isSome
  outer : (w'.scope s).outer = w.closure? f

instance (w : World σ) (f : ObjectId) (w' : World σ) (g : ObjectId) (s : ScopeId) :
    Decidable (w.StartsBody f w' g s) :=
  decidable_of_iff
    (g = f ∧ w'.contexts = ⟨some f, s, s⟩ :: w.contexts ∧ w'.runningScope = s ∧
      w.scopes.size ≤ s.index ∧ w'.scopes.size = s.index + 1 ∧ (w.closure? f).isSome ∧
      (w'.scope s).outer = w.closure? f)
    ⟨fun ⟨h₁, h₂, h₃, h₄, h₅, h₆, h₇⟩ => ⟨h₁, h₂, h₃, h₄, h₅, h₆, h₇⟩,
      fun ⟨h₁, h₂, h₃, h₄, h₅, h₆, h₇⟩ => ⟨h₁, h₂, h₃, h₄, h₅, h₆, h₇⟩⟩

/-- The check that bodies start as they should for the function that is called. -/
def startCheck : BodyCheck σ := fun w f _ w' g s => decide (w.StartsBody f w' g s)

/-- A body starts as it should in the environment that was created for it. -/
theorem startsBody_enterBody {w w₁ : World σ} {f : ObjectId} {d : OrdinaryFunction}
    (hnests : w.Nests w₁) (hf : w.function? f = some (.ordinary d)) (newTarget : Option ObjectId)
    (this : Option Value) (held : List Entity) :
    w.StartsBody f ((w₁.enterBody f d newTarget this).startBody f w₁.nextScope held) f
      w₁.nextScope where
  function := rfl
  contexts := by
    show _ :: w₁.contexts = _
    rw [hnests.contexts]
  running := rfl
  fresh := hnests.scopes
  last := size_addScope _ _ _
  closed := by
    rw [closure?, hf]
    rfl
  outer := by
    show ((w₁.enterBody f d newTarget this).scope w₁.nextScope).outer = _
    rw [scope_enterBody, closure?, hf]
    rfl

theorem startCheck_passes : (startCheck (σ := σ)).Passes Nests :=
  fun this held hnests hf _ _ =>
    decide_eq_true (startsBody_enterBody hnests hf _ this held)

end World

namespace Program

variable [Embedding σ] {P : Program σ}

/-! ## Programs that leave the stack of contexts to calls -/

/-- Calls by a program that does not move the stack of contexts leave it as it was. -/
theorem engine_nests (hP : P.AllRequests (·.movesContexts = false)) (budget : Nat) :
    (P.engine budget).Guarantees World.Nests :=
  World.nests_guarantee.engine
    (fun _ hE r hmoves => World.nests_guarantee.perform hE r.admitted_all hmoves) hP budget

end Program

/-- The environment that an ordinary function closes over is settled when it is created, and no run
changes it. -/
theorem Engine.closure?_newOrdinary [Embedding σ] (name : String) (length : UInt32)
    (d : OrdinaryFunction) (w : World σ) :
    ∃ f w', Engine.newOrdinary name length d w = .ok f w' ∧
      ∀ (P : Program σ) (budget : Nat) (script : Script σ Unit),
        ((P.runScript budget script).after w').closure? f = some d.scope := by
  let new := Object.ofOrdinary w.realm.functionPrototype name length d
  refine ⟨_, (w.addObject new).2, Action.change_apply _ w, fun P budget script => ?_⟩
  have hcreated : (w.addObject new).2.function? (w.addObject new).1 = some (.ordinary d) := by
    rw [World.function?, World.object_addObject_self, Object.function?_ofOrdinary]
  have hP : P.AllRequests (·.Admitted .all) := fun _ _ =>
    Script.allRequests_of Request.admitted_all _
  have hkeeps := (World.functionsKeep_guarantee .all).runScript hP budget
    (Script.allRequests_of Request.admitted_all script) (w.addObject new).2
  rw [World.closure?, hkeeps _ _ hcreated]

/-- **Calls balance the stack of contexts, and bodies see the scopes of their functions.** Let the
code of a program not move the stack of contexts itself, and do anything else. Then every call
and every construction, however deep it nests and whichever way it ends, leaves the stack as it
was. An engine that checks at the start of every body whether the running context is for the
function, the names are looked up in the environment of the body, and that environment is new and
lies inside the one that the function closed over, and that otherwise goes on with any other code,
runs everything as the engine of the program does. What a function closed over is settled when it
is created and never changes, whatever runs then. -/
theorem Program.call_discipline [Embedding σ] (P : Program σ)
    (hP : P.AllRequests (·.movesContexts = false)) (budget : Nat) :
    (∀ f this args w,
      (((P.engine budget).call f this args).after w).contexts = w.contexts) ∧
    (∀ f args newTarget w,
      (((P.engine budget).construct f args newTarget).after w).contexts = w.contexts) ∧
    (∀ other : Program σ, P.checkedEngine other World.startCheck budget = P.engine budget) ∧
    ∀ name length (d : OrdinaryFunction) (w : World σ),
      ∃ f w', Engine.newOrdinary name length d w = .ok f w' ∧
        ∀ (Q : Program σ) depth (script : Script σ Unit),
          ((Q.runScript depth script).after w').closure? f = some d.scope := by
  have hnests := P.engine_nests hP budget
  refine ⟨fun f this args w => (hnests.call f this args w).contexts,
    fun f args newTarget w => (hnests.construct f args newTarget w).contexts,
    fun other => Program.checkedEngine_eq World.startCheck_passes
      World.nests_guarantee.toGuarantee (P.engine_nests hP) other budget,
    Engine.closure?_newOrdinary⟩

/-- A body that calls something that is no function, and passes the error on. -/
theorem Program.call_of_failing_body :
    let d : OrdinaryFunction := ⟨⟨0⟩, .normal, .base, .strict, ⟨0⟩, none⟩
    let w : World Unit :=
      { World.empty none (.below 0) () with
        objects := #[.ofOrdinary ⟨1⟩ "f" 0 d, .new none .plain]
        scopes := #[⟨.declarative .empty, none⟩]
        contexts := [⟨none, ⟨0⟩, ⟨0⟩⟩] }
    let P : Program Unit := fun _ _ =>
      .ask (.callObject ⟨1⟩ .undefined []) fun
        | .ok _ => .done .null
        | .error e => .fail e
    let call := (P.engine 2).call ⟨0⟩ .null []
    (match call w with
      | .error (.thrown e) _ => some e
      | _ => none) = some (.notFunction "object") ∧
    (call.after w).contexts = [⟨none, ⟨0⟩, ⟨0⟩⟩] := by
  intro d w P call
  have hP : P.AllRequests (·.movesContexts = false) := by
    intro code entry
    refine ⟨rfl, fun answer => ?_⟩
    cases answer with
    | ok a => trivial
    | error e => trivial
  refine ⟨?_, (P.call_discipline hP 2).1 ⟨0⟩ .null [] w⟩
  decide +kernel

end EcmaCore
