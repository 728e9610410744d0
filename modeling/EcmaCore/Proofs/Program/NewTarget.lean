import EcmaCore.Proofs.Program.This

/-!
# Calls and constructions

There are many ways to enter a function: calls, bound functions, getters and setters,
conversions of objects, constructors of a species. Each of them is a call or a
construction in the end. A call enters a body without a new target and refuses class
constructors; a construction enters it with one and refuses what is no constructor.

No body starts that was entered in a way which its function does not admit, or in an
environment that records another new target: an engine that checks this runs everything
just as the engine of the program does. That holds of any code, whatever it asks for.

## Main results

* `World.entersBody_enterBody`: how a body is entered that its function admits.
* `World.newTarget_reaches`: the new target of an invocation never changes.
* `Program.call_or_construct`: calls and constructions do not mix.
-/

namespace EcmaCore

namespace World

variable {σ : Type}

/-- The ordinary function that an object is, if it is one. -/
def ordinary? (w : World σ) (f : ObjectId) : Option OrdinaryFunction :=
  match w.function? f with
  | some (.ordinary d) => some d
  | _ => none

/-- The body of `g` starts in the environment `s` as it should for `f` with a new target or without
one: `g` is `f`, it may be entered that way, and the environment records the function and the new
target. -/
structure EntersBody (w : World σ) (f : ObjectId) (newTarget : Option ObjectId) (g : ObjectId)
    (s : ScopeId) : Prop where
  function : g = f
  admits : ∃ d, d ∈ w.ordinary? f ∧ d.Admits newTarget
  recorded : ∃ info, info ∈ (w.scope s).record.invocation? ∧ info.function = f ∧
    info.newTarget = newTarget

instance (w : World σ) (f : ObjectId) (newTarget : Option ObjectId) (g : ObjectId) (s : ScopeId) :
    Decidable (w.EntersBody f newTarget g s) :=
  decidable_of_iff
    (g = f ∧ (∃ d, d ∈ w.ordinary? f ∧ d.Admits newTarget) ∧
      ∃ info, info ∈ (w.scope s).record.invocation? ∧ info.function = f ∧
        info.newTarget = newTarget)
    ⟨fun ⟨h₁, h₂, h₃⟩ => ⟨h₁, h₂, h₃⟩, fun ⟨h₁, h₂, h₃⟩ => ⟨h₁, h₂, h₃⟩⟩

variable {w : World σ} {f g : ObjectId} {d : OrdinaryFunction} {newTarget : Option ObjectId}
  {this : Option Value} {s : ScopeId}

/-- The check that bodies are entered as they should. -/
def entryCheck : BodyCheck σ := fun _ f newTarget w' g s => decide (w'.EntersBody f newTarget g s)

/-- A body that may be entered is entered as it should. -/
theorem entersBody_enterBody (hf : w.function? f = some (.ordinary d))
    (hadmits : d.Admits newTarget) (held : List Entity) :
    ((w.enterBody f d newTarget this).startBody f w.nextScope held).EntersBody f newTarget f
      w.nextScope where
  function := rfl
  admits := by
    refine ⟨d, ?_, hadmits⟩
    show d ∈ w.ordinary? f
    rw [ordinary?, hf]
    rfl
  recorded := ⟨_, invocation?_enterBody, rfl, rfl⟩

theorem entryCheck_passes [Embedding σ] : (entryCheck (σ := σ)).Passes FunctionsKeep :=
  fun _ held _ _ hf₁ hadmits => decide_eq_true (entersBody_enterBody hf₁ hadmits held)

end World

/-! ## The new target of an invocation -/

/-- The function and the new target that an environment records never change. -/
theorem World.newTarget_reaches {σ : Type} [Embedding σ] {w w' : World σ} {s : ScopeId}
    {info : FunctionScope} (h : (w.scope s).record.invocation? = some info)
    (hreaches : w.Reaches w') :
    ∃ info', (w'.scope s).record.invocation? = some info' ∧ info'.function = info.function ∧
      info'.newTarget = info.newTarget := by
  induction hreaches with
  | refl => exact ⟨info, h, rfl, rfl⟩
  | change _ hchange ih =>
      obtain ⟨info₁, hinfo₁, hfunction, htarget⟩ := ih
      rcases World.invocation?_change hchange (World.index_lt_of_invocation hinfo₁) with
        ⟨v, hbound⟩ | hsame
      · obtain ⟨-, info₂, hinfo₂, -, -, hbound⟩ := World.invocation?_bindThis hbound
        rw [hinfo₁] at hinfo₂
        cases hinfo₂
        exact ⟨_, hbound, hfunction, htarget⟩
      · exact ⟨info₁, hsame.trans hinfo₁, hfunction, htarget⟩
  | contexts _ _ ih => exact ih

/-- **Calls and constructions do not mix.** Let a program do anything.

* An engine that checks at the start of every body, at any depth and on any way into it, runs
  everything as the engine of the program does. It checks that a body which a call has entered is
  not that of a class constructor and has no new target on record, that a body which a construction
  has entered is that of a constructor and has the new target of the construction on record, and it
  would otherwise go on with any other code.
* What is on record is never changed.
* Calling a class constructor, constructing with what is no constructor, and calling what is no
  function are type errors that change nothing, whatever the code of the program is. -/
theorem Program.call_or_construct {σ : Type} [Embedding σ] (P : Program σ) (budget : Nat) :
    (∀ other : Program σ, P.checkedEngine other World.entryCheck budget = P.engine budget) ∧
    (∀ (w w' : World σ) (s : ScopeId) info, (w.scope s).record.invocation? = some info →
      w.Reaches w' → ∃ info', (w'.scope s).record.invocation? = some info' ∧
        info'.function = info.function ∧ info'.newTarget = info.newTarget) ∧
    ∀ (w : World σ) (f : ObjectId),
      (∀ d, w.function? f = some (.ordinary d) → d.kind = .classConstructor →
        ∃ e : Error, e.kind = .type ∧ ∀ (Q : Program σ) depth this args,
          (Q.engine (depth + 1)).call f this args w = .error (.thrown e) w) ∧
      (w.isConstructorObject f = false →
        ∃ e : Error, e.kind = .type ∧ ∀ (Q : Program σ) depth args newTarget,
          (Q.engine (depth + 1)).construct f args newTarget w = .error (.thrown e) w) ∧
      (w.function? f = none →
        ∃ e : Error, e.kind = .type ∧ ∀ (Q : Program σ) depth this args,
          (Q.engine (depth + 1)).call f this args w = .error (.thrown e) w) := by
  refine ⟨fun other => Program.checkedEngine_eq World.entryCheck_passes
      (World.functionsKeep_guarantee .all).toGuarantee P.engine_functionsKeep other budget,
    fun w w' s info => World.newTarget_reaches, fun w f => ⟨fun d hf hkind => ?_, fun hnone => ?_,
      fun hnone => ?_⟩⟩
  · refine ⟨.classCalled (w.object f).functionName, rfl, fun Q depth this args => ?_⟩
    rw [engine_call, call_ordinary _ _ hf, callOrdinary_eq _ _ hf, if_pos hkind]
  · refine ⟨.notConstructor (w.display (.object f)), rfl, fun Q depth args newTarget => ?_⟩
    rw [engine_construct, construct, Action.bind_ok (Action.get_apply w), hnone]
    rfl
  · refine ⟨.notFunction (w.display (.object f)), rfl, fun Q depth this args => ?_⟩
    rw [engine_call, call, Action.bind_ok (Action.get_apply w), hnone]
    rfl

/-- A class constructor that is called, a function without a constructor that is constructed with,
an object that is no function, and an invocation that keeps its new target. -/
theorem Program.call_of_class_constructor :
    let constructor : OrdinaryFunction := ⟨⟨0⟩, .classConstructor, .derived, .strict, ⟨0⟩, none⟩
    let method : OrdinaryFunction := ⟨⟨0⟩, .normal, .none, .strict, ⟨1⟩, none⟩
    let w : World Unit :=
      { World.empty none (.below 0) () with
        objects := #[.ofOrdinary ⟨9⟩ "C" 0 constructor, .ofOrdinary ⟨9⟩ "m" 0 method,
          .new none .plain]
        scopes := #[⟨.function .empty ⟨none, false, ⟨0⟩, some ⟨0⟩⟩, none⟩] }
    let E := Program.engine (fun _ _ => .done .null : Program Unit) 1
    (E.call ⟨0⟩ .null []).Throws .type w ∧ (E.construct ⟨1⟩ [] ⟨1⟩).Throws .type w ∧
      (E.call ⟨2⟩ .null []).Throws .type w ∧
      ∃ info, (w.scope ⟨0⟩).record.invocation? = some info ∧ info.newTarget = some ⟨0⟩ := by
  intro constructor method w E
  let P : Program Unit := fun _ _ => .done .null
  obtain ⟨-, hrecorded, hrefused⟩ := P.call_or_construct 1
  obtain ⟨e₁, hkind₁, hcall₁⟩ := (hrefused w ⟨0⟩).1 constructor (by decide +kernel) rfl
  obtain ⟨e₂, hkind₂, hconstruct₂⟩ := (hrefused w ⟨1⟩).2.1 (by decide +kernel)
  obtain ⟨e₃, hkind₃, hcall₃⟩ := (hrefused w ⟨2⟩).2.2 (by decide +kernel)
  obtain ⟨info, hinfo, -, htarget⟩ := hrecorded w w ⟨0⟩ ⟨none, false, ⟨0⟩, some ⟨0⟩⟩ rfl .refl
  exact ⟨⟨e₁, hkind₁, hcall₁ P 0 _ _⟩, ⟨e₂, hkind₂, hconstruct₂ P 0 _ _⟩,
    ⟨e₃, hkind₃, hcall₃ P 0 _ _⟩, info, hinfo, htarget⟩

end EcmaCore
