import EcmaCore.Proofs.Program.Entry

/-!
# Programs that check how bodies start

What holds at the start of every body, at any depth of nesting and on any way into it, can be said
with a program that looks. `Program.checkedEngine` is an engine that applies a check at the start of
every body, and goes on with any other code where the check fails; if it runs everything just as the
engine of the program does, then no body starts without what is checked.

A check sees the world in which a function is called or constructed with, the function and the new
target, and the world in which the body starts. Whether it fails does not depend on code: it is
enough that it passes for the environment that a body is entered in, once a constructor may have
created its object.

## Main results

* `Program.evaluateBody_guarded`, `Program.constructOrdinary_guarded`: bodies that pass are run.
* `Program.checkedEngine_eq`: checking what all bodies pass makes no difference.
-/

namespace EcmaCore

/-- A function may be entered by a call, without a new target, or by a construction, with one. -/
def OrdinaryFunction.Admits (d : OrdinaryFunction) (newTarget : Option ObjectId) : Prop :=
  (newTarget = none → d.kind ≠ .classConstructor) ∧
    (newTarget ≠ none → d.constructorKind ≠ .none)

instance (d : OrdinaryFunction) (newTarget : Option ObjectId) : Decidable (d.Admits newTarget) := by
  unfold OrdinaryFunction.Admits
  infer_instance

attribute [ext] Engine

variable {σ : Type}

/-- The world in which a body starts that has been entered: it runs in a context of its own. -/
def World.startBody (w : World σ) (f : ObjectId) (s : ScopeId) (held : List Entity) : World σ :=
  { w with contexts := ⟨some f, s, s⟩ :: w.contexts, held }

/-- A check of how bodies start: in the first world a function is called, without a new target, or
constructed with, with one, and in the second world the body of a function starts with an
environment. -/
abbrev BodyCheck (σ : Type) : Type :=
  World σ → ObjectId → Option ObjectId → World σ → ObjectId → ScopeId → Bool

/-- A check that all bodies pass which a function admits, and which start after a run that is
related to the world of the call. -/
def BodyCheck.Passes (check : BodyCheck σ) (R : World σ → World σ → Prop) : Prop :=
  ∀ {w w₁ : World σ} {f : ObjectId} {d : OrdinaryFunction} {newTarget : Option ObjectId}
    (this : Option Value) (held : List Entity), R w w₁ → w.function? f = some (.ordinary d) →
    w₁.function? f = some (.ordinary d) → d.Admits newTarget →
      check w f newTarget ((w₁.enterBody f d newTarget this).startBody f w₁.nextScope held) f
        w₁.nextScope = true

namespace Program

variable [Embedding σ] {P other : Program σ} {E : Engine σ} {check : BodyCheck σ}
  {R : World σ → World σ → Prop} {w : World σ} {f : ObjectId} {d : OrdinaryFunction}

/-- A program that looks at the world at the start of every body, and goes on with other code where
a test fails. -/
def guarded (P other : Program σ) (test : World σ → ObjectId → ScopeId → Bool) : Program σ
  | code, .body g s args =>
      .look fun w => if test w g s then P code (.body g s args) else other code (.body g s args)
  | code, entry => P code entry

/-- The engine of a program that checks the start of the body of every call and construction. -/
def checkedEngine (P other : Program σ) (check : BodyCheck σ) : Nat → Engine σ
  | 0 => Engine.exhausted
  | budget + 1 =>
      { call := fun f this args w =>
          (P.guarded other (check w f none)).call (P.checkedEngine other check budget) f this args w
        construct := fun f args newTarget w =>
          (P.guarded other (check w f (some newTarget))).construct
            (P.checkedEngine other check budget) f args newTarget w
        readExport := fun m name strict =>
          P.readExport (P.checkedEngine other check budget) m name strict }

/-! ## Bodies that pass -/

/-- A body that passes is run. -/
theorem evaluateBody_guarded {test : World σ → ObjectId → ScopeId → Bool} {s : ScopeId}
    (h : ∀ held, test (w.startBody f s held) f s = true) (code : CodeId) (args : List Value) :
    (P.guarded other test).evaluateBody E f code s args w = P.evaluateBody E f code s args w := by
  apply Action.andFinally_congr
  apply Action.holding_congr
  show (if test (w.startBody f s _) f s then _ else _ : Script σ Value).run E _ = _
  rw [if_pos (h _)]
  rfl

/-- A call of an ordinary function starts a body that passes. -/
theorem callOrdinary_guarded (hcheck : check.Passes R) (hrefl : R w w)
    (hf : w.function? f = some (.ordinary d)) (this : Value) (args : List Value) :
    (P.guarded other (check w f none)).callOrdinary E f d this args w =
      P.callOrdinary E f d this args w := by
  rw [callOrdinary_eq _ _ hf, callOrdinary_eq _ _ hf]
  split
  · rfl
  · next hkind =>
    refine evaluateBody_guarded (fun held => hcheck _ held hrefl hf hf ?_) _ args
    exact ⟨fun _ => hkind, fun hnone => absurd rfl hnone⟩

/-- A construction with an ordinary function starts a body that passes. -/
theorem constructOrdinary_guarded (hcheck : check.Passes R) {L : Licence} (hR : Guarantee L R)
    (hE : E.Guarantees R) (hkeeps : E.Guarantees World.FunctionsKeep)
    (hf : w.function? f = some (.ordinary d)) (hkind : d.constructorKind ≠ .none)
    (args : List Value) (newTarget : ObjectId) :
    (P.guarded other (check w f (some newTarget))).constructOrdinary E f d args newTarget w =
      P.constructOrdinary E f d args newTarget w := by
  have hadmits : d.Admits (some newTarget) := ⟨fun hnone => (by cases hnone), fun _ => hkind⟩
  by_cases hbase : d.constructorKind = .base
  · cases hcreated : (E.newObjectFromConstructor newTarget .objectPrototype).holding
        (.object newTarget :: args.flatMap Value.entities) w with
    | error e w₁ =>
        unfold constructOrdinary
        rw [hbase]
        dsimp only
        rw [Action.bind_error hcreated, Action.bind_error hcreated]
    | ok o w₁ =>
        -- the object is created before the body is entered, and user code may run meanwhile
        have hrelated : R w w₁ := (hR.holding _
          (hR.newObjectFromConstructor hE newTarget .objectPrototype)).of_ok hcreated
        have hf₁ := function?_of_created hkeeps hf hcreated
        rw [constructOrdinary_base _ _ hf₁ hbase hcreated,
          constructOrdinary_base _ _ hf₁ hbase hcreated]
        apply Action.bind_congr
        apply Action.holding_congr
        refine evaluateBody_guarded (fun held => ?_) _ args
        exact hcheck (d.thisMode.received w₁.realm (.object o)) held hrelated hf hf₁ hadmits
  · rw [constructOrdinary_of_ne_base _ _ hf hbase, constructOrdinary_of_ne_base _ _ hf hbase]
    apply Action.bind_congr
    exact evaluateBody_guarded (fun held => hcheck _ held (hR.refl w) hf hf hadmits) _ args

theorem call_guarded (hcheck : check.Passes R) (hrefl : R w w) (f : ObjectId) (this : Value)
    (args : List Value) :
    (P.guarded other (check w f none)).call E f this args w = P.call E f this args w := by
  rw [call, call, Action.bind_ok (Action.get_apply w), Action.bind_ok (Action.get_apply w)]
  cases hf : w.function? f with
  | none => rfl
  | some g =>
      cases g with
      | ordinary d => exact callOrdinary_guarded hcheck hrefl hf this args
      | native n =>
          obtain ⟨name, arity, behaviour, build⟩ := n
          cases behaviour <;> rfl
      | bound b => rfl

theorem construct_guarded (hcheck : check.Passes R) {L : Licence} (hR : Guarantee L R)
    (hE : E.Guarantees R) (hkeeps : E.Guarantees World.FunctionsKeep) (f : ObjectId)
    (args : List Value) (newTarget : ObjectId) :
    (P.guarded other (check w f (some newTarget))).construct E f args newTarget w =
      P.construct E f args newTarget w := by
  cases hf : w.function? f with
  | none =>
      rw [construct, construct, Action.bind_ok (Action.get_apply w),
        Action.bind_ok (Action.get_apply w), hf]
  | some g =>
      cases g with
      | ordinary d =>
          rw [construct_ordinary _ _ hf, construct_ordinary _ _ hf]
          split
          · rfl
          · next hkind =>
            exact constructOrdinary_guarded hcheck hR hE hkeeps hf hkind args newTarget
      | native n =>
          rw [construct, construct, Action.bind_ok (Action.get_apply w),
            Action.bind_ok (Action.get_apply w), hf]
          obtain ⟨name, arity, behaviour, build⟩ := n
          cases build with
          | none => rfl
          | some b => cases b <;> rfl
      | bound b =>
          rw [construct, construct, Action.bind_ok (Action.get_apply w),
            Action.bind_ok (Action.get_apply w), hf]

/-- **Checking what all bodies pass makes no difference**, whatever code would be run otherwise. -/
theorem checkedEngine_eq (hcheck : check.Passes R) {L : Licence} (hR : Guarantee L R)
    (hP : ∀ budget, (P.engine budget).Guarantees R) (other : Program σ) (budget : Nat) :
    P.checkedEngine other check budget = P.engine budget := by
  induction budget with
  | zero => rfl
  | succ budget ih =>
      have hcall : (P.checkedEngine other check (budget + 1)).call =
          (P.engine (budget + 1)).call := by
        funext f this args w
        show (P.guarded other (check w f none)).call (P.checkedEngine other check budget) f this
          args w = _
        rw [ih]
        exact call_guarded hcheck (hR.refl w) f this args
      have hconstruct : (P.checkedEngine other check (budget + 1)).construct =
          (P.engine (budget + 1)).construct := by
        funext f args newTarget w
        show (P.guarded other (check w f (some newTarget))).construct
          (P.checkedEngine other check budget) f args newTarget w = _
        rw [ih]
        exact construct_guarded hcheck hR (hP budget) (P.engine_functionsKeep budget) f args
          newTarget
      have hread : (P.checkedEngine other check (budget + 1)).readExport =
          (P.engine (budget + 1)).readExport := by
        funext m name strict
        show P.readExport (P.checkedEngine other check budget) m name strict = _
        rw [ih]
        rfl
      exact Engine.ext hcall hconstruct hread

end Program

end EcmaCore
