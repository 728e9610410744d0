import EcmaCore.Proofs.World.Functions
import EcmaCore.Proofs.World.Reaches
import EcmaCore.Proofs.World.Scopes

/-!
# How bodies are entered

Calls and constructions with ordinary functions, up to the moment at which the body
starts: each is refused, or creates the environment of the body with its `this` bound in
the way of the function and its new target recorded, and evaluates the body in it.
What a body sees of how it was entered is what `World.enterBody` says.

## Main results

* `Engine.bindCallThis_enterBody`: how the `this` that is passed is received.
* `Program.callOrdinary_eq`: calls of ordinary functions.
* `Program.constructOrdinary_base`, `Program.constructOrdinary_of_ne_base`: constructions
  with ordinary functions.
-/

namespace EcmaCore

/-- The `this` that a function is entered with when a value is passed for it: the value, or the
global object in place of undefined and null, or none of its own. -/
def ThisMode.received (mode : ThisMode) (realm : Realm) (v : Value) : Option Value :=
  match mode with
  | .lexical => none
  | .strict => some v
  | .global => some (if v.isNullish then .object realm.global else v)

/-- A function with a `this` of its own receives objects as they are. -/
theorem ThisMode.received_object {mode : ThisMode} (h : mode ≠ .lexical) (realm : Realm)
    (o : ObjectId) : mode.received realm (.object o) = some (.object o) := by
  cases mode with
  | lexical => exact absurd rfl h
  | strict | global => rfl

namespace World

variable {σ : Type}

/-- The environment in which the body of an ordinary function starts. -/
def bodyScope (f : ObjectId) (d : OrdinaryFunction) (newTarget : Option ObjectId)
    (this : Option Value) : Scope where
  record := .function .empty ⟨this, d.thisMode == .lexical, f, newTarget⟩
  outer := some d.scope

/-- The world in which the body of an ordinary function starts, apart from its context: there is a
new environment for it. -/
def enterBody (w : World σ) (f : ObjectId) (d : OrdinaryFunction) (newTarget : Option ObjectId)
    (this : Option Value) : World σ :=
  (w.addScope (bodyScope f d newTarget this).record (some d.scope)).2

/-- The environment of the next body. -/
def nextScope (w : World σ) : ScopeId := ⟨w.scopes.size⟩

variable {w : World σ} {f : ObjectId} {d : OrdinaryFunction} {newTarget : Option ObjectId}
  {this : Option Value}

@[simp] theorem scope_enterBody :
    (w.enterBody f d newTarget this).scope w.nextScope = bodyScope f d newTarget this := by
  rw [enterBody, scope_addScope]
  exact if_pos rfl

/-- Replacing the record of the environment that was added last is adding it with that record. -/
theorem setRecord_addScope (w : World σ) (record record' : Record) (outer : Option ScopeId) :
    (w.addScope record outer).2.setRecord ⟨w.scopes.size⟩ record' =
      (w.addScope record' outer).2 := by
  have hscopes : (w.scopes.push ⟨record, outer⟩).modify w.scopes.size
      ({ · with record := record' }) = w.scopes.push ⟨record', outer⟩ := by
    refine Array.ext (by simp) fun i hi _ => ?_
    rw [Array.getElem_modify, Array.getElem_push, Array.getElem_push]
    split
    · next heq =>
      subst heq
      simp
    · next hne =>
      have hlt : i < w.scopes.size := by
        simp only [Array.size_modify, Array.size_push] at hi
        omega
      rw [dif_pos hlt, dif_pos hlt]
  rw [addScope, addScope, setRecord, hscopes]

end World

namespace Engine

variable {σ : Type} {w : World σ} {f : ObjectId} {d : OrdinaryFunction}

/-- An ordinary function gets an environment inside the one that it closed over, with an unbound
`this`. -/
theorem newFunctionScope_ordinary (hf : w.function? f = some (.ordinary d))
    (newTarget : Option ObjectId) :
    newFunctionScope f newTarget w = .ok w.nextScope (w.enterBody f d newTarget none) := by
  rw [newFunctionScope, Action.bind_ok (Action.get_apply w)]
  simp only [hf]
  rfl

theorem bindThis_enterBody (hmode : d.thisMode ≠ .lexical) (newTarget : Option ObjectId)
    (v : Value) :
    bindThis w.nextScope v (w.enterBody f d newTarget none) =
      .ok () (w.enterBody f d newTarget (some v)) := by
  have hlexical : (d.thisMode == .lexical) = false := by simpa using hmode
  refine Action.attempt_ok ?_
  rw [World.scope_enterBody]
  simp only [World.bodyScope, Record.bindThis, hlexical]
  show Except.ok ((), _) = _
  rw [World.enterBody, World.nextScope, World.setRecord_addScope, World.enterBody, World.bodyScope,
    hlexical]

/-- Binding the `this` that is passed leaves the environment with the `this` that the function
receives. -/
theorem bindCallThis_enterBody (newTarget : Option ObjectId) (v : Value) :
    bindCallThis w.nextScope d.thisMode v (w.enterBody f d newTarget none) =
      .ok () (w.enterBody f d newTarget (d.thisMode.received w.realm v)) := by
  cases hmode : d.thisMode with
  | lexical => rfl
  | strict => exact bindThis_enterBody (by rw [hmode]; decide) newTarget v
  | global =>
      have hne : d.thisMode ≠ .lexical := by rw [hmode]; decide
      unfold bindCallThis ThisMode.received
      dsimp only
      split
      · rw [Action.bind_ok (Action.get_apply _)]
        exact bindThis_enterBody hne newTarget _
      · exact bindThis_enterBody hne newTarget _

end Engine

namespace Program

variable {σ : Type} [Embedding σ] (P : Program σ) (E : Engine σ) {w : World σ} {f : ObjectId}
  {d : OrdinaryFunction}

/-- Calling a class constructor is refused; any other call of an ordinary function evaluates its
body with the `this` that it receives and without a new target. -/
theorem callOrdinary_eq (hf : w.function? f = some (.ordinary d)) (this : Value)
    (args : List Value) :
    P.callOrdinary E f d this args w =
      if d.kind = .classConstructor then
        .error (.thrown (.classCalled (w.object f).functionName)) w
      else
        P.evaluateBody E f d.code w.nextScope args
          (w.enterBody f d none (d.thisMode.received w.realm this)) := by
  unfold callOrdinary
  split
  · rfl
  · rw [Action.bind_ok (Engine.newFunctionScope_ordinary hf none),
      Action.bind_ok (Engine.bindCallThis_enterBody none this)]

/-- What a base constructor gives, from the object that it was entered with and the result of its
body. -/
def baseResult (o : ObjectId) : Value → Action σ Value
  | .object result => return .object result
  | _ => return .object o

/-- What any other constructor gives, from the environment of its body and the result of that. -/
def derivedResult (s : ScopeId) : Value → Action σ Value
  | .object result => return .object result
  | .undefined => Engine.thisOf s
  | _ => Action.fail .derivedResult

/-- The function that is entered is what it was before its `this` was created. -/
theorem function?_of_created {E : Engine σ} {w₁ : World σ} {o newTarget : ObjectId}
    {args : List Value} (hE : E.Guarantees World.FunctionsKeep)
    (hf : w.function? f = some (.ordinary d))
    (hcreated : (E.newObjectFromConstructor newTarget .objectPrototype).holding
      (.object newTarget :: args.flatMap Value.entities) w = .ok o w₁) :
    w₁.function? f = some (.ordinary d) := by
  have hkeeps := World.functionsKeep_guarantee (σ := σ) .all
  have hcreate := hkeeps.holding (.object newTarget :: args.flatMap Value.entities)
    (hkeeps.newObjectFromConstructor hE newTarget .objectPrototype)
  exact hcreate.of_ok hcreated f _ hf

/-- A construction with a base constructor creates its `this` first, and evaluates the body with it
and with the new target. -/
theorem constructOrdinary_base {w₁ : World σ} {o newTarget : ObjectId} {args : List Value}
    (hf : w₁.function? f = some (.ordinary d)) (hbase : d.constructorKind = .base)
    (hcreated : (E.newObjectFromConstructor newTarget .objectPrototype).holding
      (.object newTarget :: args.flatMap Value.entities) w = .ok o w₁) :
    P.constructOrdinary E f d args newTarget w =
      ((P.evaluateBody E f d.code w₁.nextScope args).holding [.object o] >>= baseResult o)
        (w₁.enterBody f d (some newTarget) (d.thisMode.received w₁.realm (.object o))) := by
  unfold constructOrdinary
  rw [hbase]
  dsimp only
  rw [Action.bind_ok hcreated,
    Action.bind_ok (Engine.newFunctionScope_ordinary hf (some newTarget)),
    Action.bind_ok (Engine.bindCallThis_enterBody (some newTarget) (.object o))]
  refine congrFun (Action.bind_congr_next fun result => ?_) _
  cases result <;> rfl

/-- Any other construction with an ordinary function evaluates the body without a `this`, and with
the new target. -/
theorem constructOrdinary_of_ne_base (hf : w.function? f = some (.ordinary d))
    (hbase : d.constructorKind ≠ .base) (args : List Value) (newTarget : ObjectId) :
    P.constructOrdinary E f d args newTarget w =
      (P.evaluateBody E f d.code w.nextScope args >>= derivedResult w.nextScope)
        (w.enterBody f d (some newTarget) none) := by
  unfold constructOrdinary
  cases hkind : d.constructorKind with
  | base => exact absurd hkind hbase
  | derived | none =>
      dsimp only
      rw [Action.bind_ok (Engine.newFunctionScope_ordinary hf (some newTarget))]
      refine congrFun (Action.bind_congr_next fun result => ?_) _
      cases result <;> rfl

/-- Calling an ordinary function. -/
theorem call_ordinary (hf : w.function? f = some (.ordinary d)) (this : Value)
    (args : List Value) : P.call E f this args w = P.callOrdinary E f d this args w := by
  rw [call, Action.bind_ok (Action.get_apply w), hf]

/-- Constructing with an ordinary function is refused if it is no constructor. -/
theorem construct_ordinary (hf : w.function? f = some (.ordinary d)) (args : List Value)
    (newTarget : ObjectId) :
    P.construct E f args newTarget w =
      if d.constructorKind = .none then
        .error (.thrown (.notConstructor (w.display (.object f)))) w
      else P.constructOrdinary E f d args newTarget w := by
  have hadmits : w.isConstructorObject f = (d.constructorKind != .none) := by
    rw [World.isConstructorObject, World.constructsWithin, hf]
  rw [construct, Action.bind_ok (Action.get_apply w), hadmits, hf]
  by_cases hkind : d.constructorKind = .none
  · rw [if_pos hkind, hkind]
    rfl
  · rw [if_neg hkind, if_pos (by simpa using hkind)]

/-! ## The engine of a program -/

variable (budget : Nat)

theorem engine_call (f : ObjectId) (this : Value) (args : List Value) :
    (P.engine (budget + 1)).call f this args = P.call (P.engine budget) f this args :=
  rfl

theorem engine_construct (f : ObjectId) (args : List Value) (newTarget : ObjectId) :
    (P.engine (budget + 1)).construct f args newTarget =
      P.construct (P.engine budget) f args newTarget :=
  rfl

end Program

end EcmaCore
