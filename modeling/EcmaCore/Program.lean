import EcmaCore.Script

/-!
# Running programs

How functions are called and constructed, given the user code of a program.
Each is defined over an engine for the calls inside it; `Program.engine` closes
the loop with a budget that bounds how deep calls nest. A call that finishes
within a budget does the same within every larger one.

Whoever calls a function holds on to the function; its `this` and arguments are
handed over to it.
-/

namespace EcmaCore.Program

open Engine

variable {σ : Type} [Embedding σ]

/-- Runs a piece of user code. -/
def enter (P : Program σ) (E : Engine σ) (code : CodeId) (entry : Entry) : Action σ Value :=
  (P code entry).run E

/-- Runs the body of an ordinary function in its own execution context, which ends with it. The
environment of the body is held on to even when the body ends its context itself. -/
def evaluateBody (P : Program σ) (E : Engine σ) (f : ObjectId) (code : CodeId) (scope : ScopeId)
    (args : List Value) : Action σ Value := do
  pushContext scope (some f)
  ((P.enter E code (.body f scope args)).holding [.scope scope]).andFinally fun w =>
    { w with contexts := w.contexts.tail }

/-- Calls an ordinary function. -/
def callOrdinary (P : Program σ) (E : Engine σ) (f : ObjectId) (d : OrdinaryFunction)
    (this : Value) (args : List Value) : Action σ Value := do
  if d.kind = .classConstructor then
    Action.fail (.classCalled ((← get).object f).functionName)
  else
    let scope ← newFunctionScope f none
    bindCallThis scope d.thisMode this
    P.evaluateBody E f d.code scope args

/-- Constructs with an ordinary function. A base constructor gets a new object as its `this`; a
derived one has to bind its `this` itself. An object that the body returns is the result in
both cases. -/
def constructOrdinary (P : Program σ) (E : Engine σ) (f : ObjectId) (d : OrdinaryFunction)
    (args : List Value) (newTarget : ObjectId) : Action σ Value := do
  match d.constructorKind with
  | .base =>
      let created := E.newObjectFromConstructor newTarget .objectPrototype
      let this := Value.object
        (← created.holding (.object newTarget :: args.flatMap Value.entities))
      let scope ← newFunctionScope f (some newTarget)
      bindCallThis scope d.thisMode this
      match ← (P.evaluateBody E f d.code scope args).holding this.entities with
      | .object o => return .object o
      | _ => return this
  | _ =>
      let scope ← newFunctionScope f (some newTarget)
      match ← P.evaluateBody E f d.code scope args with
      | .object o => return .object o
      | .undefined => thisOf scope
      | _ => Action.fail .derivedResult

/-- Calls a function. A bound function has no use for the `this` it is called with, but keeps it
until its target returns. -/
def call (P : Program σ) (E : Engine σ) (f : ObjectId) (this : Value) (args : List Value) :
    Action σ Value := do
  let w ← get
  match w.function? f with
  | none => Action.fail (.notFunction (w.display (.object f)))
  | some (.ordinary d) => P.callOrdinary E f d this args
  | some (.native { call := .builtin b, .. }) => E.callBuiltin b this args
  | some (.native { call := .code c, .. }) => P.enter E c (.call this args)
  | some (.bound b) =>
      (E.call b.target b.boundThis (b.boundArgs ++ args)).holding this.entities

/-- Constructs with a function. A bound function passes its target on in its own place. -/
def construct (P : Program σ) (E : Engine σ) (f : ObjectId) (args : List Value)
    (newTarget : ObjectId) : Action σ Value := do
  let w ← get
  if w.isConstructorObject f then
    match w.function? f with
    | some (.ordinary d) => P.constructOrdinary E f d args newTarget
    | some (.native { construct := some (.builtin b), .. }) => E.constructBuiltin b args newTarget
    | some (.native { construct := some (.code c), .. }) => P.enter E c (.construct args newTarget)
    | some (.bound b) =>
        E.construct b.target (b.boundArgs ++ args) (if newTarget = f then b.target else newTarget)
    | _ => Action.fail (.notConstructor (w.display (.object f)))
  else Action.fail (.notConstructor (w.display (.object f)))

/-- Reads an export of a module: a binding of its environment, or what its code answers. -/
def readExport (P : Program σ) (E : Engine σ) (m : ModuleId) (name : String) (strict : Bool) :
    Action σ Value := do
  match ((← get).module m).source with
  | .linked s => E.getBinding s name strict
  | .code c => P.enter E c (.readExport name strict)

/-- The engine of a program in which calls nest at most as deep as the budget. -/
def engine (P : Program σ) : Nat → Engine σ
  | 0 => Engine.exhausted
  | budget + 1 =>
      { call := fun f this args => P.call (P.engine budget) f this args
        construct := fun f args newTarget => P.construct (P.engine budget) f args newTarget
        readExport := fun m name strict => P.readExport (P.engine budget) m name strict }

/-- Runs a script of the embedding program. -/
def runScript {α : Type} (P : Program σ) (budget : Nat) (script : Script σ α) : Action σ α :=
  script.run (P.engine budget)

end EcmaCore.Program
