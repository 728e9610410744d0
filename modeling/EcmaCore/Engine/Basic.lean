import EcmaCore.World.Collect

/-!
# Actions and engines

An action reads and changes a world and ends with a result, with an error of
the language, or without an answer because its budget of nested calls is
spent. The changes made before an error stay.

What an operation gathers and does not hand on is kept by `Action.holding` while
it runs other code; what it hands on is the affair of whoever gets it.

An `Engine` is what operations need in order to run code: how to call a
function, how to construct with one, and how to read an export of a module.
Every operation of the runtime takes an engine and is not recursive itself;
`Program.engine` ties the knot.
-/

namespace EcmaCore

/-- Why an action has no result: an error of the language, or a spent budget. -/
inductive Failure where
  | thrown (e : Error)
  | exhausted
  deriving DecidableEq, Repr

/-- A computation on a world. -/
abbrev Action (σ α : Type) : Type := EStateM Failure (World σ) α

namespace Action

variable {σ α β : Type}

/-- Ends with an error of the language. -/
def fail (e : Error) : Action σ α := throw (.thrown e)

/-- A result or an error that does not depend on the world. -/
def ofExcept : Except Error α → Action σ α
  | .ok a => pure a
  | .error e => fail e

/-- Reads something off the world. -/
def read (f : World σ → α) : Action σ α := do return f (← get)

/-- A change of the world with a result. -/
def change (f : World σ → α × World σ) : Action σ α := modifyGet f

/-- A change of the world that an error leaves undone. -/
def attempt (f : World σ → Except Error (α × World σ)) : Action σ α := fun w =>
  match f w with
  | .ok (a, w') => .ok a w'
  | .error e => .error (.thrown e) w

/-- Runs an action and then changes the world, however the action ended. -/
def andFinally (action : Action σ α) (cleanUp : World σ → World σ) : Action σ α := fun w =>
  match action w with
  | .ok a w' => .ok a (cleanUp w')
  | .error e w' => .error e (cleanUp w')

/-- Runs an action with its error, if it ends with one, as the result. -/
def caught (action : Action σ α) : Action σ (Except Error α) := fun w =>
  match action w with
  | .ok a w' => .ok (.ok a) w'
  | .error (.thrown e) w' => .ok (.error e) w'
  | .error .exhausted w' => .error .exhausted w'

/-- Gives up what nothing refers to, before something is read that shows it. -/
def settle [Embedding σ] : Action σ Unit := modify World.settle

/-- Runs an action while the world holds on to further entities. -/
def holding (entities : List Entity) (action : Action σ α) : Action σ α := do
  let before ← read (·.held)
  modify fun w => { w with held := entities ++ w.held }
  action.andFinally fun w => { w with held := before }

end Action

/-- How code is run: calls, constructions and reads of module exports. -/
structure Engine (σ : Type) where
  call : ObjectId → Value → List Value → Action σ Value
  construct : ObjectId → List Value → ObjectId → Action σ Value
  readExport : ModuleId → String → Bool → Action σ Value

namespace Engine

/-- The engine that runs nothing because its budget is spent. -/
def exhausted {σ : Type} : Engine σ where
  call _ _ _ := throw .exhausted
  construct _ _ _ := throw .exhausted
  readExport _ _ _ := throw .exhausted

end Engine

end EcmaCore
