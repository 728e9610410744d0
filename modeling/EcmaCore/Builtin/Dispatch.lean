import EcmaCore.Builtin.ArrayBuffer
import EcmaCore.Builtin.Function

/-!
# Running built-in behaviours

Which operation each built-in behaviour stands for, in a call and in a
construction.
-/

namespace EcmaCore.Engine

variable {σ : Type}

/-- Runs a built-in behaviour for a call. -/
def callBuiltin [Embedding σ] (E : Engine σ) (b : Builtin) (this : Value) (args : List Value) :
    Action σ Value :=
  match b with
  | .functionPrototype => return .undefined
  | .throwTypeError => Action.fail .poisonedProperty
  | .functionApply => E.functionApply this args
  | .functionBind => E.functionBind this args
  | .functionCall => E.functionCall this args
  | .functionToString => functionToString this
  | .bufferConstructor => Action.fail .constructorCalled
  | .bufferByteLength => bufferByteLength this
  | .bufferDetached => bufferDetached this
  | .bufferMaxByteLength => bufferMaxByteLength this
  | .bufferResizable => bufferResizable this
  | .bufferResize => E.bufferResize this args
  | .bufferSlice => E.bufferSlice this args
  | .bufferSpecies => return this

/-- Runs a built-in behaviour for a construction; the buffer constructor is the only one. -/
def constructBuiltin [Embedding σ] (E : Engine σ) (b : Builtin) (args : List Value)
    (newTarget : ObjectId) : Action σ Value :=
  match b with
  | .bufferConstructor => E.constructBuffer args newTarget
  | _ => do Action.fail (.notConstructor ((← get).display (.object newTarget)))

end EcmaCore.Engine
