import EcmaCore.Engine.Scope

/-!
# References to names

Resolving a name walks the chain of environments outward to the first that has
it, and holds on to the one it asks, though not to those it has left. The result
is a reference, which can be read, assigned to and asked for the `this` of a call
through it. `probeName` resolves and reads at once, and treats a name that nothing
has as no error.
-/

namespace EcmaCore

/-- A resolved name: the environment that has it, or none. -/
structure Reference where
  base : Option ScopeId
  name : String
  strict : Bool
  deriving DecidableEq, Repr

namespace Engine

variable {σ : Type}

/-- The first environment of a list that has a name. -/
def firstWithBinding (E : Engine σ) (name : String) : List ScopeId → Action σ (Option ScopeId)
  | [] => return none
  | s :: rest => do
      if ← (E.hasBinding s name).holding [.scope s] then return some s
      else E.firstWithBinding name rest

/-- The environments in which a name is looked up. -/
def chainOf (s : Option ScopeId) : Action σ (List ScopeId) := do
  let w ← get
  return (s.map w.scopeChain).getD []

/-- Resolves a name from an environment outward. -/
def reference (E : Engine σ) (s : Option ScopeId) (name : String) (strict : Bool) :
    Action σ Reference := do
  return { base := ← E.firstWithBinding name (← chainOf s), name, strict }

/-- Resolves a name where code is running. -/
def resolve (E : Engine σ) (name : String) (strict : Bool) : Action σ Reference := do
  E.reference (some (← get).runningScope) name strict

/-- Reads a reference. -/
def getReference [Embedding σ] (E : Engine σ) (r : Reference) : Action σ Value :=
  match r.base with
  | none => Action.fail (.notDefined r.name)
  | some s => E.getBinding s r.name r.strict

/-- Assigns to a reference. A name that nothing has becomes a property of the global object,
unless the reference is strict. -/
def putReference (E : Engine σ) (r : Reference) (v : Value) : Action σ Unit := do
  match r.base with
  | none =>
      if r.strict then Action.fail (.notDefined r.name)
      else
        let _ ← E.setProperty (← get).realm.global r.name v false
  | some s => E.setBinding s r.name v r.strict

/-- Reads a name from the first environment of a list that has it; none when no environment has
it. A binding without a value is an error. -/
def probeIn [Embedding σ] (E : Engine σ) (name : String) (strict : Bool) :
    List ScopeId → Action σ (Option Value)
  | [] => return none
  | s :: rest => do
      match ← (E.probeBinding s name strict).holding [.scope s] with
      | some (_, v) => return some v
      | none =>
          if ← (E.hasBinding s name).holding [.scope s] then Action.fail (.uninitialized name)
          else E.probeIn name strict rest

/-- Reads a name from an environment outward, if any has it. -/
def probeName [Embedding σ] (E : Engine σ) (s : Option ScopeId) (name : String) (strict : Bool) :
    Action σ (Option Value) := do
  E.probeIn name strict (← chainOf s)

end Engine

/-- The `this` of a call through a reference: the object of a `with` statement, or undefined. -/
def World.referenceThis {σ : Type} (w : World σ) (r : Reference) : Value :=
  match r.base.bind fun s => (w.scope s).record.withObject? with
  | some o => .object o
  | none => .undefined

end EcmaCore
