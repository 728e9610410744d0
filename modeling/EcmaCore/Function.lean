import EcmaCore.Value

/-!
# Functions

What a function object holds besides its properties. An ordinary function has
user code and the environment it closed over, a native function has a built-in
or user-supplied behaviour for calls and perhaps one for construction, and a
bound function stands for another one with its `this` and first arguments
fixed.
-/

namespace EcmaCore

/-- Whether an ordinary function may be called. -/
inductive FunctionKind where
  | normal
  | classConstructor
  deriving DecidableEq, Repr

/-- Whether and how an ordinary function constructs. -/
inductive ConstructorKind where
  | base
  | derived
  | none
  deriving DecidableEq, Repr

/-- How an ordinary function treats the `this` it is called with: not at all, as it is, or with
the global object in place of undefined and null. -/
inductive ThisMode where
  | lexical
  | strict
  | global
  deriving DecidableEq, Repr

/-- The behaviours that every realm comes with. -/
inductive Builtin where
  | functionPrototype
  | throwTypeError
  | functionApply
  | functionBind
  | functionCall
  | functionToString
  | bufferConstructor
  | bufferByteLength
  | bufferDetached
  | bufferMaxByteLength
  | bufferResizable
  | bufferResize
  | bufferSlice
  | bufferSpecies
  deriving DecidableEq, Repr

/-- The behaviour of a native function. -/
inductive Behaviour where
  | builtin (b : Builtin)
  | code (c : CodeId)
  deriving DecidableEq, Repr

/-- A function with user code. -/
structure OrdinaryFunction where
  scope : ScopeId
  kind : FunctionKind
  constructorKind : ConstructorKind
  thisMode : ThisMode
  code : CodeId
  source : Option String
  deriving DecidableEq, Repr

/-- A function with a behaviour of its own. -/
structure NativeFunction where
  name : String
  arity : UInt32
  call : Behaviour
  construct : Option Behaviour
  deriving DecidableEq, Repr

/-- A function that stands for another with fixed `this` and first arguments. -/
structure BoundFunction where
  target : ObjectId
  boundThis : Value
  boundArgs : List Value
  deriving DecidableEq

/-- The three kinds of function objects. -/
inductive Function where
  | ordinary (f : OrdinaryFunction)
  | native (f : NativeFunction)
  | bound (f : BoundFunction)
  deriving DecidableEq

end EcmaCore
