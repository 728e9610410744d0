import EcmaCore.Engine.Property

/-!
# Creating functions and built-in objects

New function objects get their `length` and `name` before anything else. A
`Fixture` is a property that a built-in object comes with; `World.addFixture`
installs it, with the function it may need.
-/

namespace EcmaCore

/-- A property of a built-in object. -/
inductive Fixture where
  | method (name : String) (arity : UInt32) (behaviour : Behaviour)
  | getter (key : PropertyKey) (behaviour : Behaviour)
  | property (key : PropertyKey) (v : Value)
  | readonly (key : PropertyKey) (v : Value)
  | constant (key : PropertyKey) (v : Value)

/-- A native function as an object. -/
def Object.ofNative (prototype : Option ObjectId) (key : PropertyKey) (arity : UInt32)
    (call : Behaviour) (construct : Option Behaviour) : Object :=
  ((Object.new prototype
    (.function (.native { name := key.functionName, arity, call, construct }))).setFunctionLength
      (.integer arity.toNat)).setFunctionName key none

/-- An ordinary function as an object. -/
def Object.ofOrdinary (prototype : ObjectId) (name : String) (length : UInt32)
    (f : OrdinaryFunction) : Object :=
  ((Object.new (some prototype) (.function (.ordinary f))).setFunctionLength
    (.integer length.toNat)).setFunctionName (.text name) none

namespace World

variable {σ : Type}

/-- Defines a data property where nothing objects to it. -/
def defineData (w : World σ) (o : ObjectId) (key : PropertyKey) (v : Value)
    (writable enumerable configurable : Bool) : World σ :=
  (w.define o key (.full (.data v writable enumerable configurable))).2

/-- Installs a property of a built-in object. Functions inherit from `functionPrototype`; a
getter is named `get` and its key. -/
def addFixture (w : World σ) (o functionPrototype : ObjectId) : Fixture → World σ
  | .method name arity behaviour =>
      let (f, w) := w.addObject (.ofNative (some functionPrototype) name arity behaviour none)
      w.defineData o name (.object f) true false true
  | .getter key behaviour =>
      let (f, w) := w.addObject
        ((Object.ofNative (some functionPrototype) key 0 behaviour none).setFunctionName key "get")
      (w.define o key (.full (.accessor (some f) none false true))).2
  | .property key v => w.defineData o key v true false true
  | .readonly key v => w.defineData o key v false false true
  | .constant key v => w.defineData o key v false false false

/-- Installs properties of a built-in object in turn. -/
def addFixtures (w : World σ) (o functionPrototype : ObjectId) (fixtures : List Fixture) :
    World σ :=
  fixtures.foldl (fun w fixture => w.addFixture o functionPrototype fixture) w

end World

namespace Engine

variable {σ : Type}

/-- Creates a native function. -/
def newNative (prototype : Option ObjectId) (key : PropertyKey) (arity : UInt32)
    (call : Behaviour) (construct : Option Behaviour) : Action σ ObjectId :=
  Action.change (·.addObject (.ofNative prototype key arity call construct))

/-- Creates an ordinary function of the realm. -/
def newOrdinary (name : String) (length : UInt32) (f : OrdinaryFunction) : Action σ ObjectId :=
  Action.change fun w => w.addObject (.ofOrdinary w.realm.functionPrototype name length f)

/-- A bound function as an object, without the properties a bound function gets later. It has
the prototype of its target. -/
def boundFunction (target : ObjectId) (boundThis : Value) (boundArgs : List Value) :
    Action σ Object := do
  let w ← get
  if w.isCallable (.object target) then
    return .new (w.object target).prototype (.function (.bound { target, boundThis, boundArgs }))
  else Action.fail .bindTarget

end Engine

end EcmaCore
