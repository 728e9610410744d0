import EcmaCore.Engine.Function

/-!
# Realms

A realm is built completely before any code runs in it: the prototypes first,
since every function needs the prototype of functions, then the constructor of
array buffers and its prototype, and last the global object and the global
environment in front of it.
-/

namespace EcmaCore

/-- The methods that all functions inherit. -/
def functionPrototypeFixtures : List Fixture :=
  [ .method "apply" 2 (.builtin .functionApply),
    .method "bind" 1 (.builtin .functionBind),
    .method "call" 1 (.builtin .functionCall),
    .method "toString" 0 (.builtin .functionToString) ]

/-- The getters and methods that all array buffers inherit. -/
def bufferPrototypeFixtures (constructor : ObjectId) : List Fixture :=
  [ .getter "byteLength" (.builtin .bufferByteLength),
    .getter "detached" (.builtin .bufferDetached),
    .getter "maxByteLength" (.builtin .bufferMaxByteLength),
    .getter "resizable" (.builtin .bufferResizable),
    .method "resize" 1 (.builtin .bufferResize),
    .method "slice" 2 (.builtin .bufferSlice),
    .property "constructor" (.object constructor),
    .readonly Symbol.toStringTag (.string "ArrayBuffer") ]

/-- The properties of the constructor of array buffers. -/
def bufferConstructorFixtures (prototype : ObjectId) : List Fixture :=
  [ .constant "prototype" (.object prototype),
    .getter Symbol.species (.builtin .bufferSpecies) ]

/-- The properties that every global object starts with. -/
def globalFixtures (global arrayBuffer : ObjectId) : List Fixture :=
  [ .property "globalThis" (.object global),
    .constant "Infinity" (.number .positiveInfinity),
    .constant "NaN" (.number .nan),
    .constant "undefined" .undefined,
    .property "ArrayBuffer" (.object arrayBuffer) ]

/-- The function that always throws: its length and name are frozen and it gains no
properties. -/
def Object.thrower (functionPrototype : ObjectId) : Object :=
  let f := Object.ofNative (some functionPrototype) "" 0 (.builtin .throwTypeError) none
  ((f.defineQuietly "length" .freeze).defineQuietly "name" .freeze).preventExtensions

namespace World

variable {σ : Type}

/-- Adds a realm. -/
def addRealm (w : World σ) : Realm × World σ :=
  let (objectPrototype, w) := w.addObject (.new none .plain)
  let (functionPrototype, w) := w.addObject
    (.ofNative (some objectPrototype) "" 0 (.builtin .functionPrototype) none)
  let (throwTypeError, w) := w.addObject (.thrower functionPrototype)
  let w := w.addFixtures functionPrototype functionPrototype functionPrototypeFixtures
  let (arrayBuffer, w) := w.addObject
    (.ofNative (some functionPrototype) "ArrayBuffer" 1 (.builtin .bufferConstructor)
      (some (.builtin .bufferConstructor)))
  let (arrayBufferPrototype, w) := w.addObject (.new (some objectPrototype) .plain)
  let w := w.addFixtures arrayBufferPrototype functionPrototype
    (bufferPrototypeFixtures arrayBuffer)
  let w := w.addFixtures arrayBuffer functionPrototype
    (bufferConstructorFixtures arrayBufferPrototype)
  let (global, w) := w.addObject (.new (some objectPrototype) .plain)
  let w := w.addFixtures global functionPrototype (globalFixtures global arrayBuffer)
  let (scope, w) := w.addScope
    (.global .empty { object := global, this := global, varNames := [] }) none
  ({ objectPrototype, functionPrototype, throwTypeError, arrayBuffer, arrayBufferPrototype, global,
     scope }, w)

/-- The world without anything in it. -/
def empty (limit : Option UInt64) (memory : Memory) (host : σ) : World σ :=
  { objects := #[]
    scopes := #[]
    modules := #[]
    reservations := #[]
    ledger := .start limit
    memory
    contexts := []
    symbolCount := 0
    realm := default
    otherRealms := []
    held := []
    host }

/-- The world of one realm in which nothing has run yet. -/
def start (limit : Option UInt64) (memory : Memory) (host : σ) : World σ :=
  let (realm, w) := (empty limit memory host).addRealm
  { w with realm }

end World

end EcmaCore
