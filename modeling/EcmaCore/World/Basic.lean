import EcmaCore.Object
import EcmaCore.Scope.Record

/-!
# Worlds

A world is everything that running code can change: the objects, environments
and modules there are, the ledger of buffer memory, the stack of running
execution contexts, and a value of any type that the embedding program keeps
in it. Objects, environments and modules are only ever added, so an identifier
stays good for ever; an identifier that names nothing reads as an empty object
or environment.

Two kinds of chains run through a world: from an object to its prototype, and
from an environment to the one around it. A prototype was there before the
objects that have it, so the chain from object number `n` has at most `n + 1`
members; a chain of environments has at most one member for each environment
there is, and perhaps a last one that names nothing.
-/

namespace EcmaCore

/-- The objects that every realm comes with and that code can ask for by name. -/
inductive Intrinsic where
  | arrayBuffer
  | arrayBufferPrototype
  | functionPrototype
  | objectPrototype
  | throwTypeError
  deriving DecidableEq, Repr

/-- A realm: its intrinsic objects, its global object and its global environment. -/
structure Realm where
  objectPrototype : ObjectId
  functionPrototype : ObjectId
  throwTypeError : ObjectId
  arrayBuffer : ObjectId
  arrayBufferPrototype : ObjectId
  global : ObjectId
  scope : ScopeId
  deriving DecidableEq, Inhabited

/-- The intrinsic object of a name. -/
def Realm.intrinsic (r : Realm) : Intrinsic → ObjectId
  | .arrayBuffer => r.arrayBuffer
  | .arrayBufferPrototype => r.arrayBufferPrototype
  | .functionPrototype => r.functionPrototype
  | .objectPrototype => r.objectPrototype
  | .throwTypeError => r.throwTypeError

/-- Where a module gets the values of its exports: from its environment, or from user code. -/
inductive ModuleSource where
  | linked (scope : ScopeId)
  | code (c : CodeId)
  deriving DecidableEq

/-- A module. Imports do not keep it; once nothing else does, it is no longer available. -/
structure Module where
  source : ModuleSource
  available : Bool
  deriving DecidableEq

/-- An execution context: the function that runs, if one does, and the environments in which
it looks up names and declares variables. -/
structure Context where
  function : Option ObjectId
  lexicalScope : ScopeId
  variableScope : ScopeId
  deriving DecidableEq

/-- A reservation of buffer memory that no buffer owns. -/
structure ReservationId where
  index : Nat
  deriving DecidableEq, Repr

/-- What a world keeps and what keeps parts of a world. -/
inductive Entity where
  | object (o : ObjectId)
  | scope (s : ScopeId)
  | module (m : ModuleId)
  deriving DecidableEq, Repr, Hashable

/-- Everything that running code can change. The contexts are listed from the running one
outward. `held` is what an operation in progress has gathered and not yet handed on. -/
structure World (σ : Type) where
  objects : Array Object
  scopes : Array Scope
  modules : Array Module
  reservations : Array (Option UInt64)
  ledger : Ledger
  memory : Memory
  contexts : List Context
  symbolCount : Nat
  realm : Realm
  otherRealms : List Realm
  held : List Entity
  host : σ

namespace World

variable {σ : Type}

/-! ## Objects -/

/-- The object of an identifier. -/
def object (w : World σ) (o : ObjectId) : Object := w.objects.getD o.index default

/-- A world with one object changed. -/
def modifyObject (w : World σ) (o : ObjectId) (f : Object → Object) : World σ :=
  { w with objects := w.objects.modify o.index f }

/-- A world with one object changed if it is a function. -/
def modifyFunction (w : World σ) (o : ObjectId) (f : Object → Object) : World σ :=
  w.modifyObject o fun x => if x.function?.isSome then f x else x

/-- A world with one object replaced. -/
def setObject (w : World σ) (o : ObjectId) (new : Object) : World σ := w.modifyObject o fun _ => new

/-- Adds an object. -/
def addObject (w : World σ) (new : Object) : ObjectId × World σ :=
  (⟨w.objects.size⟩, { w with objects := w.objects.push new })

/-- The objects from one along its prototypes, as many as `bound`. -/
def prototypesWithin (w : World σ) : Nat → ObjectId → List ObjectId
  | 0, _ => []
  | bound + 1, o =>
      o :: (match (w.object o).prototype with
        | none => []
        | some p => w.prototypesWithin bound p)

/-- An object and the prototypes along its chain, nearest first. -/
def prototypeChain (w : World σ) (o : ObjectId) : List ObjectId :=
  w.prototypesWithin (o.index + 1) o

/-- The own property of an object. -/
def own (w : World σ) (o : ObjectId) (key : PropertyKey) : Option Property := (w.object o).own key

/-- The property of the nearest object on the prototype chain that has the key. -/
def lookup (w : World σ) (o : ObjectId) (key : PropertyKey) : Option Property :=
  (w.prototypeChain o).findSome? (w.own · key)

/-- Whether an object has a property, its own or inherited. -/
def hasProperty (w : World σ) (o : ObjectId) (key : PropertyKey) : Bool := (w.lookup o key).isSome

/-- Whether an object has a property of its own. -/
def hasOwn (w : World σ) (o : ObjectId) (key : PropertyKey) : Bool := (w.own o key).isSome

/-- Defines a property and says whether the object admitted it. -/
def define (w : World σ) (o : ObjectId) (key : PropertyKey) (update : PropertyUpdate) :
    Bool × World σ :=
  match (w.object o).define key update with
  | some changed => (true, w.setObject o changed)
  | none => (false, w)

/-- Deletes a property and says whether the object admitted it. -/
def delete (w : World σ) (o : ObjectId) (key : PropertyKey) : Bool × World σ :=
  match (w.object o).delete key with
  | some changed => (true, w.setObject o changed)
  | none => (false, w)

/-- The function that an object is, if it is one. -/
def function? (w : World σ) (o : ObjectId) : Option Function := (w.object o).function?

/-- Whether a value can be called. -/
def isCallable (w : World σ) : Value → Bool
  | .object o => (w.object o).isCallable
  | _ => false

/-- Whether a function can construct; a bound one can when its target can, which is older. -/
def constructsWithin (w : World σ) : Nat → ObjectId → Bool
  | 0, _ => false
  | bound + 1, o =>
      match w.function? o with
      | some (.ordinary f) => f.constructorKind != .none
      | some (.native f) => f.construct.isSome
      | some (.bound f) => w.constructsWithin bound f.target
      | none => false

/-- Whether an object can construct. -/
def isConstructorObject (w : World σ) (o : ObjectId) : Bool := w.constructsWithin (o.index + 1) o

/-- Whether a value can construct. -/
def isConstructor (w : World σ) : Value → Bool
  | .object o => w.isConstructorObject o
  | _ => false

/-- A value in messages. -/
def display (w : World σ) : Value → String
  | .undefined => "undefined"
  | .null => "null"
  | .boolean b => "bool(" ++ (if b then "true" else "false") ++ ")"
  | .string s => "\"" ++ s ++ "\""
  | .symbol s => s.display
  | .number n => n.toDouble.toText
  | .object o => (w.object o).display

/-! ## Environments -/

/-- The environment of an identifier. -/
def scope (w : World σ) (s : ScopeId) : Scope :=
  w.scopes.getD s.index { record := .declarative .empty, outer := none }

/-- A world with one environment record replaced. -/
def setRecord (w : World σ) (s : ScopeId) (record : Record) : World σ :=
  { w with scopes := w.scopes.modify s.index ({ · with record := record }) }

/-- Adds an environment. -/
def addScope (w : World σ) (record : Record) (outer : Option ScopeId) : ScopeId × World σ :=
  (⟨w.scopes.size⟩, { w with scopes := w.scopes.push { record, outer } })

/-- The environments from one outward, as many as `bound`. -/
def scopesWithin (w : World σ) : Nat → ScopeId → List ScopeId
  | 0, _ => []
  | bound + 1, s =>
      s :: (match (w.scope s).outer with
        | none => []
        | some outer => w.scopesWithin bound outer)

/-- An environment and those around it, innermost first. -/
def scopeChain (w : World σ) (s : ScopeId) : List ScopeId := w.scopesWithin (w.scopes.size + 1) s

/-- The environment in which names are looked up now: that of the running context, or the
global one when nothing runs. -/
def runningScope (w : World σ) : ScopeId :=
  match w.contexts with
  | [] => w.realm.scope
  | context :: _ => context.lexicalScope

/-- The innermost environment that has a value of `this`; the outermost one if none has. -/
def thisScope (w : World σ) : ScopeId :=
  let chain := w.scopeChain w.runningScope
  (chain.find? fun s => (w.scope s).record.hasThis).getD (chain.getLastD w.runningScope)

/-! ## Modules -/

/-- The module of an identifier. -/
def module (w : World σ) (m : ModuleId) : Module :=
  w.modules.getD m.index { source := .linked ⟨0⟩, available := false }

/-- Adds a module. -/
def addModule (w : World σ) (source : ModuleSource) : ModuleId × World σ :=
  (⟨w.modules.size⟩, { w with modules := w.modules.push { source, available := true } })

/-! ## Buffer memory -/

/-- The bytes that a reservation holds. -/
def reservation (w : World σ) (r : ReservationId) : Option UInt64 :=
  w.reservations.getD r.index none

/-- Reserves bytes without a buffer. -/
def reserve (w : World σ) (bytes : UInt64) : Except Error (ReservationId × World σ) :=
  (w.ledger.charge bytes).map fun ledger =>
    (⟨w.reservations.size⟩, { w with ledger, reservations := w.reservations.push (some bytes) })

/-- Moves a reservation to another number of bytes. One that was given back is not moved. -/
def moveReservation (w : World σ) (r : ReservationId) (bytes : UInt64) : Except Error (World σ) :=
  match w.reservation r with
  | none => .ok w
  | some held =>
      (w.ledger.move held bytes).map fun ledger =>
        { w with ledger, reservations := w.reservations.setIfInBounds r.index (some bytes) }

/-- Gives the bytes of a reservation back. -/
def dropReservation (w : World σ) (r : ReservationId) : World σ :=
  match w.reservation r with
  | none => w
  | some bytes =>
      { w with
        ledger := w.ledger.release bytes
        reservations := w.reservations.setIfInBounds r.index none }

/-- Asks for a data block and says whether it was granted. -/
def askMemory (w : World σ) (bytes : UInt64) : Bool × World σ :=
  (w.memory.next bytes, { w with memory := w.memory.advance })

end World

end EcmaCore
