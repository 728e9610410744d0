import EcmaCore.Builtin.Dispatch
import EcmaCore.Engine.Reference
import EcmaCore.Realm

/-!
# Requests

The operations of the runtime that change a world or may run user code, as
data: what user code and the embedding program can ask for. `Request.perform`
carries a request out and gives its `Answer`; what only reads a world needs no
request.

The operands that a request works on are held on to until it is carried out;
the values that it hands over, such as the arguments of a call, are not.
-/

namespace EcmaCore

/-- What a value is to be converted to. -/
inductive Conversion where
  | primitive (hint : Hint)
  | number
  | string
  | propertyKey
  | integerOrInfinity
  | index
  | word
  deriving DecidableEq, Repr

/-- The environments that can be created. -/
inductive NewScope where
  | declarative (outer : Option ScopeId)
  | object (backing : ObjectId) (isWith : Bool) (outer : Option ScopeId)
  | function (f : ObjectId) (newTarget : Option ObjectId)
  | global (object this : ObjectId)
  | module (outer : Option ScopeId)
  deriving DecidableEq

/-- An operation that user code or the embedding program asks for. -/
inductive Request where
  -- values
  | newSymbol (description : String)
  | convert (target : Conversion) (v : Value)
  | ordinaryToPrimitive (o : ObjectId) (hint : Hint)
  -- properties
  | newObject (prototype : Option ObjectId)
  | getFor (o : ObjectId) (key : PropertyKey) (receiver : Value)
  | setFor (o : ObjectId) (key : PropertyKey) (v receiver : Value)
  | setProperty (o : ObjectId) (key : PropertyKey) (v : Value) (mustSucceed : Bool)
  | defineOrFail (o : ObjectId) (key : PropertyKey) (update : PropertyUpdate)
  | define (o : ObjectId) (key : PropertyKey) (update : PropertyUpdate)
  | delete (o : ObjectId) (key : PropertyKey)
  | preventExtensions (o : ObjectId)
  | getMethod (o : ObjectId) (key : PropertyKey)
  | invoke (o : ObjectId) (key : PropertyKey) (args : List Value)
  | addFixture (o functionPrototype : ObjectId) (fixture : Fixture)
  -- functions
  | newNative (prototype : Option ObjectId) (key : PropertyKey) (arity : UInt32)
      (call : Behaviour) (construct : Option Behaviour)
  | newOrdinary (name : String) (length : UInt32) (f : OrdinaryFunction)
  | newBound (target : ObjectId) (boundThis : Value) (boundArgs : List Value)
  | setFunctionName (f : ObjectId) (key : PropertyKey) (qualifier : Option String)
  | setFunctionLength (f : ObjectId) (length : Number)
  | callValue (f this : Value) (args : List Value)
  | callObject (f : ObjectId) (this : Value) (args : List Value)
  | construct (f : ObjectId) (args : List Value) (newTarget : Option ObjectId)
  | speciesConstructor (o default : ObjectId)
  | prototypeFromConstructor (constructor : ObjectId) (fallback : Intrinsic)
  | newObjectFromConstructor (constructor : ObjectId) (fallback : Intrinsic)
  | listFromArrayLike (v : Value)
  -- array buffers and their memory
  | allocateBuffer (constructor : ObjectId) (length : UInt64) (maximum : Option UInt64)
  | newBuffer (prototype : Option ObjectId) (length : UInt64) (maximum : Option UInt64)
      (shared : Bool)
  | maximumOption (options : Value)
  | detach (o : ObjectId)
  | detachUnchecked (o : ObjectId)
  | resizeBuffer (o : ObjectId) (length : UInt64)
  | createBlock (length : UInt64)
  | fillBuffer (o : ObjectId) (position : Nat) (source : List UInt8)
  | reserve (bytes : UInt64)
  | moveReservation (r : ReservationId) (bytes : UInt64)
  | dropReservation (r : ReservationId)
  -- environments
  | newScope (kind : NewScope)
  | hasBinding (s : ScopeId) (name : String)
  | createMutable (s : ScopeId) (name : String) (deletable : Bool)
  | createImmutable (s : ScopeId) (name : String) (strict : Bool)
  | initBinding (s : ScopeId) (name : String) (v : Value)
  | setBinding (s : ScopeId) (name : String) (v : Value) (strict : Bool)
  | getBinding (s : ScopeId) (name : String) (strict : Bool)
  | probeBinding (s : ScopeId) (name : String) (strict : Bool)
  | deleteBinding (s : ScopeId) (name : String)
  | createGlobalVar (s : ScopeId) (name : String) (deletable : Bool)
  | createGlobalFunction (s : ScopeId) (name : String) (f : Value) (deletable : Bool)
  | thisOf (s : ScopeId)
  | bindThis (s : ScopeId) (v : Value)
  | bindCallThis (s : ScopeId) (mode : ThisMode) (v : Value)
  | resolveThis
  -- modules
  | newModule (source : ModuleSource)
  | readExport (m : ModuleId) (name : String) (strict : Bool)
  | createImport (s : ScopeId) (source : ModuleId) (name exported : String)
  -- references
  | reference (s : Option ScopeId) (name : String) (strict : Bool)
  | resolve (name : String) (strict : Bool)
  | getReference (r : Reference)
  | putReference (r : Reference) (v : Value)
  | probeName (s : Option ScopeId) (name : String) (strict : Bool)
  -- contexts and realms
  | pushContext (s : ScopeId) (f : Option ObjectId)
  | pushCall (f : ObjectId) (newTarget : Option ObjectId)
  | popContext
  | newRealm

/-- What a request is answered with. -/
inductive Answer where
  | done
  | value (v : Value)
  | flag (b : Bool)
  | values (vs : List Value)
  | object (o : Option ObjectId)
  | size (n : Option UInt64)
  | reservation (r : ReservationId)
  | scope (s : ScopeId)
  | module (m : ModuleId)
  | binding (b : Option (Binding × Value))
  | reference (r : Reference)
  | probed (v : Option Value)
  | realm (r : Realm)

namespace Engine

variable {σ : Type}

/-- Converts a value. -/
def convert (E : Engine σ) (target : Conversion) (v : Value) : Action σ Value :=
  match target with
  | .primitive hint => E.toPrimitive v hint
  | .number => return .ofDouble (← E.toNumber v)
  | .string => return .string (← E.toText v)
  | .propertyKey => return (← E.toPropertyKey v).toValue
  | .integerOrInfinity => return .ofDouble (← E.toIntegerOrInfinity v)
  | .index => return .ofSize (← E.toIndex v)
  | .word => return .number (.ofInt (← E.toWord v).toNat)

/-- Creates an environment. -/
def createScope : NewScope → Action σ ScopeId
  | .declarative outer => newScope (.declarative .empty) outer
  | .object backing isWith outer => newScope (.object backing isWith) outer
  | .function f newTarget => newFunctionScope f newTarget
  | .global object this => newScope (.global .empty { object, this, varNames := [] }) none
  | .module outer => newScope (.module .empty .empty) outer

/-- Starts an execution context. -/
def pushContext (s : ScopeId) (f : Option ObjectId) : Action σ Unit :=
  modify fun w =>
    { w with
      contexts := { function := f, lexicalScope := s, variableScope := s } :: w.contexts }

/-- Ends the running execution context and says whether there was one. -/
def popContext : Action σ Bool :=
  Action.change fun w => (!w.contexts.isEmpty, { w with contexts := w.contexts.tail })

end Engine

namespace Request

open Engine

/-- The entities that are held on to until a request is carried out. Those that run no code and
charge nothing need none. -/
def operands : Request → List Entity
  | convert _ v | listFromArrayLike v | maximumOption v => v.entities
  | ordinaryToPrimitive o _ | getFor o .. | setFor o .. | setProperty o .. | getMethod o _
  | resizeBuffer o _ => [.object o]
  | callValue f .. => f.entities
  | callObject f .. | prototypeFromConstructor f _ | newObjectFromConstructor f _
  | allocateBuffer f .. => [.object f]
  | construct f _ newTarget => .object f :: newTarget.toList.map .object
  | speciesConstructor o default => [.object o, .object default]
  | hasBinding s _ | initBinding s .. | setBinding s .. | getBinding s .. | probeBinding s ..
  | createGlobalVar s .. | createGlobalFunction s .. => [.scope s]
  | readExport m .. => [.module m]
  | getReference r | putReference r _ => r.base.toList.map .scope
  | _ => []

variable {σ : Type} [Embedding σ]

/-- Carries out a request on operands that are held on to. -/
def execute (E : Engine σ) : Request → Action σ Answer
  | newSymbol description =>
      Action.change fun w =>
        (.value (.symbol (.created w.symbolCount description)),
          { w with symbolCount := w.symbolCount + 1 })
  | convert target v => return .value (← E.convert target v)
  | ordinaryToPrimitive o hint => return .value (← E.ordinaryToPrimitive o hint)
  | newObject prototype => return .object (some (← Engine.newObject prototype))
  | getFor o key receiver => return .value (← E.getFor o key receiver)
  | setFor o key v receiver => return .flag (← E.setFor o key v receiver)
  | setProperty o key v mustSucceed => return .flag (← E.setProperty o key v mustSucceed)
  | defineOrFail o key update => do
      Engine.defineOrFail o key update
      return .done
  | define o key update => return .flag (← Action.change (·.define o key update))
  | delete o key => return .flag (← Action.change (·.delete o key))
  | preventExtensions o => do
      modify (·.modifyObject o Object.preventExtensions)
      return .done
  | getMethod o key => return .object (← E.getMethod o key)
  | invoke o key args => return .value (← E.invoke o key args)
  | addFixture o functionPrototype fixture => do
      modify (·.addFixture o functionPrototype fixture)
      return .done
  | newNative prototype key arity call build =>
      return .object (some (← Engine.newNative prototype key arity call build))
  | newOrdinary name length f => return .object (some (← Engine.newOrdinary name length f))
  | newBound target boundThis boundArgs => do
      let bound ← boundFunction target boundThis boundArgs
      return .object (some (← Action.change (·.addObject bound)))
  | setFunctionName f key qualifier => do
      modify (·.modifyFunction f (·.setFunctionName key qualifier))
      return .done
  | setFunctionLength f length => do
      modify (·.modifyFunction f (·.setFunctionLength length))
      return .done
  | callValue f this args => return .value (← E.callValue f this args)
  | callObject f this args => return .value (← E.call f this args)
  | construct f args newTarget => return .value (← E.construct f args (newTarget.getD f))
  | speciesConstructor o default => return .object (some (← E.speciesConstructor o default))
  | prototypeFromConstructor constructor fallback =>
      return .object (some (← E.prototypeFromConstructor constructor fallback))
  | newObjectFromConstructor constructor fallback =>
      return .object (some (← E.newObjectFromConstructor constructor fallback))
  | listFromArrayLike v => return .values (← E.listFromArrayLike v)
  | allocateBuffer constructor length maximum =>
      return .object (some (← E.allocateBuffer constructor length maximum))
  | newBuffer prototype length maximum shared =>
      return .object (some (← Engine.newBuffer prototype length maximum shared))
  | maximumOption options => return .size (← E.maximumOption options)
  | detach o => do
      Engine.detach o
      return .done
  | detachUnchecked o => return .size (some (← Action.change (·.detachBuffer o)))
  | resizeBuffer o length => do
      Engine.resizeBuffer o length
      return .done
  | createBlock length => do
      Engine.createBlock length
      return .done
  | fillBuffer o position source => do
      modify (·.fillBuffer o position source)
      return .done
  | reserve bytes => do
      Action.settle
      return .reservation (← Action.attempt (·.reserve bytes))
  | moveReservation r bytes => do
      Action.settle
      Action.attempt fun w => (w.moveReservation r bytes).map fun w => ((), w)
      return .done
  | dropReservation r => do
      modify (·.dropReservation r)
      return .done
  | newScope kind => return .scope (← createScope kind)
  | hasBinding s name => return .flag (← E.hasBinding s name)
  | createMutable s name deletable => do
      Engine.createMutable s name deletable
      return .done
  | createImmutable s name strict => do
      Engine.createImmutable s name strict
      return .done
  | initBinding s name v => do
      E.initBinding s name v
      return .done
  | setBinding s name v strict => do
      E.setBinding s name v strict
      return .done
  | getBinding s name strict => return .value (← E.getBinding s name strict)
  | probeBinding s name strict => return .binding (← E.probeBinding s name strict)
  | deleteBinding s name => return .flag (← Engine.deleteBinding s name)
  | createGlobalVar s name deletable => do
      E.createGlobalVar s name deletable
      return .done
  | createGlobalFunction s name f deletable => do
      E.createGlobalFunction s name f deletable
      return .done
  | thisOf s => return .value (← Engine.thisOf s)
  | bindThis s v => do
      Engine.bindThis s v
      return .done
  | bindCallThis s mode v => do
      Engine.bindCallThis s mode v
      return .done
  | resolveThis => return .value (← Engine.resolveThis)
  | newModule source => return .module (← Action.change (·.addModule source))
  | readExport m name strict => return .value (← E.readExport m name strict)
  | createImport s source name exported => do
      Engine.createImport s source name exported
      return .done
  | reference s name strict => return .reference (← E.reference s name strict)
  | resolve name strict => return .reference (← E.resolve name strict)
  | getReference r => return .value (← E.getReference r)
  | putReference r v => do
      E.putReference r v
      return .done
  | probeName s name strict => return .probed (← E.probeName s name strict)
  | pushContext s f => do
      Engine.pushContext s f
      return .done
  | pushCall f newTarget => do
      Engine.pushContext (← newFunctionScope f newTarget) (some f)
      return .done
  | popContext => return .flag (← Engine.popContext)
  | newRealm =>
      Action.change fun w =>
        let (realm, w) := w.addRealm
        (.realm realm, { w with otherRealms := realm :: w.otherRealms })

/-- Carries out a request. -/
def perform (E : Engine σ) (r : Request) : Action σ Answer := (r.execute E).holding r.operands

end Request

end EcmaCore
