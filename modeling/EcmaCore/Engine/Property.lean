import EcmaCore.Engine.Basic

/-!
# Reading and writing properties

Reading a property looks along the prototype chain and runs the getter it
finds, if any; writing runs the setter it finds or else writes a data property
of the receiver. Everything else here defines, finds methods or decides which
constructor or prototype a new object gets.
-/

namespace EcmaCore.Engine

variable {σ : Type}

/-! ## Reading -/

/-- Reads a property of an object for a receiver. The property that was found is held on to
while its getter runs. -/
def getFor (E : Engine σ) (o : ObjectId) (key : PropertyKey) (receiver : Value) :
    Action σ Value := do
  match (← get).lookup o key with
  | none => return .undefined
  | some (.data v _ _ _) => return v
  | some (.accessor none _ _ _) => return .undefined
  | some (.accessor (some getter) setter _ _) =>
      (E.call getter receiver []).holding (.object getter :: setter.toList.map .object)

/-- Reads a property of an object. -/
def getProperty (E : Engine σ) (o : ObjectId) (key : PropertyKey) : Action σ Value :=
  E.getFor o key (.object o)

/-- The function in a property; none when the property is undefined or null. -/
def getMethod (E : Engine σ) (o : ObjectId) (key : PropertyKey) : Action σ (Option ObjectId) := do
  match ← E.getProperty o key with
  | .undefined | .null => return none
  | .object f =>
      if (← get).isCallable (.object f) then return some f
      else Action.fail (.methodNotFunction key.display)
  | _ => Action.fail (.methodNotFunction key.display)

/-! ## Defining -/

/-- Defines a property; a refusal is an error. -/
def defineOrFail (o : ObjectId) (key : PropertyKey) (update : PropertyUpdate) :
    Action σ Unit := do
  if ← Action.change (·.define o key update) then return ()
  else Action.fail (.definitionRejected key.display)

/-! ## Writing -/

/-- Writes a data property of a receiver that inherits no objection: replaces the value of its
own writable data property or adds an ordinary one. -/
def writeOwn (receiver : ObjectId) (key : PropertyKey) (v : Value) : Action σ Bool := do
  match (← get).own receiver key with
  | some (.accessor ..) => return false
  | some (.data _ false _ _) => return false
  | some (.data _ true _ _) => Action.change (·.define receiver key (.valueOnly v))
  | none => Action.change (·.define receiver key (.ordinary v))

/-- Writes a property of an object for a receiver and says whether the write took effect. The
property that was found is held on to while its setter runs. -/
def setFor (E : Engine σ) (o : ObjectId) (key : PropertyKey) (v receiver : Value) :
    Action σ Bool := do
  match (← get).lookup o key with
  | some (.accessor _ none _ _) => return false
  | some (.accessor getter (some setter) _ _) =>
      let _ ← (E.call setter receiver [v]).holding (.object setter :: getter.toList.map .object)
      return true
  | some (.data _ false _ _) => return false
  | some (.data _ true _ _) | none =>
      match receiver with
      | .object r => writeOwn r key v
      | _ => return false

/-- Writes a property of an object. When asked to, turns a refusal into an error. -/
def setProperty (E : Engine σ) (o : ObjectId) (key : PropertyKey) (v : Value) (mustSucceed : Bool) :
    Action σ Bool := do
  let success ← E.setFor o key v (.object o)
  if !success && mustSucceed then Action.fail (.readOnly key.display)
  else return success

/-! ## Calling values and choosing constructors -/

/-- Calls a value, which must be a function. -/
def callValue (E : Engine σ) (f this : Value) (args : List Value) : Action σ Value := do
  match f with
  | .object o =>
      if (← get).isCallable f then E.call o this args
      else Action.fail (.notFunction ((← get).display f))
  | _ => Action.fail (.notFunction ((← get).display f))

/-- Calls a method of an object by its key. The object and the arguments are held on to while the
method is looked up, and the method while it runs. -/
def invoke (E : Engine σ) (o : ObjectId) (key : PropertyKey) (args : List Value) :
    Action σ Value := do
  let method ← (E.getProperty o key).holding (.object o :: args.flatMap Value.entities)
  (E.callValue method (.object o) args).holding method.entities

/-- The constructor for objects derived from an object: what its `constructor` names as its
species, or the default. -/
def speciesConstructor (E : Engine σ) (o default : ObjectId) : Action σ ObjectId := do
  match ← E.getProperty o "constructor" with
  | .undefined => return default
  | .object c =>
      let species ← (E.getProperty c Symbol.species).holding [.object c]
      if species.isNullish then return default
      match species with
      | .object s =>
          if (← get).isConstructor species then return s
          else Action.fail .speciesNotConstructor
      | _ => Action.fail .speciesNotConstructor
  | _ => Action.fail .speciesHolderNotObject

/-- The prototype of the objects that a constructor makes: its `prototype` if that is an object,
and otherwise an intrinsic of the realm. -/
def prototypeFromConstructor (E : Engine σ) (constructor : ObjectId) (fallback : Intrinsic) :
    Action σ ObjectId := do
  match ← E.getProperty constructor "prototype" with
  | .object p => return p
  | _ => return (← get).realm.intrinsic fallback

/-- Creates a plain object. -/
def newObject (prototype : Option ObjectId) : Action σ ObjectId :=
  Action.change (·.addObject (.new prototype .plain))

/-- Creates a plain object for a constructor. -/
def newObjectFromConstructor (E : Engine σ) (constructor : ObjectId) (fallback : Intrinsic) :
    Action σ ObjectId := do
  newObject (some (← E.prototypeFromConstructor constructor fallback))

end EcmaCore.Engine
