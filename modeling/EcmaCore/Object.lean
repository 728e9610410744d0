import EcmaCore.Buffer
import EcmaCore.Function
import EcmaCore.Property
import EcmaCore.Table

/-!
# Objects

An object has a prototype, a table of properties, a flag that says whether it
may gain properties, and a nature: plain, function or array buffer. Prototype
and nature are given at creation.

All changes of properties go through `Object.define` and `Object.delete`.
-/

namespace EcmaCore

/-- What an object is besides a table of properties. -/
inductive Nature where
  | plain
  | function (f : Function)
  | buffer (b : Buffer)
  deriving DecidableEq

/-- An object. -/
structure Object where
  prototype : Option ObjectId
  extensible : Bool
  properties : Table PropertyKey Property
  nature : Nature
  deriving DecidableEq

namespace Object

/-- A new object without properties. -/
def new (prototype : Option ObjectId) (nature : Nature) : Object :=
  { prototype, nature, extensible := true, properties := .empty }

instance : Inhabited Object := ⟨new none .plain⟩

/-- The own property of a key. -/
def own (o : Object) (key : PropertyKey) : Option Property := o.properties.get? key

/-- The function that an object is, if it is one. -/
def function? (o : Object) : Option Function :=
  match o.nature with
  | .function f => some f
  | _ => none

/-- The buffer that an object is, if it is one. -/
def buffer? (o : Object) : Option Buffer :=
  match o.nature with
  | .buffer b => some b
  | _ => none

/-- Whether an object can be called. -/
def isCallable (o : Object) : Bool := o.function?.isSome

/-! ## Defining and deleting properties -/

/-- Redefines or adds a property. Absent when the object does not admit it: a property can only
be added to an extensible object and only be redefined as `PropertyUpdate.allowedOn` says. -/
def define (o : Object) (key : PropertyKey) (update : PropertyUpdate) : Option Object :=
  match o.own key with
  | none =>
      if o.extensible then
        some { o with properties := o.properties.insert key (update.applyTo none) }
      else none
  | some current =>
      if update.isEmpty then some o
      else if update.allowedOn current then
        some { o with properties := o.properties.insert key (update.applyTo (some current)) }
      else none

/-- Defines a property where a refusal does not matter. -/
def defineQuietly (o : Object) (key : PropertyKey) (update : PropertyUpdate) : Object :=
  (o.define key update).getD o

/-- Removes a property. Absent when it is there and not configurable. -/
def delete (o : Object) (key : PropertyKey) : Option Object :=
  match o.own key with
  | none => some o
  | some p => if p.configurable then some { o with properties := o.properties.erase key } else none

/-- Forbids new properties. -/
def preventExtensions (o : Object) : Object := { o with extensible := false }

/-! ## Names and texts -/

/-- The text in the own data property `name`; empty when there is none. -/
def functionName (o : Object) : String :=
  match o.own "name" with
  | some (.data (.string s) _ _ _) => s
  | _ => ""

/-- Gives a function its length. -/
def setFunctionLength (o : Object) (length : Number) : Object :=
  o.defineQuietly "length" (.full (.data (.number length) false false true))

/-- Gives a function its name, taken from a key, perhaps behind a word that qualifies it. -/
def setFunctionName (o : Object) (key : PropertyKey) (qualifier : Option String) : Object :=
  let name :=
    match qualifier with
    | none => key.functionName
    | some word => word ++ " " ++ key.functionName
  o.defineQuietly "name" (.full (.data (.string name) false false true))

/-- An object in messages: `object`, `function` and its name, or `ArrayBuffer` and its
length. -/
def display (o : Object) : String :=
  match o.nature with
  | .plain => "object"
  | .function _ => "function " ++ o.functionName
  | .buffer b => "ArrayBuffer(" ++ Error.sizeText b.length ++ ")"

end Object

end EcmaCore
