import EcmaCore.Engine.Property
import EcmaCore.Number.Literal

/-!
# Converting values

Conversions of values to primitives, numbers, strings, property keys and
integers. Objects are converted through their own methods, so a conversion may
run user code; values that are not objects are converted without any.
-/

namespace EcmaCore

/-- Which primitive a conversion would prefer. -/
inductive Hint where
  | default
  | string
  | number
  deriving DecidableEq, Repr

/-- The text that tells a conversion method which primitive is preferred. -/
def Hint.text : Hint → String
  | .default => "default"
  | .string => "string"
  | .number => "number"

/-- The methods that ordinary objects convert themselves with, in the order of the hint. -/
def Hint.methodNames : Hint → List String
  | .string => ["toString", "valueOf"]
  | _ => ["valueOf", "toString"]

namespace Engine

variable {σ : Type}

/-- Calls methods in turn until one gives a primitive; what cannot be called is passed over. -/
def firstPrimitive (E : Engine σ) (o : ObjectId) : List String → Action σ Value
  | [] => Action.fail .notPrimitive
  | name :: names => do
      let method ← E.getProperty o name
      if (← get).isCallable method then
        match ← (E.callValue method (.object o) []).holding method.entities with
        | .object _ => E.firstPrimitive o names
        | result => return result
      else E.firstPrimitive o names

/-- Converts an object by the methods `valueOf` and `toString`. -/
def ordinaryToPrimitive (E : Engine σ) (o : ObjectId) (hint : Hint) : Action σ Value :=
  E.firstPrimitive o hint.methodNames

/-- Converts a value to one that is not an object: by the conversion method of the object if it
has one, and by its ordinary methods otherwise. -/
def toPrimitive (E : Engine σ) (v : Value) (hint : Hint) : Action σ Value := do
  match v with
  | .object o =>
      match ← E.getMethod o Symbol.toPrimitive with
      | some method =>
          let called := E.callValue (.object method) v [.string hint.text]
          match ← called.holding [.object method] with
          | .object _ => Action.fail .notPrimitive
          | result => return result
      | none => E.ordinaryToPrimitive o hint
  | _ => return v

/-- Converts a primitive to a number. An object, which is none, has no number. -/
def primitiveToNumber : Value → Except Error Double
  | .undefined => .ok .nan
  | .null => .ok .zero
  | .boolean b => .ok (if b then .ofNat 1 else .zero)
  | .string s => .ok (.ofText s)
  | .symbol s => .error (.symbolToNumber s.display)
  | .number n => .ok n.toDouble
  | .object _ => .error .notPrimitive

/-- Converts a value to a number. -/
def toNumber (E : Engine σ) (v : Value) : Action σ Double := do
  Action.ofExcept (primitiveToNumber (← E.toPrimitive v .number))

/-- Converts a primitive to a string. An object, which is none, has no string. -/
def primitiveToString : Value → Except Error String
  | .undefined => .ok "undefined"
  | .null => .ok "null"
  | .boolean b => .ok (if b then "true" else "false")
  | .string s => .ok s
  | .symbol s => .error (.symbolToString s.display)
  | .number n => .ok n.toDouble.toText
  | .object _ => .error .notPrimitive

/-- Converts a value to a string. -/
def toText (E : Engine σ) (v : Value) : Action σ String := do
  Action.ofExcept (primitiveToString (← E.toPrimitive v .string))

/-- Converts a value to a property key. -/
def toPropertyKey (E : Engine σ) (v : Value) : Action σ PropertyKey := do
  match ← E.toPrimitive v .string with
  | .symbol s => return .symbol s
  | primitive => return .text (← Action.ofExcept (primitiveToString primitive))

/-- Converts a value to an integer or an infinity. -/
def toIntegerOrInfinity (E : Engine σ) (v : Value) : Action σ Double := do
  return (← E.toNumber v).integerPart

/-- Converts a value to an index below `2 ^ 53`; undefined is zero. -/
def toIndex (E : Engine σ) (v : Value) : Action σ UInt64 := do
  if v.isUndefined then return 0
  let integer ← E.toIntegerOrInfinity v
  match integer.index? with
  | some index => return index
  | none => Action.fail (.invalidIndex integer.toText)

/-- Converts a value to an integer modulo `2 ^ 32`. -/
def toWord (E : Engine σ) (v : Value) : Action σ UInt32 := do
  return (← E.toNumber v).word

/-- The elements of an array-like object from a position on, as many as are left, after those
that were read before, last first. `gathered` is what those refer to; it is held on to while
getters run. -/
def elementsFrom (E : Engine σ) (o : ObjectId) (position : Nat) (read : List Value)
    (gathered : List Entity) : Nat → Action σ (List Value)
  | 0 => return read.reverse
  | left + 1 => do
      let v ← (E.getProperty o (.ofIndex position)).holding gathered
      E.elementsFrom o (position + 1) (v :: read) (v.entities ++ gathered) left

/-- The elements of an array-like object: its length modulo `2 ^ 32`, then each position. The
length as it was read is held on to throughout. -/
def listFromArrayLike (E : Engine σ) (v : Value) : Action σ (List Value) := do
  match v with
  | .object o =>
      let length ← E.getProperty o "length"
      Action.holding length.entities do
        E.elementsFrom o 0 [] [] (← E.toWord length).toNat
  | _ => Action.fail .listFromNonObject

end Engine

end EcmaCore
