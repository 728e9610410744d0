import EcmaCore.Engine.Convert
import EcmaCore.Engine.Function

/-!
# The methods of functions

`apply`, `bind`, `call` and `toString`, which every function inherits. All of
them check that they were called on a function before anything else.
-/

namespace EcmaCore.Engine

variable {σ : Type}

/-- Fails unless a method of functions was called on a function. -/
def requireCallable (this : Value) (method : String) : Action σ Unit := do
  let w ← get
  if w.isCallable this then return ()
  else Action.fail (.receiverNotFunction method (w.display this))

/-- The arguments in an array-like object; none for undefined and null. -/
def argumentList (E : Engine σ) (list : Value) : Action σ (List Value) :=
  if list.isNullish then return [] else E.listFromArrayLike list

/-- Calls the receiver with the elements of an array-like object as arguments. The arguments of
`apply` itself are held on to until the call is over. -/
def functionApply (E : Engine σ) (this : Value) (args : List Value) : Action σ Value := do
  requireCallable this "apply"
  Action.holding ((this :: args).flatMap Value.entities) do
    let passed ← E.argumentList (args.getD 1 .undefined)
    E.callValue this (args.getD 0 .undefined) passed

/-- Calls the receiver with the remaining arguments, which are handed on. -/
def functionCall (E : Engine σ) (this : Value) (args : List Value) : Action σ Value := do
  requireCallable this "call"
  (E.callValue this (args.getD 0 .undefined) (args.drop 1)).holding this.entities

/-- The length of a bound function: what is left of the target's own numeric length, at least
zero. -/
def boundLength (targetLength : Option Value) (argCount : Nat) : Double :=
  match targetLength with
  | some (.number n) =>
      match n.toDouble with
      | .infinity false => .infinity false
      | .infinity true => .zero
      | x => (x.integerPart.sub (.ofNat argCount)).max .zero
  | _ => .zero

/-- The accessor property that fails on every use, made of the function that always throws. -/
def poisoned (thrower : ObjectId) : PropertyUpdate :=
  .full (.accessor (some thrower) (some thrower) false false)

/-- Reads a property of an object if it is one of its own, with `gathered` held on to. -/
def getOwn (E : Engine σ) (o : ObjectId) (key : PropertyKey) (gathered : List Entity) :
    Action σ (Option Value) := do
  if (← get).hasOwn o key then return some (← (E.getProperty o key).holding gathered)
  else return none

/-- Creates a function that calls the receiver with its `this` and first arguments fixed. The
receiver and the new function are held on to while the receiver is asked for its length and
name. -/
def functionBind (E : Engine σ) (this : Value) (args : List Value) : Action σ Value := do
  match this with
  | .object target =>
      let bound ← boundFunction target (args.getD 0 .undefined) (args.drop 1)
      let gathered := Entity.object target :: bound.entities
      let targetLength ← E.getOwn target "length" gathered
      let bound := bound.setFunctionLength (.ofDouble (boundLength targetLength (args.length - 1)))
      let name :=
        match ← (E.getProperty target "name").holding gathered with
        | .string s => s
        | _ => ""
      let bound := bound.setFunctionName (.text name) "bound"
      let poison := poisoned (← get).realm.throwTypeError
      let bound := (bound.defineQuietly "caller" poison).defineQuietly "callee" poison
      return .object (← Action.change (·.addObject bound))
  | _ => Action.fail .bindTarget

/-- The source of a function: its text if it has one, and otherwise a stand-in with its name. -/
def functionToString (this : Value) : Action σ Value := do
  requireCallable this "toString"
  match this with
  | .object o =>
      let f := (← get).object o
      match f.function? with
      | some (.ordinary { source := some source, .. }) => return .string source
      | _ => return .string ("function " ++ f.functionName ++ "() \x7b [native code] \x7d")
  | _ => return .undefined

end EcmaCore.Engine
