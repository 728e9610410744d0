import EcmaCore.Builtin.Dispatch
import EcmaCore.Proofs.Guarantee.Engine

/-!
# Guarantees of built-in functions

The methods of functions and of array buffers are put together from the
operations on objects, so they guarantee what those do.

## Main results

* `Guarantee.bufferSlice`, `Guarantee.functionBind`: the two methods that look at
  the world again after each step that may run user code.
* `Guarantee.callBuiltin`, `Guarantee.constructBuiltin`: every built-in behaviour.
-/

namespace EcmaCore.Guarantee

variable {σ : Type} [Embedding σ] {L : Licence} {R : World σ → World σ → Prop} {E : Engine σ}

/-! ## Methods of functions -/

theorem requireCallable (hR : Guarantee L R) (this : Value) (method : String) :
    (Engine.requireCallable this method : Action σ Unit).Guarantees R := by
  unfold Engine.requireCallable
  exact hR.look fun w => .ite (hR.pure _) (hR.fail _)

theorem argumentList (hR : Guarantee L R) (hE : E.Guarantees R) (list : Value) :
    (E.argumentList list).Guarantees R := by
  unfold Engine.argumentList
  exact .ite (hR.pure _) (hR.listFromArrayLike hE list)

theorem functionApply (hR : Guarantee L R) (hE : E.Guarantees R) (this : Value)
    (args : List Value) : (E.functionApply this args).Guarantees R := by
  unfold Engine.functionApply
  refine hR.bind (hR.requireCallable this _) fun _ => hR.holding _ ?_
  exact hR.bind (hR.argumentList hE _) fun passed => hR.callValue hE this _ passed

theorem functionCall (hR : Guarantee L R) (hE : E.Guarantees R) (this : Value)
    (args : List Value) : (E.functionCall this args).Guarantees R := by
  unfold Engine.functionCall
  refine hR.bind (hR.requireCallable this _) fun _ => ?_
  exact hR.holding _ (hR.callValue hE this _ _)

theorem getOwn (hR : Guarantee L R) (hE : E.Guarantees R) (o : ObjectId) (key : PropertyKey)
    (gathered : List Entity) : (E.getOwn o key gathered).Guarantees R := by
  unfold Engine.getOwn
  refine hR.look fun w => .ite ?_ (hR.pure _)
  exact hR.bind (hR.holding _ (hR.getProperty hE o key)) fun v => hR.pure _

theorem functionBind (hR : Guarantee L R) (hE : E.Guarantees R) (this : Value)
    (args : List Value) : (E.functionBind this args).Guarantees R := by
  unfold Engine.functionBind
  split
  · next target =>
    refine hR.bindOf (hR.boundFunction target _ _)
      (fun _ _ _ h => Engine.buffer?_boundFunction h) fun bound hbound => ?_
    refine hR.bind (hR.getOwn hE target _ _) fun targetLength => ?_
    refine hR.bind (hR.holding _ (hR.getProperty hE target _)) fun name => hR.look fun w => ?_
    refine hR.bind (hR.addObject ?_) fun f => hR.pure _
    simp only [Object.setFunctionName, Object.setFunctionLength, Object.buffer?_defineQuietly]
    exact hbound
  · exact hR.fail _

theorem functionToString (hR : Guarantee L R) (this : Value) :
    (Engine.functionToString this : Action σ Value).Guarantees R := by
  unfold Engine.functionToString
  refine hR.bind (hR.requireCallable this _) fun _ => ?_
  split
  · refine hR.look fun w => ?_
    dsimp only
    split <;> exact hR.pure _
  · exact hR.pure _

/-! ## Methods of array buffers -/

theorem constructBuffer (hR : Guarantee L R) (hE : E.Guarantees R) (args : List Value)
    (newTarget : ObjectId) : (E.constructBuffer args newTarget).Guarantees R := by
  unfold Engine.constructBuffer
  refine hR.holding _ (hR.bind (hR.toIndex hE _) fun length => ?_)
  refine hR.bind (hR.maximumOption hE _) fun maximum => ?_
  exact hR.bind (hR.allocateBuffer hE newTarget length maximum) fun o => hR.pure _

theorem thisBuffer (hR : Guarantee L R) (this : Value) (method : String) :
    (Engine.thisBuffer this method : Action σ (ObjectId × Buffer)).Guarantees R := by
  unfold Engine.thisBuffer
  refine hR.look fun w => ?_
  split
  · split
    · exact .ite (hR.fail _) (hR.pure _)
    · exact hR.fail _
  · exact hR.fail _

/-- A getter reads the buffer that it was called on and nothing else. -/
theorem bufferGetter (hR : Guarantee L R) (this : Value) (method : String)
    (f : ObjectId × Buffer → Value) :
    ((do let found ← Engine.thisBuffer this method; return f found) :
      Action σ Value).Guarantees R :=
  hR.bind (hR.thisBuffer this method) fun _ => hR.pure _

theorem bufferResize (hR : Guarantee L R) (hE : E.Guarantees R) (this : Value)
    (args : List Value) : (E.bufferResize this args).Guarantees R := by
  unfold Engine.bufferResize
  refine hR.holding _ (hR.bind (hR.thisBuffer this _) fun _ => ?_)
  refine hR.bind (hR.toIndex hE _) fun length => ?_
  refine hR.bind (hR.thisBuffer this _) fun _ => .ite (hR.fail _) ?_
  split
  · exact hR.fail _
  · exact .ite (hR.fail _) (hR.bind (hR.resizeBuffer _ length) fun _ => hR.pure _)

theorem copySlice (hR : Guarantee L R) (source target : ObjectId) (first count : Nat) :
    (Engine.copySlice source target first count : Action σ Unit).Guarantees R := by
  intro w
  unfold Engine.copySlice
  rw [Action.after, Action.bind_ok (Action.get_apply w)]
  cases (w.buffer? source).bind (·.block) with
  | none => exact hR.refl w
  | some bytes => exact hR.change (.fill target 0 _)

theorem checkSlice (hR : Guarantee L R) (source : ObjectId) (result : Value) (count : Nat) :
    (Engine.checkSlice source result count : Action σ ObjectId).Guarantees R := by
  unfold Engine.checkSlice
  split
  · refine hR.look fun w => ?_
    split
    · exact hR.fail _
    · exact .ite (hR.fail _) (.ite (hR.fail _) (.ite (hR.fail _) (.ite (hR.fail _) (hR.pure _))))
  · exact hR.fail _

theorem slicePosition (hR : Guarantee L R) (hE : E.Guarantees R) (v : Value) (length : Nat) :
    (E.slicePosition v length).Guarantees R := by
  unfold Engine.slicePosition
  exact hR.bind (hR.toIntegerOrInfinity hE v) fun position => hR.pure _

theorem sliceEnd (hR : Guarantee L R) (hE : E.Guarantees R) (v : Value) (length : Nat) :
    (E.sliceEnd v length).Guarantees R := by
  unfold Engine.sliceEnd
  exact .ite (hR.pure _) (hR.slicePosition hE v length)

theorem sliceResult (hR : Guarantee L R) (hE : E.Guarantees R) (source : ObjectId)
    (count : Nat) : (E.sliceResult source count).Guarantees R := by
  unfold Engine.sliceResult
  refine hR.look fun w => hR.bind (hR.speciesConstructor hE source _) fun constructor => ?_
  exact hR.holding _ (hE.construct _ _ _)

theorem bufferSlice (hR : Guarantee L R) (hE : E.Guarantees R) (this : Value)
    (args : List Value) : (E.bufferSlice this args).Guarantees R := by
  unfold Engine.bufferSlice
  refine hR.holding _ (hR.bind (hR.thisBuffer this _) fun _ => .ite (hR.fail _) ?_)
  refine hR.bind (hR.slicePosition hE _ _) fun first => ?_
  refine hR.bind (hR.sliceEnd hE _ _) fun final => ?_
  refine hR.bind (hR.sliceResult hE _ _) fun result => ?_
  refine hR.bind (hR.checkSlice _ result _) fun new => ?_
  exact hR.bind (hR.copySlice _ new _ _) fun _ => hR.pure _

/-! ## All built-in behaviours -/

theorem callBuiltin (hR : Guarantee L R) (hE : E.Guarantees R) (b : Builtin) (this : Value)
    (args : List Value) : (E.callBuiltin b this args).Guarantees R := by
  cases b with
  | functionPrototype | bufferSpecies => exact hR.pure _
  | throwTypeError | bufferConstructor => exact hR.fail _
  | functionApply => exact hR.functionApply hE this args
  | functionBind => exact hR.functionBind hE this args
  | functionCall => exact hR.functionCall hE this args
  | functionToString => exact hR.functionToString this
  | bufferByteLength | bufferDetached | bufferMaxByteLength | bufferResizable =>
      exact hR.bufferGetter this _ _
  | bufferResize => exact hR.bufferResize hE this args
  | bufferSlice => exact hR.bufferSlice hE this args

theorem constructBuiltin (hR : Guarantee L R) (hE : E.Guarantees R) (b : Builtin)
    (args : List Value) (newTarget : ObjectId) :
    (E.constructBuiltin b args newTarget).Guarantees R := by
  unfold Engine.constructBuiltin
  split
  · exact hR.constructBuffer hE args newTarget
  · exact hR.look fun w => hR.fail _

end EcmaCore.Guarantee
