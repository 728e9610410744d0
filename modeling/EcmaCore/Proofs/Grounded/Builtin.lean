import EcmaCore.Builtin.Dispatch
import EcmaCore.Proofs.Grounded.Engine

/-!
# Grounded built-in functions

The methods of functions and of array buffers are put together from the operations on objects, so
they are grounded if their receiver and their arguments are.

## Main results

* `Grounded.functionBind`: a bound function inherits from the prototype of its target and names
  its target, its `this`, its arguments and the function that always throws.
* `Grounded.bufferSlice`: the object that a species constructor returns.
* `Grounded.callBuiltin`, `Grounded.constructBuiltin`: every built-in behaviour.
-/

namespace EcmaCore.Grounded

variable {σ : Type} [Embedding σ] {E : Engine σ} {n : Nat} {this : Value} {args : List Value}

/-! ## Methods of functions -/

theorem requireCallable (this : Value) (method : String) :
    (Engine.requireCallable this method : Action σ Unit).Grounded n fun _ => [] := by
  unfold Engine.requireCallable
  exact .look fun w _ _ => .ite (.pure (Nat.zero_le _)) (.fail _)

theorem argumentList (hE : E.Grounded) {list : Value} (h : extent list.entities ≤ n) :
    (E.argumentList list).Grounded n (·.flatMap Value.entities) := by
  unfold Engine.argumentList
  exact .ite (.pure (Nat.zero_le n)) (listFromArrayLike hE h)

theorem functionApply (hE : E.Grounded) (hargs : extent (args.flatMap Value.entities) ≤ n) :
    (E.functionApply this args).Grounded n Value.entities := by
  unfold Engine.functionApply
  refine (requireCallable this _).bind fun _ m hm _ => .holding _ ?_
  have hgiven (i : Nat) := Nat.le_trans (extent_getD_le hargs i) hm
  exact (argumentList hE (hgiven 1)).bind fun passed k hk hpassed =>
    callValue hE this (Nat.le_trans (hgiven 0) hk) hpassed

theorem functionCall (hE : E.Grounded) (hargs : extent (args.flatMap Value.entities) ≤ n) :
    (E.functionCall this args).Grounded n Value.entities := by
  unfold Engine.functionCall
  refine (requireCallable this _).bind fun _ m hm _ => .holding _ ?_
  exact callValue hE this (Nat.le_trans (extent_getD_le hargs 0) hm)
    (Nat.le_trans (extent_drop_le hargs 1) hm)

theorem getOwn (hE : E.Grounded) {o : ObjectId} (ho : o.index < n) (key : PropertyKey)
    (gathered : List Entity) :
    (E.getOwn o key gathered).Grounded n fun v => (v.map Value.entities).getD [] := by
  unfold Engine.getOwn
  refine .look fun w _ hn => .ite ?_ (.pure (Nat.zero_le _))
  exact ((getProperty hE (Nat.lt_of_lt_of_le ho hn) key).holding _).bind fun v m _ hv => .pure hv

theorem functionBind (hE : E.Grounded) (hthis : extent this.entities ≤ n)
    (hargs : extent (args.flatMap Value.entities) ≤ n) :
    (E.functionBind this args).Grounded n Value.entities := by
  unfold Engine.functionBind
  split
  · next target =>
    have htarget : target.index < n := extent_object_le_iff.1 hthis
    refine (boundFunction target htarget (extent_getD_le hargs 0) (extent_drop_le hargs 1)).bindOf
      (fun _ _ _ h => Engine.buffer?_boundFunction h) fun bound m hbuffer hm hbound => ?_
    refine (getOwn hE (by omega) _ _).bind fun targetLength k hk _ => ?_
    refine ((getProperty hE (by omega) _).holding _).bind fun name l hl _ => ?_
    refine .look fun w hw hn => ?_
    have hpoison : extent (Engine.poisoned w.realm.throwTypeError).carried.entities ≤
        w.objects.size :=
      extent_objects_le_iff.2 fun o ho => by
        have heq : o = w.realm.throwTypeError := by simpa using ho
        rw [heq]
        exact hw.intrinsic .throwTypeError
    refine (addObject ?_ ?_).bind fun f _ _ hf => .pure hf
    · simp only [Object.setFunctionName, Object.setFunctionLength, Object.buffer?_defineQuietly]
      exact hbuffer
    · refine Object.extent_defineQuietly_le (Object.extent_defineQuietly_le ?_ hpoison) hpoison
      refine Object.extent_setFunctionName_le _ _ (Object.extent_setFunctionLength_le _ ?_)
      omega
  · exact .fail _

theorem functionToString (this : Value) :
    (Engine.functionToString this : Action σ Value).Grounded n Value.entities := by
  unfold Engine.functionToString
  refine (requireCallable this _).bind fun _ m _ _ => ?_
  split
  · refine .look fun w _ _ => ?_
    dsimp only
    split <;> exact .pure (Nat.zero_le _)
  · exact .pure (Nat.zero_le m)

/-! ## Methods of array buffers -/

theorem constructBuffer (hE : E.Grounded) (hargs : extent (args.flatMap Value.entities) ≤ n)
    {newTarget : ObjectId} (hnewTarget : newTarget.index < n) :
    (E.constructBuffer args newTarget).Grounded n Value.entities := by
  unfold Engine.constructBuffer
  refine .holding _ ((toIndex hE (extent_getD_le hargs 0)).bind fun length m hm _ => ?_)
  refine (maximumOption hE (Nat.le_trans (extent_getD_le hargs 1) hm)).bind fun maximum k hk _ => ?_
  exact (allocateBuffer hE (by omega) length maximum).bind fun o _ _ ho => .pure ho

theorem thisBuffer (hthis : extent this.entities ≤ n) (method : String) :
    (Engine.thisBuffer this method : Action σ (ObjectId × Buffer)).Grounded n
      fun found => [.object found.1] := by
  unfold Engine.thisBuffer
  refine .look fun w _ hn => ?_
  split
  · split
    · exact .ite (.fail _) (.pure (Nat.le_trans hthis hn))
    · exact .fail _
  · exact .fail _

/-- A getter tells no object. -/
theorem bufferGetter (hthis : extent this.entities ≤ n) (method : String)
    {f : ObjectId × Buffer → Value} (hf : ∀ found, (f found).entities = []) :
    ((do let found ← Engine.thisBuffer this method; return f found) :
      Action σ Value).Grounded n Value.entities := by
  refine (thisBuffer hthis method).bind fun found m _ _ => .pure ?_
  rw [hf]
  exact Nat.zero_le m

theorem bufferResize (hE : E.Grounded) (hthis : extent this.entities ≤ n)
    (hargs : extent (args.flatMap Value.entities) ≤ n) :
    (E.bufferResize this args).Grounded n Value.entities := by
  unfold Engine.bufferResize
  refine .holding _ ((thisBuffer hthis _).bind fun _ m hm _ => ?_)
  refine (toIndex hE (Nat.le_trans (extent_getD_le hargs 0) hm)).bind fun length k hk _ => ?_
  refine (thisBuffer (by omega) _).bind fun _ l _ _ => .ite (.fail _) ?_
  split
  · exact .fail _
  · exact .ite (.fail _) ((resizeBuffer _ length).bind fun _ j _ _ => .pure (Nat.zero_le j))

theorem copySlice (source target : ObjectId) (first count : Nat) :
    (Engine.copySlice source target first count : Action σ Unit).Grounded n fun _ => [] := by
  refine fun w hw _ => ⟨?_, fun _ _ _ => Nat.zero_le _⟩
  unfold Engine.copySlice
  rw [Action.after, Action.bind_ok (Action.get_apply w)]
  cases (w.buffer? source).bind (·.block) with
  | none => exact .refl
  | some bytes => exact World.Change.develops (.fill target 0 _) (hw.fillBuffer target 0 _)

theorem checkSlice (source : ObjectId) {result : Value} (h : extent result.entities ≤ n)
    (count : Nat) :
    (Engine.checkSlice source result count : Action σ ObjectId).Grounded n
      fun o => [.object o] := by
  unfold Engine.checkSlice
  split
  · refine .look fun w _ hn => ?_
    split
    · exact .fail _
    · exact .ite (.fail _) (.ite (.fail _) (.ite (.fail _) (.ite (.fail _)
        (.pure (Nat.le_trans h hn)))))
  · exact .fail _

theorem slicePosition (hE : E.Grounded) {v : Value} (hv : extent v.entities ≤ n) (length : Nat) :
    (E.slicePosition v length).Grounded n fun _ => [] := by
  unfold Engine.slicePosition
  exact (toIntegerOrInfinity hE hv).bind fun _ m _ _ => .pure (Nat.zero_le m)

theorem sliceEnd (hE : E.Grounded) {v : Value} (hv : extent v.entities ≤ n) (length : Nat) :
    (E.sliceEnd v length).Grounded n fun _ => [] := by
  unfold Engine.sliceEnd
  exact .ite (.pure (Nat.zero_le n)) (slicePosition hE hv length)

theorem sliceResult (hE : E.Grounded) {source : ObjectId} (hsource : source.index < n)
    (count : Nat) : (E.sliceResult source count).Grounded n Value.entities := by
  unfold Engine.sliceResult
  refine .look fun w hw hn => ?_
  refine (speciesConstructor hE (Nat.lt_of_lt_of_le hsource hn)
    (hw.intrinsic .arrayBuffer)).bind fun constructor m _ h => .holding _ ?_
  exact hE.construct _ (Nat.zero_le m) (extent_object_le_iff.1 h)

theorem bufferSlice (hE : E.Grounded) (hthis : extent this.entities ≤ n)
    (hargs : extent (args.flatMap Value.entities) ≤ n) :
    (E.bufferSlice this args).Grounded n Value.entities := by
  unfold Engine.bufferSlice
  refine .holding _ ((thisBuffer hthis _).bind fun found m hm hfound => .ite (.fail _) ?_)
  have hsource := extent_object_le_iff.1 hfound
  have hgiven (i : Nat) := Nat.le_trans (extent_getD_le hargs i) hm
  refine (slicePosition hE (hgiven 0) _).bind fun first k hk _ => ?_
  refine (sliceEnd hE (Nat.le_trans (hgiven 1) hk) _).bind fun final l hl _ => ?_
  refine (sliceResult hE (by omega) _).bind fun result i _ hresult => ?_
  refine (checkSlice _ hresult _).bind fun new j _ hnew => ?_
  exact (copySlice _ new _ _).bind fun _ _ hle _ => .pure (Nat.le_trans hnew hle)

/-! ## All built-in behaviours -/

theorem callBuiltin (hE : E.Grounded) (b : Builtin) (hthis : extent this.entities ≤ n)
    (hargs : extent (args.flatMap Value.entities) ≤ n) :
    (E.callBuiltin b this args).Grounded n Value.entities := by
  cases b with
  | functionPrototype => exact .pure (Nat.zero_le n)
  | throwTypeError | bufferConstructor => exact .fail _
  | functionApply => exact functionApply hE hargs
  | functionBind => exact functionBind hE hthis hargs
  | functionCall => exact functionCall hE hargs
  | functionToString => exact functionToString this
  | bufferByteLength | bufferDetached | bufferMaxByteLength | bufferResizable =>
      exact bufferGetter hthis _ fun _ => rfl
  | bufferResize => exact bufferResize hE hthis hargs
  | bufferSlice => exact bufferSlice hE hthis hargs
  | bufferSpecies => exact .pure hthis

theorem constructBuiltin (hE : E.Grounded) (b : Builtin)
    (hargs : extent (args.flatMap Value.entities) ≤ n) {newTarget : ObjectId}
    (hnewTarget : newTarget.index < n) :
    (E.constructBuiltin b args newTarget).Grounded n Value.entities := by
  unfold Engine.constructBuiltin
  split
  · exact constructBuffer hE hargs hnewTarget
  · exact .look fun w _ _ => .fail _

end EcmaCore.Grounded
