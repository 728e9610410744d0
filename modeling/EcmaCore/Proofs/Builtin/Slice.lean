import EcmaCore.Builtin.ArrayBuffer
import EcmaCore.Proofs.Action
import EcmaCore.Proofs.Buffer
import EcmaCore.Proofs.World.Change

/-!
# Slices of array buffers

A slice runs other code four times between the reading of the receiver's length
and the copying of its bytes: to convert its two arguments, to find the species
constructor and to run it. That code may resize or detach the receiver, and the
constructor may return anything. Nothing is assumed here about any of it: the
engine that runs it is arbitrary.

`Engine.sliceCallouts` is the part of a slice that runs other code, with the range
that was asked for. What the slice does afterwards depends on the world which that
part leaves behind and on nothing else.

## Main results

* `relativeIndex_eq_clamp`: positions are clamped into the block.
* `bufferSlice_of_target`: with a fit result, the bytes of the range that the receiver
  still has are copied, and nothing else changes.
* `bufferSlice_of_not_target`: otherwise the slice is a type error that changes nothing.
* `bufferSlice_spec`: all of it together.
-/

namespace EcmaCore.Engine

variable {σ : Type}

/-! ## Positions -/

/-- A position of a block: a negative one counts from the end, and what lies outside is clamped.
Something that is not a number is the start. -/
def clampPosition (position : Double) (length : Nat) : Nat :=
  match position with
  | .nan => 0
  | .infinity true => 0
  | .infinity false => length
  | .finite negative magnitude =>
      let i := (Double.finite negative magnitude).toInt?.getD 0
      (max 0 (min (length : Int) (if i < 0 then length + i else i))).toNat

theorem clampPosition_le (position : Double) (length : Nat) :
    clampPosition position length ≤ length := by
  unfold clampPosition
  split
  · exact Nat.zero_le _
  · exact Nat.zero_le _
  · exact Nat.le_refl _
  · dsimp only
    omega

/-- Positions are clamped into the block. -/
theorem relativeIndex_eq_clamp (position : Double) (length : Nat) :
    relativeIndex position length = clampPosition position length := by
  cases position with
  | nan => rfl
  | infinity negative => cases negative <;> rfl
  | finite negative magnitude =>
      simp only [relativeIndex, clampPosition, Nat.min_eq_min]
      split <;> omega

/-! ## The calls of a slice -/

/-- The end of the range that is asked for: that of the block where no argument gives one. -/
def requestedEnd (E : Engine σ) (v : Value) (length : Nat) : Action σ Nat :=
  match v with
  | .undefined => pure length
  | v => (clampPosition · length) <$> E.toIntegerOrInfinity v

/-- What a slice of a block of `length` bytes does before it looks at the result: it converts
the arguments, finds the species constructor and runs it for the length of the range. The result
is the start of the range, its length, and what the constructor returned. -/
def sliceCallouts (E : Engine σ) (o : ObjectId) (args : List Value) (length : Nat) :
    Action σ (Nat × Nat × Value) := do
  let start ← E.toIntegerOrInfinity (args.getD 0 .undefined)
  let first := clampPosition start length
  let final ← E.requestedEnd (args.getD 1 .undefined) length
  let constructor ← E.speciesConstructor o (← get).realm.arrayBuffer
  let count := Value.ofSize (UInt64.ofNat (final - first))
  let result ← (E.construct constructor [count] constructor).holding [.object constructor]
  return (first, final - first, result)

/-- The end that is asked for lies in the block. -/
theorem requestedEnd_le {E : Engine σ} {v : Value} {length final : Nat} {w w' : World σ}
    (h : E.requestedEnd v length w = .ok final w') : final ≤ length := by
  unfold requestedEnd at h
  split at h
  · cases h
    exact Nat.le_refl _
  · rw [map_eq_pure_bind] at h
    obtain ⟨position, _, _, hrest⟩ := Action.bind_eq_ok.mp h
    cases hrest
    exact clampPosition_le position length

/-- The range that is asked for lies in the block. -/
theorem sliceCallouts_range {E : Engine σ} {o : ObjectId} {args : List Value} {length : Nat}
    {first count : Nat} {result : Value} {w w' : World σ}
    (h : E.sliceCallouts o args length w = .ok (first, count, result) w') :
    first + count ≤ length := by
  obtain ⟨start, _, _, h⟩ := Action.bind_eq_ok.mp h
  obtain ⟨final, _, hfinal, h⟩ := Action.bind_eq_ok.mp h
  obtain ⟨_, _, _, h⟩ := Action.bind_eq_ok.mp h
  obtain ⟨_, _, _, h⟩ := Action.bind_eq_ok.mp h
  obtain ⟨_, _, _, h⟩ := Action.bind_eq_ok.mp h
  cases h
  have hfirst := clampPosition_le start length
  have hlast := requestedEnd_le hfinal
  omega

theorem slicePosition_eq (E : Engine σ) (v : Value) (length : Nat) :
    E.slicePosition v length = (clampPosition · length) <$> E.toIntegerOrInfinity v := by
  rw [slicePosition, map_eq_pure_bind]
  simp only [relativeIndex_eq_clamp]

theorem sliceEnd_eq (E : Engine σ) (v : Value) (length : Nat) :
    E.sliceEnd v length = E.requestedEnd v length := by
  rw [sliceEnd]
  split
  next h =>
    cases v with
    | undefined => rfl
    | _ => cases h
  next h =>
    cases v with
    | undefined => exact absurd rfl h
    | _ => exact slicePosition_eq E _ length

/-- The calls of a slice in the terms of its own steps. -/
theorem sliceCallouts_eq (E : Engine σ) (o : ObjectId) (args : List Value) (length : Nat) :
    E.sliceCallouts o args length = (do
      let first ← E.slicePosition (args.getD 0 .undefined) length
      let final ← E.sliceEnd (args.getD 1 .undefined) length
      let result ← E.sliceResult o (final - first)
      return (first, final - first, result)) := by
  simp only [sliceCallouts, slicePosition_eq, sliceEnd_eq, sliceResult, bind_assoc,
    bind_map_left]

variable {E : Engine σ} {w w₁ : World σ} {o : ObjectId} {result : Value} {count : Nat}

/-- What a slice holds on to. -/
def operands (o : ObjectId) (args : List Value) : List Entity :=
  .object o :: args.flatMap Value.entities

theorem thisBuffer_apply {b : Buffer} (method : String) (hbuffer : w.buffer? o = some b)
    (hshared : b.shared = false) :
    thisBuffer (.object o) method w = .ok (o, b) w := by
  rw [thisBuffer, Action.bind_ok (Action.get_apply w)]
  simp only [hbuffer, hshared]
  rfl

/-- A slice makes its calls, checks the result, and copies, all of it with its operands held. -/
theorem bufferSlice_eq {b : Buffer} {bytes : List UInt8} (args : List Value)
    (hbuffer : w.buffer? o = some b) (hshared : b.shared = false)
    (hblock : b.block = some bytes) :
    E.bufferSlice (.object o) args w = (Action.holding (operands o args) do
      let (first, count, result) ← E.sliceCallouts o args bytes.length
      let new ← checkSlice o result count
      copySlice o new first count
      return .object new) w := by
  have hheld : { w with held := operands o args ++ w.held }.buffer? o = some b := hbuffer
  apply Action.holding_congr
  refine (Action.bind_ok (thisBuffer_apply "slice" hheld hshared)).trans ?_
  simp only [Buffer.isDetached_of_block hblock, Buffer.bytes_of_block hblock, sliceCallouts_eq,
    bind_assoc, pure_bind]
  rfl

/-! ## The check and the copy -/

/-- The result of a species constructor is fit for a slice of `count` bytes of `o`: it is another
buffer `new`, neither shared nor detached, with the bytes `old`, enough of them; and the receiver
still has a block, with the bytes `cur`. -/
structure SliceTarget (w : World σ) (o : ObjectId) (result : Value) (count : Nat) (new : ObjectId)
    (target : Buffer) (old cur : List UInt8) : Prop where
  result_eq : result = .object new
  buffer : w.buffer? new = some target
  unshared : target.shared = false
  block : target.block = some old
  distinct : new ≠ o
  enough : count ≤ old.length
  receiver : (w.buffer? o).bind (·.block) = some cur

theorem SliceTarget.check {new : ObjectId} {target : Buffer} {old cur : List UInt8}
    (h : SliceTarget w o result count new target old cur) :
    checkSlice o result count w = .ok new w := by
  have henough : ¬ target.bytes.length < count := by
    rw [Buffer.bytes_of_block h.block]
    exact Nat.not_lt.mpr h.enough
  rw [h.result_eq]
  show (get >>= _ : Action σ ObjectId) w = _
  rw [Action.bind_ok (Action.get_apply w)]
  simp only [h.buffer, h.unshared, Buffer.isDetached_of_block h.block, h.distinct, henough,
    if_false]
  rfl

/-- What the check lets through is fit for the slice if the receiver still has a block, and what
it does not let through is a type error. -/
theorem checkSlice_cases (w : World σ) (o : ObjectId) (result : Value) (count : Nat) :
    (∃ new, checkSlice o result count w = .ok new w ∧
      ∀ cur, (w.buffer? o).bind (·.block) = some cur →
        ∃ target old, SliceTarget w o result count new target old cur) ∨
    ∃ e, e.kind = .type ∧ checkSlice o result count w = .error (.thrown e) w := by
  cases result with
  | object new =>
      have hrun : checkSlice o (.object new) count w = _ := Action.bind_ok (Action.get_apply w)
      cases hbuffer : w.buffer? new with
      | none =>
          rw [hbuffer] at hrun
          exact .inr ⟨_, rfl, hrun⟩
      | some target =>
          rw [hbuffer] at hrun
          dsimp only at hrun
          split at hrun
          · exact .inr ⟨_, rfl, hrun⟩
          next hshared =>
          split at hrun
          · exact .inr ⟨_, rfl, hrun⟩
          next hdetached =>
          split at hrun
          · exact .inr ⟨_, rfl, hrun⟩
          next hdistinct =>
          split at hrun
          · exact .inr ⟨_, rfl, hrun⟩
          next henough =>
          obtain ⟨old, hold⟩ := Buffer.exists_block (Bool.eq_false_iff.mpr hdetached)
          rw [Buffer.bytes_of_block hold] at henough
          refine .inl ⟨new, hrun, fun cur hcur => ⟨target, old, ?_⟩⟩
          exact
            { result_eq := rfl
              buffer := hbuffer
              unshared := Bool.eq_false_iff.mpr hshared
              block := hold
              distinct := hdistinct
              enough := Nat.not_lt.mp henough
              receiver := hcur }
  | _ => exact .inr ⟨.speciesNotBuffer, rfl, rfl⟩

/-- The bytes of the result: the part of the range that the receiver still has, and then those
that were there. -/
def sliceBytes (cur old : List UInt8) (first count : Nat) : List UInt8 :=
  (cur.drop first).take count ++ old.drop (min count (cur.length - first))

theorem getElem?_sliceBytes (cur old : List UInt8) (first count i : Nat) :
    (sliceBytes cur old first count)[i]? =
      if i < min count (cur.length - first) then cur[first + i]? else old[i]? := by
  have hlength : ((cur.drop first).take count).length = min count (cur.length - first) := by
    rw [List.length_take, List.length_drop]
  rw [sliceBytes]
  split
  next hi =>
    rw [List.getElem?_append_left (by omega), List.getElem?_take_of_lt (by omega),
      List.getElem?_drop]
  next hi =>
    rw [List.getElem?_append_right (by omega), List.getElem?_drop, hlength]
    congr 1
    omega

/-- The world after a slice: only the bytes of the result are others. -/
def afterSlice (w : World σ) (new : ObjectId) (target : Buffer) (old cur : List UInt8)
    (first count : Nat) : World σ :=
  w.setBuffer new { target with block := some (sliceBytes cur old first count) }

theorem buffer?_afterSlice_self {new : ObjectId} {target : Buffer} {old cur : List UInt8}
    (h : w.buffer? new = some target) (first : Nat) :
    (afterSlice w new target old cur first count).buffer? new =
      some { target with block := some (sliceBytes cur old first count) } :=
  World.buffer?_setBuffer h _

theorem object_afterSlice_of_ne {new : ObjectId} {target : Buffer} {old cur : List UInt8}
    {other : ObjectId} (h : other ≠ new) (first : Nat) :
    (afterSlice w new target old cur first count).object other = w.object other :=
  World.object_setBuffer_of_ne h w _

theorem SliceTarget.copy {new : ObjectId} {target : Buffer} {old cur : List UInt8}
    (h : SliceTarget w o result count new target old cur) (first : Nat) :
    copySlice o new first count w = .ok () (afterSlice w new target old cur first count) := by
  have hbytes : Buffer.overwrite old 0 ((cur.drop first).take count) =
      sliceBytes cur old first count := by
    have hle := h.enough
    rw [Buffer.overwrite, sliceBytes, List.take_zero, List.nil_append, Nat.zero_add,
      List.take_of_length_le (by rw [List.length_take]; omega), List.length_take,
      List.length_drop]
  have hrun : copySlice o new first count w = _ := Action.bind_ok (Action.get_apply w)
  rw [h.receiver] at hrun
  refine hrun.trans ?_
  show EStateM.Result.ok () (w.fillBuffer new 0 ((cur.drop first).take count)) = _
  rw [World.fillBuffer, h.buffer, afterSlice, ← hbytes]
  dsimp only
  rw [h.block, Option.map_some]

theorem copySlice_detached {new : ObjectId} (first count : Nat)
    (h : (w.buffer? o).bind (·.block) = none) :
    copySlice o new first count w = .error (.thrown (.detachedReceiver "slice")) w := by
  have hrun : copySlice o new first count w = _ := Action.bind_ok (Action.get_apply w)
  rw [h] at hrun
  exact hrun

/-! ## The whole slice -/

section

variable {b : Buffer} {bytes : List UInt8} {first : Nat} (args : List Value)

/-- An error of the calls is the error of the slice. -/
theorem bufferSlice_of_error {e : Failure} (hbuffer : w.buffer? o = some b)
    (hshared : b.shared = false) (hblock : b.block = some bytes)
    (hrun : E.sliceCallouts o args bytes.length { w with held := operands o args ++ w.held } =
      .error e w₁) :
    E.bufferSlice (.object o) args w = .error e { w₁ with held := w.held } := by
  rw [bufferSlice_eq args hbuffer hshared hblock, Action.holding_apply, Action.bind_error hrun]

/-- With a fit result, the bytes of the range that the receiver still has are copied, and nothing
else changes. -/
theorem bufferSlice_of_target {new : ObjectId} {target : Buffer} {old cur : List UInt8}
    (hbuffer : w.buffer? o = some b) (hshared : b.shared = false) (hblock : b.block = some bytes)
    (hrun : E.sliceCallouts o args bytes.length { w with held := operands o args ++ w.held } =
      .ok (first, count, result) w₁)
    (h : SliceTarget w₁ o result count new target old cur) :
    E.bufferSlice (.object o) args w =
      .ok (.object new) { afterSlice w₁ new target old cur first count with held := w.held } := by
  rw [bufferSlice_eq args hbuffer hshared hblock, Action.holding_apply, Action.bind_ok hrun]
  dsimp only
  rw [Action.bind_ok h.check, Action.bind_ok (h.copy first), Action.pure_apply]

/-- Without a fit result, or without a block of the receiver, a slice is a type error that changes
nothing. -/
theorem bufferSlice_of_not_target (hbuffer : w.buffer? o = some b) (hshared : b.shared = false)
    (hblock : b.block = some bytes)
    (hrun : E.sliceCallouts o args bytes.length { w with held := operands o args ++ w.held } =
      .ok (first, count, result) w₁)
    (h : ∀ new target old cur, ¬ SliceTarget w₁ o result count new target old cur) :
    ∃ e, e.kind = .type ∧
      E.bufferSlice (.object o) args w = .error (.thrown e) { w₁ with held := w.held } := by
  rw [bufferSlice_eq args hbuffer hshared hblock, Action.holding_apply, Action.bind_ok hrun]
  dsimp only
  rcases checkSlice_cases w₁ o result count with ⟨new, hcheck, htarget⟩ | ⟨e, hkind, hcheck⟩
  · rw [Action.bind_ok hcheck]
    cases hcur : (w₁.buffer? o).bind (·.block) with
    | none =>
        rw [Action.bind_error (copySlice_detached first count hcur)]
        exact ⟨_, rfl, rfl⟩
    | some cur =>
        obtain ⟨target, old, hfit⟩ := htarget cur hcur
        exact absurd hfit (h new target old cur)
  · rw [Action.bind_error hcheck]
    exact ⟨e, hkind, rfl⟩

end

/-- **Slices under re-entrancy.** Whatever the code that a slice runs does and returns: an error
of that code is the error of the slice; a slice that succeeds returns another buffer, neither
shared nor detached, long enough, in which the bytes of the range that the receiver had left after
that code stand first, and everything else is as that code left it; and what fails the checks of
the slice is a type error that leaves everything so. -/
theorem bufferSlice_spec (E : Engine σ) (w : World σ) {o : ObjectId} {b : Buffer}
    {bytes : List UInt8} (args : List Value) (hbuffer : w.buffer? o = some b)
    (hshared : b.shared = false) (hblock : b.block = some bytes) :
    match E.sliceCallouts o args bytes.length { w with held := operands o args ++ w.held } with
    | .error e w₁ => E.bufferSlice (.object o) args w = .error e { w₁ with held := w.held }
    | .ok (first, count, result) w₁ => first + count ≤ bytes.length ∧
        ((∃ new target old cur written w', SliceTarget w₁ o result count new target old cur ∧
          E.bufferSlice (.object o) args w = .ok (.object new) w' ∧
          (∀ i, written[i]? =
            if i < min count (cur.length - first) then cur[first + i]? else old[i]?) ∧
          w'.buffer? new = some { target with block := some written } ∧
          w'.buffer? o = w₁.buffer? o ∧
          w' = { w₁.setBuffer new { target with block := some written } with held := w.held }) ∨
        (¬ ∃ new target old cur, SliceTarget w₁ o result count new target old cur) ∧
          ∃ e, e.kind = .type ∧
            E.bufferSlice (.object o) args w = .error (.thrown e) { w₁ with held := w.held }) := by
  cases hcalls : E.sliceCallouts o args bytes.length
      { w with held := operands o args ++ w.held } with
  | error e w₁ => exact bufferSlice_of_error args hbuffer hshared hblock hcalls
  | ok range w₁ =>
      obtain ⟨first, count, result⟩ := range
      refine ⟨sliceCallouts_range hcalls, ?_⟩
      by_cases h : ∃ new target old cur, SliceTarget w₁ o result count new target old cur
      · obtain ⟨new, target, old, cur, htarget⟩ := h
        refine .inl ⟨new, target, old, cur, sliceBytes cur old first count, _, htarget,
          bufferSlice_of_target args hbuffer hshared hblock hcalls htarget, ?_, ?_, ?_, rfl⟩
        · exact getElem?_sliceBytes cur old first count
        · exact buffer?_afterSlice_self htarget.buffer first
        · exact congrArg Object.buffer? (object_afterSlice_of_ne htarget.distinct.symm first)
      · refine .inr ⟨h, bufferSlice_of_not_target args hbuffer hshared hblock hcalls ?_⟩
        intro new target old cur ht
        exact h ⟨new, target, old, cur, ht⟩

/-- A species constructor shrinks the receiver to its first three bytes: of the four bytes from the
second on, the slice copies the two that are left. -/
theorem bufferSlice_of_shrunk_receiver :
    let shrink : Action Unit Value := do
      modify (·.setBuffer ⟨0⟩ ⟨some [10, 11, 12], some 6, false, none⟩)
      return .object (← Action.change (·.addObject (.new none (.buffer (.zeros 4 none false)))))
    let E : Engine Unit := { exhausted with construct := fun _ _ _ => shrink }
    let bytes : List UInt8 := [10, 11, 12, 13, 14, 15]
    let b : Buffer := ⟨some bytes, some 6, false, none⟩
    let w := ((World.empty none (.below 0) ()).addObject (.new none (.buffer b))).2
    ∃ w', E.bufferSlice (.object ⟨0⟩) [.ofSize 1, .ofSize 5] w = .ok (.object ⟨1⟩) w' ∧
      (w'.buffer? ⟨1⟩).map (·.bytes) = some [11, 12, 0, 0] := by
  intro shrink E bytes b w
  have hblock : b.block = some bytes := rfl
  have hspec := bufferSlice_spec E w (o := ⟨0⟩) [.ofSize 1, .ofSize 5] rfl rfl hblock
  have hcalls : (match E.sliceCallouts ⟨0⟩ [.ofSize 1, .ofSize 5] bytes.length
        { w with held := operands ⟨0⟩ [.ofSize 1, .ofSize 5] ++ w.held } with
      | .ok range w₁ => some (range, w₁.buffer? ⟨0⟩, w₁.buffer? ⟨1⟩)
      | .error .. => none) =
      some ((1, 4, .object ⟨1⟩), some ⟨some [10, 11, 12], some 6, false, none⟩,
        some (.zeros 4 none false)) := by
    decide +kernel
  cases hrun : E.sliceCallouts ⟨0⟩ [.ofSize 1, .ofSize 5] bytes.length
      { w with held := operands ⟨0⟩ [.ofSize 1, .ofSize 5] ++ w.held } with
  | error e w₁ =>
      rw [hrun] at hcalls
      cases hcalls
  | ok range w₁ =>
      rw [hrun] at hcalls hspec
      obtain ⟨rfl, hreceiver, hresult⟩ : range = (1, 4, .object ⟨1⟩) ∧ _ ∧ _ := by
        simpa only [Option.some.injEq, Prod.mk.injEq] using hcalls
      rcases hspec.2 with ⟨new, target, old, cur, written, w', h, hok, hwritten, hnew, _⟩ | hnone
      · cases h.result_eq
        cases hresult.symm.trans h.buffer
        cases h.block
        have hcur := h.receiver
        rw [hreceiver] at hcur
        cases hcur
        have hbytes : written = [11, 12, 0, 0] := by
          apply List.ext_getElem?
          intro i
          rw [hwritten]
          rcases i with _ | _ | _ | _ | i <;> rfl
        rw [hbytes] at hnew
        exact ⟨w', hok, by rw [hnew]; rfl⟩
      · refine absurd ⟨⟨1⟩, .zeros 4 none false, [0, 0, 0, 0], [10, 11, 12], ?_⟩ hnone.1
        exact ⟨rfl, hresult, rfl, rfl, by decide, by decide, by rw [hreceiver]; rfl⟩

end EcmaCore.Engine
