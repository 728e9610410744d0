import EcmaCore.Proofs.Builtin.Slice
import EcmaCore.Proofs.Double
import EcmaCore.Proofs.World.Buffers
import EcmaCore.Proofs.World.Reaches

/-!
# Answers of array buffers

What the getters of a buffer answer, and what a resize or a slice of it has found where it
ends well. Both look at the buffer for the last time after all the code that they run, so
a buffer of which they end well still has its block in the end.

## Main results

* `Buffer.Fits.proper`, `Buffer.Continues.reading`: the answers of the getters, at one time
  and later.
* `Engine.bufferResize_eq_ok`, `Engine.bufferSlice_eq_ok`: what a resize and a slice that
  end well have found and done.
* `Engine.EndsWell.attached`: the buffer still has its block then.
-/

namespace EcmaCore

variable {σ : Type}

/-! ## Readings -/

namespace Buffer

/-- The bytes after a resize: those that were there as far as they fit, and zeros. -/
theorem getElem?_fit (bytes : List UInt8) (length i : Nat) :
    (fit bytes length)[i]? =
      if i < length then some (bytes.getD i 0) else none := by
  rw [fit]
  by_cases hi : i < bytes.length
  · by_cases hlength : i < length
    · rw [if_pos hlength, List.getElem?_append_left (by rw [List.length_take]; omega),
        List.getElem?_take_of_lt hlength, List.getD_eq_getElem?_getD, List.getElem?_eq_getElem hi]
      rfl
    · rw [if_neg hlength, List.getElem?_eq_none]
      rw [List.length_append, List.length_take, List.length_replicate]
      omega
  · rw [List.getElem?_append_right (by rw [List.length_take]; omega), List.getElem?_replicate,
      List.length_take, List.getD_eq_getElem?_getD, List.getElem?_eq_none (Nat.not_lt.1 hi)]
    by_cases hlength : i < length
    · rw [if_pos hlength, if_pos (by omega)]
      rfl
    · rw [if_neg hlength, if_neg (by omega)]

/-- Bytes were cut or filled up to a length: what both have in common stays, what is new is zero. -/
structure Refitted (before after : List UInt8) (length : Nat) : Prop where
  length_eq : after.length = length
  common : ∀ i, i < before.length → i < length → after[i]? = before[i]?
  zeros : ∀ i, before.length ≤ i → i < length → after[i]? = some 0

theorem refitted_fit (bytes : List UInt8) (length : Nat) :
    Refitted bytes (fit bytes length) length where
  length_eq := length_fit bytes length
  common i hi hlength := by
    rw [getElem?_fit, if_pos hlength, List.getD_eq_getElem?_getD, List.getElem?_eq_getElem hi]
    rfl
  zeros i hi hlength := by
    rw [getElem?_fit, if_pos hlength, List.getD_eq_getElem?_getD, List.getElem?_eq_none hi]
    rfl

/-- The bytes before and the length determine those after. -/
theorem Refitted.eq_fit {before after : List UInt8} {length : Nat}
    (h : Refitted before after length) : after = fit before length := by
  have hfit := refitted_fit before length
  refine List.ext_getElem? fun i => ?_
  by_cases hlength : i < length
  · by_cases hi : i < before.length
    · rw [h.common i hi hlength, hfit.common i hi hlength]
    · rw [h.zeros i (Nat.not_lt.1 hi) hlength, hfit.zeros i (Nat.not_lt.1 hi) hlength]
  · rw [List.getElem?_eq_none (by rw [h.length_eq]; omega),
      List.getElem?_eq_none (by rw [hfit.length_eq]; omega)]

/-- What the getters of a buffer answer. -/
structure Reading where
  byteLength : UInt64
  maxByteLength : UInt64
  resizable : Bool
  detached : Bool

/-- The reading of a detached buffer. -/
def Reading.ofDetached (resizable : Bool) : Reading := ⟨0, 0, resizable, true⟩

/-- The length is at most the maximum, also as Numbers. Both are zero in a detached buffer. -/
structure Reading.Proper (r : Reading) : Prop where
  bounded : r.byteLength ≤ r.maxByteLength
  notLess :
    (Number.ofSize r.maxByteLength).toDouble.lt (Number.ofSize r.byteLength).toDouble = false
  detached : r.detached = true → r = .ofDetached r.resizable

/-- A reading is a later one of the same buffer. -/
structure Reading.Continues (r r' : Reading) : Prop where
  resizable : r'.resizable = r.resizable
  maximum : r'.detached = false → r'.maxByteLength = r.maxByteLength
  fixed : r.resizable = false → r'.detached = false → r'.byteLength = r.byteLength
  detached : r.detached = true → r'.detached = true

/-- The reading of a buffer. -/
def reading (b : Buffer) : Reading where
  byteLength := b.length
  maxByteLength := if b.isDetached then 0 else b.maximum.getD b.length
  resizable := !b.isFixed
  detached := b.isDetached

variable {b b' : Buffer}

theorem length_of_detached (h : b.isDetached = true) : b.length = 0 := by
  have hblock : b.block = none := Option.isNone_iff_eq_none.1 h
  rw [length, bytes, hblock]
  rfl

theorem reading_of_detached (h : b.isDetached = true) : b.reading = .ofDetached (!b.isFixed) := by
  rw [reading, h, length_of_detached h]
  rfl

/-- The reading of a new buffer. -/
theorem reading_zeros (length : UInt64) (maximum reserved : Option UInt64) (shared : Bool) :
    { zeros length maximum shared with reserved }.reading =
      ⟨length, maximum.getD length, maximum.isSome, false⟩ := by
  have hlength : { zeros length maximum shared with reserved }.length = length := by
    show UInt64.ofNat (List.replicate length.toNat (0 : UInt8)).length = length
    rw [List.length_replicate, UInt64.ofNat_toNat]
  rw [reading, hlength]
  cases maximum <;> rfl

/-- The reading of a buffer whose bytes fit is a proper one. -/
theorem Fits.proper (h : b.Fits) : b.reading.Proper := by
  have hbounded : b.reading.byteLength ≤ b.reading.maxByteLength := by
    unfold reading
    dsimp only
    split
    · next hdetached => exact UInt64.le_of_eq (length_of_detached hdetached)
    · cases hmaximum : b.maximum with
      | none => exact UInt64.le_refl _
      | some m =>
          rw [Option.getD_some, UInt64.le_iff_toNat_le, length, UInt64.toNat_ofNat_of_lt' h.counted]
          exact h.bounded m hmaximum
  exact ⟨hbounded, Number.ofSize_mono hbounded, reading_of_detached⟩

/-- Later in the life of a buffer, its reading is a later one. -/
theorem Continues.reading (h : b.Continues b') : b.reading.Continues b'.reading := by
  have hfixed : b'.isFixed = b.isFixed := by rw [isFixed, isFixed, h.maximum]
  have hattached (hattached' : b'.isDetached = false) : b.isDetached = false := by
    rw [← Bool.not_eq_true] at hattached' ⊢
    exact fun hdetached => hattached' (h.detached hdetached)
  have hlength (hf : b.isFixed = true) (ha : b'.isDetached = false) : b'.length = b.length := by
    rw [length, length, h.fixed hf ha]
  refine ⟨congrArg not hfixed, fun ha => ?_,
    fun hf ha => hlength (by simpa [Buffer.reading] using hf) ha, h.detached⟩
  show (if b'.isDetached then 0 else b'.maximum.getD b'.length) =
    (if b.isDetached then 0 else b.maximum.getD b.length)
  have ha' : b'.isDetached = false := ha
  rw [ha', hattached ha', h.maximum]
  cases hmaximum : b.maximum with
  | some m => rfl
  | none => exact hlength (by rw [isFixed, hmaximum]; rfl) ha

end Buffer

namespace World

/-- The bytes of an object that is a buffer with a block. -/
def blockOf (w : World σ) (o : ObjectId) : Option (List UInt8) := (w.buffer? o).bind (·.block)

/-- The getters of a buffer answer so, and change nothing. What they answer of the length and of
whether there is a block is true. -/
structure Reads (w : World σ) (o : ObjectId) (r : Buffer.Reading) : Prop where
  byteLength : Engine.bufferByteLength (.object o) w = .ok (.ofSize r.byteLength) w
  maxByteLength : Engine.bufferMaxByteLength (.object o) w = .ok (.ofSize r.maxByteLength) w
  resizable : Engine.bufferResizable (.object o) w = .ok (.boolean r.resizable) w
  detached : Engine.bufferDetached (.object o) w = .ok (.boolean r.detached) w
  length_eq : r.byteLength.toNat = ((w.blockOf o).getD []).length
  detached_eq : r.detached = w.isDetached o

/-- What the getters of a buffer that is not shared answer. -/
theorem reads_of_buffer {w : World σ} {o : ObjectId} {b : Buffer} (hbuffer : w.buffer? o = some b)
    (hshared : b.shared = false) (hfits : b.Fits) : w.Reads o b.reading where
  byteLength := by
    rw [Engine.bufferByteLength, Action.bind_ok (Engine.thisBuffer_apply _ hbuffer hshared)]
    rfl
  maxByteLength := by
    rw [Engine.bufferMaxByteLength, Action.bind_ok (Engine.thisBuffer_apply _ hbuffer hshared)]
    rfl
  resizable := by
    rw [Engine.bufferResizable, Action.bind_ok (Engine.thisBuffer_apply _ hbuffer hshared)]
    rfl
  detached := by
    rw [Engine.bufferDetached, Action.bind_ok (Engine.thisBuffer_apply _ hbuffer hshared)]
    rfl
  length_eq := by
    rw [blockOf, hbuffer]
    exact UInt64.toNat_ofNat_of_lt' hfits.counted
  detached_eq := by
    rw [isDetached, hbuffer]
    rfl

theorem isDetached_of_blockOf {w : World σ} {o : ObjectId} {bytes : List UInt8}
    (h : w.blockOf o = some bytes) : w.isDetached o = false := by
  obtain ⟨b, hbuffer, hblock⟩ := Option.bind_eq_some_iff.1 h
  rw [isDetached, hbuffer]
  exact Buffer.isDetached_of_block hblock

end World

/-! ## What resizes and slices find -/

namespace Engine

variable {E : Engine σ} {w w' : World σ} {o : ObjectId} {v : Value} {args : List Value}

/-- What starts with a look at its receiver ends well only if that is a buffer and not shared, and
goes on with it in the same world. -/
theorem bind_thisBuffer_eq_ok {α : Type} {method : String} {next : ObjectId × Buffer → Action σ α}
    {a : α} (h : (thisBuffer (.object o) method >>= next) w = .ok a w') :
    ∃ b, w.buffer? o = some b ∧ b.shared = false ∧ next (o, b) w = .ok a w' := by
  obtain ⟨found, u, hthis, hnext⟩ := Action.bind_eq_ok.1 h
  unfold thisBuffer at hthis
  rw [Action.bind_ok (Action.get_apply w)] at hthis
  dsimp only at hthis
  cases hbuffer : w.buffer? o with
  | none =>
      rw [hbuffer] at hthis
      cases hthis
  | some b =>
      rw [hbuffer] at hthis
      dsimp only at hthis
      split at hthis
      · cases hthis
      · next hshared =>
        cases hthis
        exact ⟨b, rfl, Bool.eq_false_iff.2 hshared, hnext⟩

/-- Resizing the block of a buffer settles the world and then works on the buffer, the ledger and
the supply of memory together. -/
theorem resizeBuffer_eq [Embedding σ] {b : Buffer} (h : w.settle.buffer? o = some b)
    (length : UInt64) :
    resizeBuffer o length w =
      Action.ofExcept (b.resize length w.settle.ledger w.settle.memory).1
        { w.settle.setBuffer o (b.resize length w.settle.ledger w.settle.memory).2.1 with
          ledger := (b.resize length w.settle.ledger w.settle.memory).2.2.1
          memory := (b.resize length w.settle.ledger w.settle.memory).2.2.2 } := by
  have hrun : resizeBuffer o length w = _ :=
    (Action.bind_ok (Action.modify_apply World.settle w)).trans
      (Action.bind_ok (Action.get_apply w.settle))
  rw [hrun, h]
  dsimp only
  rw [Action.bind_ok (Action.set_apply _ _)]

/-- A resize that ends well has fitted the block that the buffer had to the length. -/
theorem resizeBuffer_eq_ok [Embedding σ] {length : UInt64}
    (h : resizeBuffer o length w = .ok () w') :
    ∃ before after, w.blockOf o = some before ∧ w'.blockOf o = some after ∧
      Buffer.Refitted before after length.toNat := by
  cases hbuffer : w.settle.buffer? o with
  | none =>
      have hrun : resizeBuffer o length w = _ :=
        (Action.bind_ok (Action.modify_apply World.settle w)).trans
          (Action.bind_ok (Action.get_apply w.settle))
      rw [hrun, hbuffer] at h
      cases h
  | some b =>
      rw [resizeBuffer_eq hbuffer] at h
      rcases b.resize_cases length w.settle.ledger w.settle.memory with
        ⟨e, reserved, houtcome, -⟩ | ⟨maximum, before, reserved, -, -, hblock, houtcome, hresized⟩
      · rw [houtcome] at h
        cases h
      · rw [houtcome, hresized] at h
        cases h
        refine ⟨before, _, ?_, ?_, Buffer.refitted_fit before length.toNat⟩
        · rw [World.blockOf, World.buffer?_of_settle hbuffer hblock]
          exact hblock
        · have hset := World.buffer?_setBuffer hbuffer
            { b with block := some (Buffer.fit before length.toNat), reserved }
          exact congrArg (Option.bind · Buffer.block) hset

/-- A resize that ends well has found a block after it converted the length, and has fitted that
block to the length. -/
theorem bufferResize_eq_ok [Embedding σ] (h : E.bufferResize (.object o) args w = .ok v w') :
    ∃ length u before after, E.toIndex (args.getD 0 .undefined)
        { w with held := operands o args ++ w.held } = .ok length u ∧
      u.blockOf o = some before ∧ w'.blockOf o = some after ∧
      Buffer.Refitted before after length.toNat := by
  obtain ⟨u', hrun, rfl⟩ := Action.holding_eq_ok h
  obtain ⟨_, -, -, hrun⟩ := bind_thisBuffer_eq_ok hrun
  obtain ⟨length, u, hlength, hrun⟩ := Action.bind_eq_ok.1 hrun
  obtain ⟨b, -, -, hrun⟩ := bind_thisBuffer_eq_ok hrun
  dsimp only at hrun
  split at hrun
  · cases hrun
  · cases hmaximum : b.maximum with
    | none =>
        rw [hmaximum] at hrun
        cases hrun
    | some maximum =>
        rw [hmaximum] at hrun
        dsimp only at hrun
        split at hrun
        · cases hrun
        · obtain ⟨_, _, hresize, hrun⟩ := Action.bind_eq_ok.1 hrun
          cases hrun
          obtain ⟨before, after, hbefore, hafter, hfit⟩ := resizeBuffer_eq_ok hresize
          exact ⟨length, _, before, after, hlength, hbefore, hafter, hfit⟩

/-- A slice that ends well has found a block at the start, a fit result of its calls, and then a
block still. -/
theorem bufferSlice_eq_ok (h : E.bufferSlice (.object o) args w = .ok v w') :
    ∃ length first count new target old cur u,
      E.sliceCallouts o args length { w with held := operands o args ++ w.held } =
        .ok (first, count, .object new) u ∧
      SliceTarget u o (.object new) count new target old cur ∧ v = .object new ∧
      w' = { afterSlice u new target old cur first count with held := w.held } := by
  have hreceiver : ∃ b bytes, w.buffer? o = some b ∧ b.shared = false ∧ b.block = some bytes := by
    obtain ⟨_, hrun, -⟩ := Action.holding_eq_ok h
    obtain ⟨b, hbuffer, hshared, hrun⟩ := bind_thisBuffer_eq_ok hrun
    dsimp only at hrun
    split at hrun
    · cases hrun
    · next hdetached =>
      obtain ⟨bytes, hblock⟩ := Buffer.exists_block (Bool.eq_false_iff.2 hdetached)
      exact ⟨b, bytes, hbuffer, hshared, hblock⟩
  obtain ⟨b, bytes, hbuffer, hshared, hblock⟩ := hreceiver
  cases hcalls : E.sliceCallouts o args bytes.length
      { w with held := operands o args ++ w.held } with
  | error e u =>
      rw [bufferSlice_of_error args hbuffer hshared hblock hcalls] at h
      cases h
  | ok range u =>
      obtain ⟨first, count, result⟩ := range
      by_cases htarget : ∃ new target old cur, SliceTarget u o result count new target old cur
      · obtain ⟨new, target, old, cur, htarget⟩ := htarget
        rw [bufferSlice_of_target args hbuffer hshared hblock hcalls htarget] at h
        cases h
        cases htarget.result_eq
        exact ⟨bytes.length, first, count, new, target, old, cur, u, hcalls, htarget, rfl, rfl⟩
      · obtain ⟨e, -, herror⟩ := bufferSlice_of_not_target args hbuffer hshared hblock hcalls
          fun new target old cur ht => htarget ⟨new, target, old, cur, ht⟩
        rw [herror] at h
        cases h

/-- After a slice that ends well, the receiver still has its block. -/
theorem blockOf_of_bufferSlice (h : E.bufferSlice (.object o) args w = .ok v w') :
    ∃ bytes, w'.blockOf o = some bytes := by
  obtain ⟨_, first, count, new, target, old, cur, u, -, htarget, -, rfl⟩ := bufferSlice_eq_ok h
  have hsame : (afterSlice u new target old cur first count).object o = u.object o :=
    object_afterSlice_of_ne htarget.distinct.symm first
  refine ⟨cur, ?_⟩
  show ((afterSlice u new target old cur first count).object o).buffer?.bind (·.block) = some cur
  rw [hsame]
  exact htarget.receiver

/-- A resize or a slice of a buffer that ends well. -/
inductive EndsWell [Embedding σ] (E : Engine σ) (o : ObjectId) (start final : World σ) : Prop
  | resize {args : List Value} {v : Value}
      (h : E.bufferResize (.object o) args start = .ok v final)
  | slice {args : List Value} {v : Value} (h : E.bufferSlice (.object o) args start = .ok v final)
  | resizeBuffer {length : UInt64} (h : Engine.resizeBuffer o length start = .ok () final)

/-- What ends well leaves the buffer with its block. -/
theorem EndsWell.attached [Embedding σ] {start final : World σ} (h : E.EndsWell o start final) :
    final.isDetached o = false := by
  cases h with
  | resize h =>
      obtain ⟨_, _, _, _, -, -, hafter, -⟩ := bufferResize_eq_ok h
      exact World.isDetached_of_blockOf hafter
  | slice h =>
      obtain ⟨_, hafter⟩ := blockOf_of_bufferSlice h
      exact World.isDetached_of_blockOf hafter
  | resizeBuffer h =>
      obtain ⟨_, _, -, hafter, -⟩ := resizeBuffer_eq_ok h
      exact World.isDetached_of_blockOf hafter

/-- What ends well leads to a later world. -/
theorem EndsWell.reaches [Embedding σ] {start final : World σ} (h : E.EndsWell o start final)
    (hE : E.Guarantees World.Reaches) : start.Reaches final := by
  have hreaches := World.reaches_guarantee (σ := σ)
  cases h with
  | resize h => exact (hreaches.bufferResize hE _ _).of_ok h
  | slice h => exact (hreaches.bufferSlice hE _ _).of_ok h
  | resizeBuffer h => exact (hreaches.resizeBuffer _ _).of_ok h

/-- The result of a slice is what a construction with one length gave. -/
theorem sliceCallouts_construct [Embedding σ] {first count length : Nat}
    (h : E.sliceCallouts o args length w = .ok (first, count, v) w') :
    ∃ constructor u u', E.construct constructor [.ofSize (UInt64.ofNat count)] constructor u =
      .ok v u' ∧ u'.Reaches w' := by
  obtain ⟨start, _, -, h⟩ := Action.bind_eq_ok.1 h
  obtain ⟨final, _, -, h⟩ := Action.bind_eq_ok.1 h
  obtain ⟨_, _, -, h⟩ := Action.bind_eq_ok.1 h
  obtain ⟨constructor, _, -, h⟩ := Action.bind_eq_ok.1 h
  obtain ⟨result, _, hconstruct, h⟩ := Action.bind_eq_ok.1 h
  cases h
  obtain ⟨u', hrun, rfl⟩ := Action.holding_eq_ok hconstruct
  exact ⟨constructor, _, u', hrun, .change .refl (.hold _)⟩

end Engine

end EcmaCore
