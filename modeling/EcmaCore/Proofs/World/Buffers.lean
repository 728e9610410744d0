import EcmaCore.Proofs.Buffer
import EcmaCore.Proofs.Guarantee.Program
import EcmaCore.Proofs.World.Settle

/-!
# What becomes of buffers

A buffer lives until it is detached. All its life it is fixed or has the same maximum; a
fixed one keeps its length, and a resizable one stays within its maximum. Whoever
resizes, fills or detaches it, once it is detached it stays so.

## Main results

* `Buffer.resize_cases`: resizing fails and leaves the bytes alone, or fits them to the
  new length.
* `Buffer.continues_resize`: resizing goes on with the life of a buffer.
* `World.buffersKeep_change`, `World.buffersKeep_guarantee`: so does every single change,
  and every run.
* `Engine.allocateBuffer_eq_ok`: how the life of an allocated buffer starts.
-/

namespace EcmaCore

namespace Buffer

/-! ## One buffer -/

/-- The bytes of a buffer are no more than its maximum, and than a word can count. -/
structure Fits (b : Buffer) : Prop where
  counted : b.bytes.length < 2 ^ 64
  bounded : ∀ maximum, b.maximum = some maximum → b.bytes.length ≤ maximum.toNat

/-- A buffer is another one later in its life. -/
structure Continues (b b' : Buffer) : Prop where
  maximum : b'.maximum = b.maximum
  shared : b'.shared = b.shared
  detached : b.isDetached = true → b'.isDetached = true
  fixed : b.isFixed = true → b'.isDetached = false → b'.bytes.length = b.bytes.length
  fits : b.Fits → b'.Fits

variable {b b' b'' : Buffer}

/-- Only the bytes matter, and whether there is a block. -/
theorem continues_of_block (hmaximum : b'.maximum = b.maximum) (hshared : b'.shared = b.shared)
    (hblock : b'.block.map List.length = b.block.map List.length) : b.Continues b' := by
  have hlength : b'.bytes.length = b.bytes.length := by
    have hdefault (block : Option (List UInt8)) :
        (block.getD []).length = (block.map List.length).getD 0 := by
      cases block <;> rfl
    rw [bytes, bytes, hdefault, hdefault, hblock]
  have hdetached : b'.isDetached = b.isDetached := by
    have hmap (block : Option (List UInt8)) : (block.map List.length).isNone = block.isNone := by
      cases block <;> rfl
    rw [isDetached, isDetached, ← hmap, hblock, hmap]
  exact
    { maximum := hmaximum
      shared := hshared
      detached := hdetached.trans
      fixed := fun _ _ => hlength
      fits := fun h => ⟨hlength ▸ h.counted, fun m hm => hlength ▸ h.bounded m (hmaximum ▸ hm)⟩ }

theorem Continues.refl (b : Buffer) : b.Continues b :=
  continues_of_block rfl rfl rfl

theorem Continues.trans (h : b.Continues b') (h' : b'.Continues b'') : b.Continues b'' where
  maximum := h'.maximum.trans h.maximum
  shared := h'.shared.trans h.shared
  detached := h'.detached ∘ h.detached
  fixed hfixed hattached := by
    have hfixed' : b'.isFixed = true := by rw [isFixed, h.maximum, ← isFixed, hfixed]
    have hattached' : b'.isDetached = false := by
      rw [← Bool.not_eq_true]
      intro hdetached
      rw [h'.detached hdetached] at hattached
      cases hattached
    rw [h'.fixed hfixed' hattached, h.fixed hfixed hattached']
  fits := h'.fits ∘ h.fits

/-- Detaching ends the life of a buffer. -/
theorem continues_of_detached (hmaximum : b'.maximum = b.maximum) (hshared : b'.shared = b.shared)
    (hblock : b'.block = none) : b.Continues b' := by
  have hdetached : b'.isDetached = true := by rw [isDetached, hblock]; rfl
  have hbytes : b'.bytes = [] := by rw [bytes, hblock]; rfl
  refine ⟨hmaximum, hshared, fun _ => hdetached, fun _ hattached => ?_,
    fun _ => ⟨?_, fun m _ => ?_⟩⟩
  · rw [hdetached] at hattached
    cases hattached
  · rw [hbytes]
    decide
  · rw [hbytes]
    exact Nat.zero_le _

/-- Resizing fails and leaves everything but the reservation alone, or fits the bytes of a resizable
buffer to a length within its maximum. -/
theorem resize_cases (b : Buffer) (length : UInt64) (ledger : Ledger) (memory : Memory) :
    (∃ e reserved, (b.resize length ledger memory).1 = .error e ∧
      (b.resize length ledger memory).2.1 = { b with reserved }) ∨
    ∃ maximum bytes reserved, b.maximum = some maximum ∧ length ≤ maximum ∧ b.block = some bytes ∧
      (b.resize length ledger memory).1 = .ok () ∧
      (b.resize length ledger memory).2.1 =
        { b with block := some (fit bytes length.toNat), reserved } := by
  unfold resize
  split
  · exact .inl ⟨_, b.reserved, rfl, rfl⟩
  · next maximum hmaximum =>
    split
    · exact .inl ⟨_, b.reserved, rfl, rfl⟩
    · next hbound =>
      have hle : length ≤ maximum := UInt64.not_lt.1 hbound
      split
      · exact .inl ⟨_, b.reserved, rfl, rfl⟩
      · next bytes hblock =>
        dsimp only
        split
        · next hreserved =>
          split
          · exact .inl ⟨_, b.reserved, rfl, rfl⟩
          · exact .inr ⟨maximum, bytes, b.reserved, hmaximum, hle, hblock, rfl, rfl⟩
        · split
          · exact .inl ⟨_, b.reserved, rfl, rfl⟩
          · split
            · split
              · exact .inl ⟨_, some length, rfl, rfl⟩
              · exact .inl ⟨_, some b.length, rfl, rfl⟩
            · exact .inr ⟨maximum, bytes, some length, hmaximum, hle, hblock, rfl, rfl⟩

/-- Resizing goes on with the life of a buffer. -/
theorem continues_resize (b : Buffer) (length : UInt64) (ledger : Ledger) (memory : Memory) :
    b.Continues (b.resize length ledger memory).2.1 := by
  rcases b.resize_cases length ledger memory with ⟨e, reserved, -, hbuffer⟩ |
    ⟨maximum, bytes, reserved, hmaximum, hle, hblock, -, hbuffer⟩
  · rw [hbuffer]
    exact continues_of_block rfl rfl rfl
  · rw [hbuffer]
    have hlength :
        ({ b with block := some (fit bytes length.toNat), reserved } : Buffer).bytes.length =
          length.toNat := length_fit bytes _
    refine ⟨rfl, rfl, fun hdetached => ?_, fun hfixed => ?_, fun _ => ⟨?_, fun m hm => ?_⟩⟩
    · rw [isDetached_of_block hblock] at hdetached
      cases hdetached
    · rw [isFixed, hmaximum] at hfixed
      cases hfixed
    · rw [hlength]
      exact length.toNat_lt
    · rw [hlength]
      have hm' : some maximum = some m := hmaximum.symm.trans hm
      cases hm'
      exact UInt64.le_iff_toNat_le.1 hle

/-- Writing over bytes goes on with the life of a buffer. -/
theorem continues_overwrite (b : Buffer) (position : Nat) (source : List UInt8) :
    b.Continues { b with block := b.block.map fun bytes => overwrite bytes position source } := by
  refine continues_of_block rfl rfl ?_
  rw [Option.map_map]
  exact Option.map_congr fun bytes _ => length_overwrite bytes position source

end Buffer

/-! ## The buffers of a world -/

namespace World

variable {σ : Type}

/-- Every buffer goes on with its life. -/
def BuffersKeep (w w' : World σ) : Prop :=
  ∀ o b, w.buffer? o = some b → ∃ b', w'.buffer? o = some b' ∧ b.Continues b'

theorem buffersKeep_of_objects {w w' : World σ} (h : w'.objects = w.objects) :
    w.BuffersKeep w' := by
  intro o b hb
  refine ⟨b, ?_, .refl b⟩
  rw [buffer?, object, h]
  exact hb

theorem buffersKeep_modifyObject (w : World σ) (o : ObjectId) {f : Object → Object}
    (h : ∀ b, (w.object o).buffer? = some b →
      ∃ b', (f (w.object o)).buffer? = some b' ∧ b.Continues b') :
    w.BuffersKeep (w.modifyObject o f) := by
  intro other b hb
  rw [buffer?, object_modifyObject]
  split
  · next heq =>
    rw [← heq.1]
    rw [← heq.1] at hb
    exact h b hb
  · exact ⟨b, hb, .refl b⟩

theorem buffersKeep_setBuffer {w : World σ} {o : ObjectId} {b b' : Buffer}
    (h : w.buffer? o = some b) (hcontinues : b.Continues b') :
    w.BuffersKeep (w.setBuffer o b') := by
  apply w.buffersKeep_modifyObject
  intro old hold
  rw [show (w.object o).buffer? = some b from h] at hold
  cases hold
  exact ⟨b', rfl, hcontinues⟩

/-- A new object takes the place of no buffer. -/
theorem buffersKeep_addObject (w : World σ) (new : Object) :
    w.BuffersKeep (w.addObject new).2 := by
  intro o b hb
  refine ⟨b, ?_, .refl b⟩
  rw [buffer?, object_addObject, if_neg (Nat.ne_of_lt (index_lt_of_buffer hb))]
  exact hb

/-- Giving up an object detaches the buffer that it may be. -/
theorem buffersKeep_giveUp (w : World σ) (e : Entity) : w.BuffersKeep (w.giveUp e) := by
  intro o b hb
  rw [buffer?, object_giveUp]
  split
  · rw [buffer?] at hb
    unfold Object.buffer? at hb
    split at hb
    · next b₀ hnature =>
      cases hb
      unfold Object.givenUp
      rw [hnature]
      dsimp only
      split
      · exact ⟨_, rfl, Buffer.continues_of_detached rfl rfl rfl⟩
      · exact ⟨b, by rw [Object.buffer?, hnature], .refl b⟩
    · cases hb
  · exact ⟨b, hb, .refl b⟩

theorem BuffersKeep.trans {u v w : World σ} (h : u.BuffersKeep v) (h' : v.BuffersKeep w) :
    u.BuffersKeep w := by
  intro o b hb
  obtain ⟨b₁, hb₁, hcontinues⟩ := h o b hb
  obtain ⟨b₂, hb₂, hcontinues'⟩ := h' o b₁ hb₁
  exact ⟨b₂, hb₂, hcontinues.trans hcontinues'⟩

/-- A buffer that has a block after something was given up was not what was given up. -/
theorem buffer?_of_giveUp {w : World σ} {e : Entity} {o : ObjectId} {b : Buffer}
    {bytes : List UInt8} (h : (w.giveUp e).buffer? o = some b) (hblock : b.block = some bytes) :
    w.buffer? o = some b := by
  rw [buffer?, object_giveUp] at h
  split at h
  · unfold Object.givenUp at h
    split at h
    · split at h
      · cases h
        cases hblock
      · exact h
    · exact h
  · exact h

/-- A buffer that has a block when the world is settled is as it was. -/
theorem buffer?_of_settle [Embedding σ] {w : World σ} {o : ObjectId} {b : Buffer}
    {bytes : List UInt8} (h : w.settle.buffer? o = some b) (hblock : b.block = some bytes) :
    w.buffer? o = some b :=
  settle_induction (motive := fun u => u.buffer? o = some b → w.buffer? o = some b) id
    (fun _ _ hu h => hu (buffer?_of_giveUp h hblock)) h

theorem buffersKeep_settle [Embedding σ] (w : World σ) : w.BuffersKeep w.settle :=
  settle_induction (motive := w.BuffersKeep) (buffersKeep_of_objects rfl) fun u e h =>
    h.trans (u.buffersKeep_giveUp e)

/-- A single change goes on with the life of every buffer. -/
theorem buffersKeep_change [Embedding σ] {L : Licence} {w w' : World σ} (h : Change L w w') :
    w.BuffersKeep w' := by
  cases h with
  | settle => exact w.buffersKeep_settle
  | define o key update h =>
      rw [define_eq]
      refine w.buffersKeep_modifyObject o fun b hb => ⟨b, ?_, .refl b⟩
      rw [Object.buffer?_defineQuietly, hb]
  | delete o key =>
      rw [delete_eq]
      refine w.buffersKeep_modifyObject o fun b hb => ⟨b, ?_, .refl b⟩
      rw [Object.buffer?_delete, hb]
  | preventExtensions o => exact w.buffersKeep_modifyObject o fun b hb => ⟨b, hb, .refl b⟩
  | addObject new => exact w.buffersKeep_addObject new
  | addUncharged => exact w.buffersKeep_addObject _
  | addBuffer => exact buffersKeep_addObject _ _
  | @resize o b length hbuffer =>
      exact buffersKeep_setBuffer hbuffer (b.continues_resize length w.ledger w.memory)
  | detach o =>
      unfold detachBuffer
      split
      · exact buffersKeep_of_objects rfl
      · next hbuffer =>
        exact buffersKeep_setBuffer hbuffer (Buffer.continues_of_detached rfl rfl rfl)
  | fill o position source =>
      unfold fillBuffer
      split
      · exact buffersKeep_of_objects rfl
      · next b hbuffer =>
        exact buffersKeep_setBuffer hbuffer (b.continues_overwrite position source)
  | reserve h =>
      obtain ⟨_, _, _, rfl⟩ := reserve_eq_ok h
      exact buffersKeep_of_objects rfl
  | moveReservation h =>
      rcases moveReservation_eq_ok h with ⟨_, rfl⟩ | ⟨_, _, _, _, rfl⟩ <;>
        exact buffersKeep_of_objects rfl
  | dropReservation r =>
      unfold World.dropReservation
      split <;> exact buffersKeep_of_objects rfl
  | _ => exact buffersKeep_of_objects rfl

/-- Every run goes on with the life of every buffer. -/
theorem buffersKeep_guarantee [Embedding σ] (L : Licence) :
    RunGuarantee L (BuffersKeep (σ := σ)) where
  refl _ := buffersKeep_of_objects rfl
  trans := BuffersKeep.trans
  change := buffersKeep_change
  contexts _ _ := buffersKeep_of_objects rfl

end World

/-! ## New buffers -/

/-- The bytes of a new buffer fit if its length is within its maximum. -/
theorem Buffer.fits_zeros {length : UInt64} {maximum reserved : Option UInt64} {shared : Bool}
    (h : ∀ m, maximum = some m → length ≤ m) :
    { zeros length maximum shared with reserved }.Fits := by
  have hlength : { zeros length maximum shared with reserved }.bytes.length = length.toNat :=
    List.length_replicate
  refine ⟨?_, fun m hm => ?_⟩
  · rw [hlength]
    exact length.toNat_lt
  · rw [hlength]
    exact UInt64.le_iff_toNat_le.1 (h m hm)

/-- A buffer that was allocated is one of zeros, charged, and no longer than its maximum. -/
theorem Engine.allocateBuffer_eq_ok {σ : Type} [Embedding σ] {E : Engine σ}
    {constructor o : ObjectId} {length : UInt64} {maximum : Option UInt64} {w w' : World σ}
    (h : E.allocateBuffer constructor length maximum w = .ok o w') :
    (∀ m, maximum = some m → length ≤ m) ∧
      w'.buffer? o = some { Buffer.zeros length maximum false with reserved := some length } := by
  unfold allocateBuffer at h
  cases hmaximum : maximum.filter (· < length) with
  | some m =>
      rw [hmaximum] at h
      cases h
  | none =>
      rw [hmaximum] at h
      refine ⟨fun m hm => ?_, ?_⟩
      · rw [hm, Option.filter_some] at hmaximum
        refine UInt64.not_lt.1 fun hlt => ?_
        rw [if_pos (decide_eq_true hlt)] at hmaximum
        cases hmaximum
      · obtain ⟨prototype, w₁, -, h⟩ := Action.bind_eq_ok.1 h
        unfold newChargedBuffer at h
        obtain ⟨_, w₂, -, h⟩ := Action.bind_eq_ok.1 h
        obtain ⟨granted, w₃, -, h⟩ := Action.bind_eq_ok.1 h
        split at h
        · rw [Action.change_apply, EStateM.Result.ok.injEq] at h
          obtain ⟨rfl, rfl⟩ := h
          rw [World.buffer?, World.object_addObject_self]
          rfl
        · obtain ⟨_, w₄, -, h⟩ := Action.bind_eq_ok.1 h
          cases h

end EcmaCore
