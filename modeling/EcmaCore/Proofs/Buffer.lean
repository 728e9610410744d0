import EcmaCore.Buffer
import EcmaCore.Proofs.Ledger

/-!
# Reservations of buffers

A buffer that is charged holds a reservation of exactly the bytes of its block, and
none once it has no block. Detaching and resizing keep it so, and exchange with
the ledger what the buffer held for what it holds.

## Main results

* `detach_exchange`: detaching gives back what the buffer held.
* `resize_of_charged`, `charged_resize`: what resizing does to a charged buffer.
* `resize_exchange`: resizing exchanges what the buffer held for what it holds, on
  the paths that fail as on the others.
-/

namespace EcmaCore.Buffer

variable {N : UInt64} {b : Buffer} {ledger : Ledger} {uncharged : Prop}

/-- The bytes that a buffer holds in the ledger. -/
def charge (b : Buffer) : Nat := Ledger.bytesOf b.reserved

/-- The reservation of a buffer is that of its block. -/
def Charged (b : Buffer) : Prop :=
  b.reserved.map UInt64.toNat = b.block.map List.length

/-- A buffer is charged or, where uncharged buffers are admitted, holds no reservation at all. -/
def Sound (uncharged : Prop) (b : Buffer) : Prop :=
  b.Charged ∨ uncharged ∧ b.reserved = none

/-! ## Bytes -/

@[simp] theorem length_fit (bytes : List UInt8) (length : Nat) :
    (fit bytes length).length = length := by
  simp only [fit, List.length_append, List.length_take, List.length_replicate]
  omega

@[simp] theorem length_overwrite (bytes : List UInt8) (position : Nat) (source : List UInt8) :
    (overwrite bytes position source).length = bytes.length := by
  simp only [overwrite, List.length_append, List.length_take, List.length_drop]
  omega

/-! ## Blocks -/

theorem isDetached_of_block {bytes : List UInt8} (h : b.block = some bytes) :
    b.isDetached = false := by
  rw [isDetached, h]
  rfl

theorem bytes_of_block {bytes : List UInt8} (h : b.block = some bytes) : b.bytes = bytes := by
  rw [Buffer.bytes, h]
  rfl

theorem exists_block (h : b.isDetached = false) : ∃ bytes, b.block = some bytes := by
  cases hblock : b.block with
  | some bytes => exact ⟨bytes, rfl⟩
  | none =>
      rw [isDetached, hblock] at h
      cases h

/-! ## New buffers and detached ones -/

theorem charged_zeros (length : UInt64) (maximum : Option UInt64) :
    { zeros length maximum false with reserved := some length }.Charged := by
  simp [Charged, zeros]

theorem charged_detach (b : Buffer) (ledger : Ledger) : (b.detach ledger).1.Charged :=
  rfl

/-- Writing over the bytes of a buffer does not change its length. -/
theorem charged_overwrite (position : Nat) (source : List UInt8) :
    { b with block := b.block.map fun bytes => overwrite bytes position source }.Charged ↔
      b.Charged := by
  have hlength : (b.block.map fun bytes => overwrite bytes position source).map List.length =
      b.block.map List.length := by
    rw [Option.map_map]
    exact Option.map_congr fun bytes _ => length_overwrite bytes position source
  rw [Charged, Charged, hlength]

/-- Detaching gives back what the buffer held. -/
theorem detach_exchange (hl : ledger.Within N) (hheld : b.charge ≤ ledger.allocated.toNat) :
    Ledger.Exchange N ledger (b.detach ledger).2 b.charge (b.detach ledger).1.charge := by
  cases hreserved : b.reserved with
  | none =>
      rw [charge, hreserved, detach, hreserved]
      exact Ledger.release_exchange hl (UInt64.zero_le)
  | some held =>
      rw [charge, hreserved] at hheld ⊢
      rw [detach, hreserved]
      exact Ledger.release_exchange hl (UInt64.le_iff_toNat_le.2 hheld)

/-! ## Resizing -/

/-- The length of a charged block, as a word, is what the buffer holds. -/
theorem length_of_charged (h : b.Charged) {held : UInt64} (hheld : b.reserved = some held) :
    b.length = held := by
  unfold Charged at h
  cases hblock : b.block with
  | none =>
      rw [hheld, hblock] at h
      cases h
  | some bytes =>
      rw [hheld, hblock, Option.map_some, Option.map_some, Option.some.injEq] at h
      rw [length, Buffer.bytes, hblock, Option.getD_some, ← h, UInt64.ofNat_toNat]

/-- Resizing a charged buffer moves its reservation and fits its bytes to the length. Growth is
moved back where the block cannot be had. -/
theorem resize_of_charged (hcharged : b.Charged) {bytes : List UInt8}
    (hblock : b.block = some bytes) {maximum length : UInt64}
    (hmaximum : b.maximum = some maximum) (hle : length ≤ maximum) (ledger : Ledger) (memory : Memory) :
    b.resize length ledger memory =
      match ledger.move b.length length with
      | .error e => (.error e, b, ledger, memory)
      | .ok moved =>
          if b.length < length && !memory.next length then
            (.error (.allocationFailed length), b, moved.release (length - b.length),
              memory.advance)
          else
            (.ok (), { b with block := some (fit bytes length.toNat), reserved := some length },
              moved, if b.length < length then memory.advance else memory) := by
  obtain ⟨held, hreserved⟩ : ∃ held, b.reserved = some held := by
    unfold Charged at hcharged
    rw [hblock] at hcharged
    obtain ⟨held, hheld, -⟩ := Option.map_eq_some_iff.1 hcharged
    exact ⟨held, hheld⟩
  have hlength := length_of_charged hcharged hreserved
  have hsame : (⟨some bytes, some maximum, b.shared, some b.length⟩ : Buffer) = b := by
    rw [hlength, ← hblock, ← hmaximum, ← hreserved]
  unfold resize
  rw [hmaximum]
  dsimp only
  rw [if_neg (UInt64.not_lt.2 hle), hblock, hreserved]
  dsimp only
  rw [hlength]
  cases ledger.move held length with
  | error e => rfl
  | ok moved =>
      dsimp only
      by_cases hfails : (decide (held < length) && !memory.next length) = true
      · have hgrows : held < length := of_decide_eq_true (Bool.and_eq_true_iff.1 hfails).1
        rw [if_pos hfails, if_pos hfails, Ledger.move_of_le moved (UInt64.le_of_lt hgrows)]
        dsimp only
        rw [← hlength, hsame]
      · rw [if_neg hfails, if_neg hfails]

/-- A charged buffer that is resized is charged, however this ends. -/
theorem charged_resize (h : b.Charged) (length : UInt64) (ledger : Ledger) (memory : Memory) :
    (b.resize length ledger memory).2.1.Charged := by
  cases hmaximum : b.maximum with
  | none =>
      unfold resize
      rw [hmaximum]
      exact h
  | some maximum =>
      by_cases hbound : maximum < length
      · unfold resize
        rw [hmaximum]
        dsimp only
        rw [if_pos hbound]
        exact h
      · cases hblock : b.block with
        | none =>
            unfold resize
            rw [hmaximum]
            dsimp only
            rw [if_neg hbound, hblock]
            exact h
        | some bytes =>
            rw [resize_of_charged h hblock hmaximum (UInt64.not_lt.1 hbound)]
            split
            · exact h
            · split
              · exact h
              · rw [Charged, Option.map_some, Option.map_some, length_fit]

/-- Resizing exchanges what the buffer held for what it holds then. A growth that finds no memory
was charged and is taken back. -/
theorem resize_exchange {length : UInt64} {memory memory' : Memory} {outcome : Except Error Unit}
    {b' : Buffer} {ledger' : Ledger} (hl : ledger.Within N) (hb : b.Sound uncharged)
    (hheld : b.charge ≤ ledger.allocated.toNat)
    (h : b.resize length ledger memory = (outcome, b', ledger', memory')) :
    Ledger.Exchange N ledger ledger' b.charge b'.charge ∧ b'.Sound uncharged := by
  have hsame : Ledger.Exchange N ledger ledger b.charge b.charge ∧ b.Sound uncharged :=
    ⟨hl.exchange _, hb⟩
  unfold resize at h
  split at h
  · cases h
    exact hsame
  · split at h
    · cases h
      exact hsame
    · split at h
      · cases h
        exact hsame
      · next bytes hblock =>
        dsimp only at h
        split at h
        · next hreserved =>
          split at h
          · cases h
            exact hsame
          · cases h
            have hnot : ¬b.Charged := by
              intro hcharged
              rw [Charged, hreserved, hblock] at hcharged
              cases hcharged
            exact ⟨hl.exchange _, hb.imp (absurd · hnot) id⟩
        · next held hreserved =>
          have hcharged : b.Charged :=
            hb.resolve_right fun h => Option.some_ne_none held (hreserved.symm.trans h.2)
          have hlength := length_of_charged hcharged hreserved
          have hcharge : b.charge = held.toNat := by rw [charge, hreserved]; rfl
          have hle : held ≤ ledger.allocated := UInt64.le_iff_toNat_le.2 (hcharge ▸ hheld)
          split at h
          · cases h
            exact hsame
          · next moved hmoved =>
            have hexchange := Ledger.move_exchange hl hle hmoved
            rw [← hcharge] at hexchange
            split at h
            · next hgrows =>
              have hlt : b.length < length := of_decide_eq_true (Bool.and_eq_true_iff.1 hgrows).1
              rw [Ledger.move_of_le moved (UInt64.le_of_lt hlt)] at h
              cases h
              have hmovedExact := hexchange.exact
              have hallocated : length ≤ moved.allocated :=
                UInt64.le_iff_toNat_le.2 (by omega)
              have hback := Ledger.move_exchange hexchange.within hallocated
                (Ledger.move_of_le moved (UInt64.le_of_lt hlt))
              have hrestored : ({ b with reserved := some b.length } : Buffer) = b := by
                rw [hlength, ← hreserved]
              have hcharge' : b.charge = b.length.toNat := by rw [hcharge, hlength]
              rw [← hcharge'] at hback
              rw [hrestored]
              exact ⟨hexchange.trans hback, hb⟩
            · cases h
              have hresized : ({ b with block := some (fit bytes length.toNat),
                                        reserved := some length } : Buffer).Charged := by
                rw [Charged, Option.map_some, Option.map_some, length_fit]
              exact ⟨hexchange, .inl hresized⟩

end EcmaCore.Buffer
