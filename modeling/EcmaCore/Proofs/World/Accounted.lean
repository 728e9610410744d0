import EcmaCore.Proofs.Buffer
import EcmaCore.Proofs.Guarantee.Program
import Mathlib.Algebra.GroupWithZero.Nat
import Mathlib.Algebra.Order.BigOperators.Group.List
import Mathlib.Algebra.Order.Group.Nat

/-!
# What the ledger of a world comes to

The ledger of a world with a limit counts exactly the bytes that buffers and other
reservations hold, one sum over all of them. Every change of a world keeps it so:
a change that touches the ledger exchanges with it what one owner held for what
the owner holds afterwards.

## Main results

* `World.accounted_change`: every single change keeps the account.
* `World.isCharged_change`, `World.isCharged_guarantee`: and a buffer that is charged stays
  charged, with or without a limit.
* `World.keepsAccount_guarantee`: so do runs of programs.
* `World.accounted_start`: the account of the world in which nothing has run yet.
-/

namespace EcmaCore

/-! ## Sums over owners -/

section

variable {α : Type}

/-- What the entries of an array hold together. -/
def total (held : α → Nat) (xs : Array α) : Nat := (xs.toList.map held).sum

theorem total_push (held : α → Nat) (xs : Array α) (x : α) :
    total held (xs.push x) = total held xs + held x := by
  simp [total]

theorem sum_map_modify (held : α → Nat) (f : α → α) (xs : List α) (i : Nat) (h : i < xs.length) :
    ((xs.modify i f).map held).sum + held xs[i] = (xs.map held).sum + held (f xs[i]) := by
  induction xs generalizing i with
  | nil => exact absurd h (Nat.not_lt_zero i)
  | cons x xs ih =>
      cases i with
      | zero =>
          simp only [List.modify_zero_cons, List.map_cons, List.sum_cons, List.getElem_cons_zero]
          omega
      | succ i =>
          have htail := ih i (Nat.lt_of_succ_lt_succ h)
          simp only [List.modify_succ_cons, List.map_cons, List.sum_cons, List.getElem_cons_succ]
          omega

/-- Changing one entry exchanges what it held for what it holds. -/
theorem total_modify (held : α → Nat) (f : α → α) (xs : Array α) (i : Nat) (h : i < xs.size) :
    total held (xs.modify i f) + held xs[i] = total held xs + held (f xs[i]) := by
  rw [total, Array.toList_modify]
  exact sum_map_modify held f xs.toList i h

theorem total_setIfInBounds [Inhabited α] (held : α → Nat) (x : α) (xs : Array α) (i : Nat)
    (h : i < xs.size) :
    total held (xs.setIfInBounds i x) + held xs[i] = total held xs + held x := by
  have hset : xs.setIfInBounds i x = xs.modify i fun _ => x := by
    rw [← Array.toList_inj, Array.toList_setIfInBounds, Array.toList_modify, List.modify_eq_set]
  rw [hset, total_modify held _ xs i h]

/-- One entry holds no more than all of them. -/
theorem le_total (held : α → Nat) (xs : Array α) (i : Nat) (h : i < xs.size) :
    held xs[i] ≤ total held xs := by
  refine List.single_le_sum (fun _ _ => Nat.zero_le _) _ ?_
  exact List.mem_map_of_mem (xs.getElem_mem_toList h)

end

/-! ## The account of a world -/

/-- The bytes that an object holds in the ledger. -/
def Object.charge (o : Object) : Nat := (o.buffer?.map Buffer.charge).getD 0

theorem Object.charge_of_buffer {o : Object} {b : Buffer} (h : o.buffer? = some b) :
    o.charge = b.charge := by
  rw [charge, h]
  rfl

namespace World

variable {σ : Type} {L : Licence} {N : UInt64} {w w' : World σ}

/-- The bytes that are held in the ledger: by buffers and by reservations without one. -/
def charge (w : World σ) : Nat :=
  total Object.charge w.objects + total Ledger.bytesOf w.reservations

/-- The ledger respects its limit and counts exactly what is held, and every buffer is charged
unless the licence admits others. -/
structure Accounted (L : Licence) (N : UInt64) (w : World σ) : Prop where
  within : w.ledger.Within N
  exact : w.ledger.allocated.toNat = w.charge
  sound : ∀ {o b}, w.buffer? o = some b → b.Sound L.uncharged

theorem reservation_eq_some {r : ReservationId} {held : UInt64} (h : w.reservation r = some held) :
    ∃ hlt : r.index < w.reservations.size, w.reservations[r.index] = some held := by
  have hlt : r.index < w.reservations.size := by
    by_contra hle
    rw [reservation, Array.getD_eq_getD_getElem?, Array.getElem?_eq_none (Nat.not_lt.1 hle)] at h
    cases h
  refine ⟨hlt, ?_⟩
  simpa [reservation, Array.getD_eq_getD_getElem?, hlt] using h

namespace Accounted

theorem of_same (h : w.Accounted L N) (hobjects : w'.objects = w.objects)
    (hreservations : w'.reservations = w.reservations) (hledger : w'.ledger = w.ledger) :
    w'.Accounted L N := by
  refine ⟨hledger ▸ h.within, ?_, ?_⟩
  · rw [hledger, h.exact, charge, charge, hobjects, hreservations]
  · intro o b hb
    refine h.sound (o := o) ?_
    rwa [buffer?, object, hobjects] at hb

/-- What one object holds is held in the ledger. -/
theorem charge_le (h : w.Accounted L N) {o : ObjectId} {b : Buffer} (hb : w.buffer? o = some b) :
    b.charge ≤ w.ledger.allocated.toNat := by
  have hlt := index_lt_of_buffer hb
  have hle := le_total Object.charge w.objects o.index hlt
  rw [← w.object_eq_getElem hlt, Object.charge_of_buffer hb] at hle
  rw [h.exact, charge]
  omega

/-- What one reservation holds is held in the ledger. -/
theorem reservation_le (h : w.Accounted L N) {r : ReservationId} {held : UInt64}
    (hr : w.reservation r = some held) : held ≤ w.ledger.allocated := by
  obtain ⟨hlt, hentry⟩ := reservation_eq_some hr
  have hle := le_total Ledger.bytesOf w.reservations r.index hlt
  rw [hentry, Ledger.bytesOf_some] at hle
  rw [UInt64.le_iff_toNat_le, h.exact, charge]
  omega

/-- Changing one object exchanges with the ledger what it held for what it holds. -/
theorem modifyObject (h : w.Accounted L N) {o : ObjectId} {f : Object → Object}
    (hlt : o.index < w.objects.size)
    (hobjects : w'.objects = (w.modifyObject o f).objects)
    (hreservations : w'.reservations = w.reservations)
    (hledger : Ledger.Exchange N w.ledger w'.ledger (w.object o).charge (f (w.object o)).charge)
    (hsound : ∀ b, (f (w.object o)).buffer? = some b → b.Sound L.uncharged) :
    w'.Accounted L N := by
  refine ⟨hledger.within, ?_, ?_⟩
  · have hexact := hledger.exact
    have htotal := total_modify Object.charge f w.objects o.index hlt
    rw [← w.object_eq_getElem hlt] at htotal
    have hsame := h.exact
    rw [charge] at hsame
    rw [charge, hobjects, hreservations, World.modifyObject]
    dsimp only
    omega
  · intro other b hb
    have hobject : w'.object other = (w.modifyObject o f).object other := by
      rw [object, object, hobjects]
    rw [buffer?, hobject, object_modifyObject] at hb
    split at hb
    · next heq =>
      rw [← heq.1] at hb
      exact hsound b hb
    · exact h.sound hb

/-- Changing an object without looking at its buffer leaves the account alone. -/
theorem modifyObject_frame (h : w.Accounted L N) (o : ObjectId) {f : Object → Object}
    (hf : ∀ x, (f x).buffer? = x.buffer?) : (w.modifyObject o f).Accounted L N := by
  by_cases hlt : o.index < w.objects.size
  · have hcharge : (f (w.object o)).charge = (w.object o).charge := by
      rw [Object.charge, hf, Object.charge]
    refine h.modifyObject hlt rfl rfl (hcharge ▸ h.within.exchange _) fun b hb => ?_
    rw [hf] at hb
    exact h.sound hb
  · have hobjects : (w.modifyObject o f).objects = w.objects := by
      rw [World.modifyObject]
      exact Array.ext (by simp) fun i hi _ => by
        rw [Array.getElem_modify, if_neg]
        simp at hi
        omega
    exact h.of_same hobjects rfl rfl

/-- Replacing a buffer exchanges what it held for what the new one holds. -/
theorem setBuffer (h : w.Accounted L N) {o : ObjectId} {b b' : Buffer}
    (hb : w.buffer? o = some b) (hobjects : w'.objects = (w.setBuffer o b').objects)
    (hreservations : w'.reservations = w.reservations)
    (hledger : Ledger.Exchange N w.ledger w'.ledger b.charge b'.charge)
    (hsound : b'.Sound L.uncharged) : w'.Accounted L N := by
  refine h.modifyObject (index_lt_of_buffer hb) hobjects hreservations ?_ ?_
  · rw [Object.charge_of_buffer hb]
    exact hledger
  · intro other hother
    cases hother
    exact hsound

/-- A new object takes from the ledger what it holds. -/
theorem addObject (h : w.Accounted L N) {new : Object}
    (hobjects : w'.objects = (w.addObject new).2.objects)
    (hreservations : w'.reservations = w.reservations)
    (hledger : Ledger.Exchange N w.ledger w'.ledger 0 new.charge)
    (hsound : ∀ b, new.buffer? = some b → b.Sound L.uncharged) : w'.Accounted L N := by
  refine ⟨hledger.within, ?_, ?_⟩
  · have hexact := hledger.exact
    have hsame := h.exact
    rw [charge] at hsame
    rw [charge, hobjects, hreservations, World.addObject]
    dsimp only
    rw [total_push]
    omega
  · intro other b hb
    have hobject : w'.object other = (w.addObject new).2.object other := by
      rw [object, object, hobjects]
    rw [buffer?, hobject, object_addObject] at hb
    split at hb
    · exact hsound b hb
    · exact h.sound hb

/-- A new reservation takes from the ledger what it holds. -/
theorem addReservation (h : w.Accounted L N) {bytes : UInt64} {ledger : Ledger}
    (hledger : Ledger.Exchange N w.ledger ledger 0 bytes.toNat) :
    ({ w with ledger, reservations := w.reservations.push (some bytes) } : World σ).Accounted L
      N := by
  refine ⟨hledger.within, ?_, h.sound⟩
  have hexact := hledger.exact
  have hsame := h.exact
  rw [charge] at hsame ⊢
  dsimp only
  rw [total_push, Ledger.bytesOf_some]
  omega

/-- Changing a reservation exchanges what it held for what it holds. -/
theorem setReservation (h : w.Accounted L N) {r : ReservationId} {held : UInt64}
    {next : Option UInt64} {ledger : Ledger} (hr : w.reservation r = some held)
    (hledger : Ledger.Exchange N w.ledger ledger held.toNat (Ledger.bytesOf next)) :
    ({ w with
        ledger
        reservations := w.reservations.setIfInBounds r.index next } : World σ).Accounted L N := by
  refine ⟨hledger.within, ?_, h.sound⟩
  obtain ⟨hlt, hentry⟩ := reservation_eq_some hr
  have htotal := total_setIfInBounds Ledger.bytesOf next w.reservations r.index hlt
  rw [hentry, Ledger.bytesOf_some] at htotal
  have hexact := hledger.exact
  have hsame := h.exact
  rw [charge] at hsame ⊢
  dsimp only
  omega

end Accounted

/-! ## Changes -/

theorem accounted_giveUp (h : w.Accounted L N) (e : Entity) : (w.giveUp e).Accounted L N := by
  unfold giveUp
  split
  · split
    · next b hnature =>
      have hb := buffer?_of_nature hnature
      split
      · exact h.setBuffer hb rfl rfl (Buffer.detach_exchange h.within (h.charge_le hb))
          (.inl (b.charged_detach _))
      · exact h
    · exact h
  · exact h
  · exact h.of_same rfl rfl rfl

theorem accounted_settle [Embedding σ] (h : w.Accounted L N) : w.settle.Accounted L N :=
  settle_induction (motive := (·.Accounted L N)) h fun _ e h => accounted_giveUp h e

/-- A single change keeps the account. -/
theorem accounted_change [Embedding σ] (h : w.Accounted L N) (hchange : Change L w w') :
    w'.Accounted L N := by
  cases hchange with
  | settle => exact accounted_settle h
  | define o key update =>
      rw [define_eq]
      exact h.modifyObject_frame o fun x => x.buffer?_defineQuietly key update
  | delete o key =>
      rw [delete_eq]
      exact h.modifyObject_frame o fun x => x.buffer?_delete key
  | preventExtensions o => exact h.modifyObject_frame o fun _ => rfl
  | addObject new hnew =>
      refine h.addObject rfl rfl ?_ fun b hb => ?_
      · rw [Object.charge, hnew]
        exact h.within.exchange 0
      · rw [hnew] at hb
        cases hb
  | addUncharged prototype length maximum shared huncharged =>
      refine h.addObject rfl rfl (h.within.exchange 0) fun b hb => ?_
      cases hb
      exact .inr ⟨huncharged, rfl⟩
  | addBuffer prototype maximum hcharge =>
      refine h.addObject rfl rfl (Ledger.charge_exchange h.within hcharge) fun b hb => ?_
      cases hb
      exact .inl (Buffer.charged_zeros _ maximum)
  | failBuffer hcharge => exact h.of_same rfl rfl (Ledger.release_of_charge h.within hcharge)
  | resize o length hb =>
      obtain ⟨hledger, hsound⟩ :=
        Buffer.resize_exchange h.within (h.sound hb) (h.charge_le hb) rfl
      exact h.setBuffer hb rfl rfl hledger hsound
  | detach o =>
      unfold detachBuffer
      split
      · exact h
      · next b hb =>
        exact h.setBuffer hb rfl rfl (Buffer.detach_exchange h.within (h.charge_le hb))
          (.inl (b.charged_detach _))
  | fill o position source =>
      unfold fillBuffer
      split
      · exact h
      · next b hb =>
        exact h.setBuffer hb rfl rfl (h.within.exchange _)
          ((h.sound hb).imp (Buffer.charged_overwrite position source).2 id)
  | reserve hreserve =>
      obtain ⟨ledger, hcharge, -, rfl⟩ := reserve_eq_ok hreserve
      exact h.addReservation (Ledger.charge_exchange h.within hcharge)
  | moveReservation hmove =>
      rcases moveReservation_eq_ok hmove with ⟨-, rfl⟩ | ⟨held, ledger, hheld, hmoved, rfl⟩
      · exact h
      · exact h.setReservation hheld
          (Ledger.move_exchange h.within (h.reservation_le hheld) hmoved)
  | dropReservation r =>
      unfold World.dropReservation
      split
      · exact h
      · next held hheld =>
        exact h.setReservation hheld
          (Ledger.release_exchange h.within (h.reservation_le hheld))
  | _ => exact h.of_same rfl rfl rfl

/-! ## Buffers that are charged -/

/-- An object is a buffer that is charged: it holds exactly the bytes of its block, and nothing once
it has none. -/
def IsCharged (w : World σ) (o : ObjectId) : Prop :=
  ∃ b, w.buffer? o = some b ∧ b.Charged

theorem isCharged_of_objects (hobjects : w'.objects = w.objects) {o : ObjectId}
    (h : w.IsCharged o) : w'.IsCharged o := by
  rwa [IsCharged, buffer?, object, hobjects]

theorem isCharged_modifyObject {o other : ObjectId} {f : Object → Object}
    (hobjects : w'.objects = (w.modifyObject o f).objects)
    (hf : ∀ b, w.buffer? o = some b → b.Charged →
      ∃ b', (f (w.object o)).buffer? = some b' ∧ b'.Charged)
    (h : w.IsCharged other) : w'.IsCharged other := by
  refine isCharged_of_objects hobjects ?_
  rw [IsCharged, buffer?, object_modifyObject]
  split
  · next heq =>
    obtain ⟨b, hb, hcharged⟩ := h
    rw [← heq.1] at hb ⊢
    exact hf b hb hcharged
  · exact h

theorem isCharged_frame {o other : ObjectId} {f : Object → Object}
    (hf : ∀ x, (f x).buffer? = x.buffer?) (h : w.IsCharged other) :
    (w.modifyObject o f).IsCharged other :=
  isCharged_modifyObject rfl (fun b hb hcharged => ⟨b, (hf _).trans hb, hcharged⟩) h

theorem isCharged_setBuffer {o other : ObjectId} {b b' : Buffer} (hb : w.buffer? o = some b)
    (hobjects : w'.objects = (w.setBuffer o b').objects) (hcharged : b.Charged → b'.Charged)
    (h : w.IsCharged other) : w'.IsCharged other := by
  refine isCharged_modifyObject hobjects (fun found hfound hfoundCharged => ?_) h
  cases hb.symm.trans hfound
  exact ⟨b', rfl, hcharged hfoundCharged⟩

theorem isCharged_addObject {new : Object} {o : ObjectId}
    (hobjects : w'.objects = (w.addObject new).2.objects) (h : w.IsCharged o) :
    w'.IsCharged o := by
  refine isCharged_of_objects hobjects ?_
  obtain ⟨b, hb, hcharged⟩ := h
  have hlt := index_lt_of_buffer hb
  refine ⟨b, ?_, hcharged⟩
  rw [buffer?, object_addObject, if_neg (Nat.ne_of_lt hlt)]
  exact hb

theorem isCharged_giveUp {o : ObjectId} (h : w.IsCharged o) (e : Entity) :
    (w.giveUp e).IsCharged o := by
  unfold giveUp
  split
  · split
    · next b hnature =>
      split
      · exact isCharged_setBuffer (buffer?_of_nature hnature) rfl
          (fun _ => b.charged_detach _) h
      · exact h
    · exact h
  · exact h
  · exact isCharged_of_objects rfl h

theorem isCharged_settle [Embedding σ] {o : ObjectId} (h : w.IsCharged o) :
    w.settle.IsCharged o :=
  settle_induction (motive := (·.IsCharged o)) h fun _ e h => isCharged_giveUp h e

/-- A charged buffer stays charged. -/
theorem isCharged_change [Embedding σ] (hchange : Change L w w') {o : ObjectId}
    (h : w.IsCharged o) : w'.IsCharged o := by
  cases hchange with
  | settle => exact isCharged_settle h
  | define o key update =>
      rw [define_eq]
      exact isCharged_frame (fun x => x.buffer?_defineQuietly key update) h
  | delete o key =>
      rw [delete_eq]
      exact isCharged_frame (fun x => x.buffer?_delete key) h
  | preventExtensions o => exact isCharged_frame (fun _ => rfl) h
  | addObject | addUncharged | addBuffer => exact isCharged_addObject rfl h
  | resize o length hb =>
      exact isCharged_setBuffer hb rfl
        (fun hcharged => Buffer.charged_resize hcharged length w.ledger w.memory) h
  | detach o =>
      unfold detachBuffer
      split
      · exact h
      · next b hb => exact isCharged_setBuffer hb rfl (fun _ => b.charged_detach _) h
  | fill o position source =>
      unfold fillBuffer
      split
      · exact h
      · next b hb =>
        exact isCharged_setBuffer hb rfl (Buffer.charged_overwrite position source).2 h
  | reserve hreserve =>
      obtain ⟨_, _, _, rfl⟩ := reserve_eq_ok hreserve
      exact isCharged_of_objects rfl h
  | moveReservation hmove =>
      rcases moveReservation_eq_ok hmove with ⟨_, rfl⟩ | ⟨_, _, _, _, rfl⟩ <;>
        exact isCharged_of_objects rfl h
  | dropReservation r =>
      unfold World.dropReservation
      split <;> exact isCharged_of_objects rfl h
  | _ => exact isCharged_of_objects rfl h

/-- Every run leaves charged what is charged, whatever the ledger counts. -/
theorem isCharged_guarantee [Embedding σ] (L : Licence) (o : ObjectId) :
    RunGuarantee L fun w w' : World σ => w.IsCharged o → w'.IsCharged o where
  refl _ := id
  trans huv hvw := hvw ∘ huv
  change hchange := isCharged_change hchange
  contexts _ _ := id

/-- If the first world is accounted for then so is the second, and what was charged still is. -/
def KeepsAccount (L : Licence) (N : UInt64) (w w' : World σ) : Prop :=
  w.Accounted L N → w'.Accounted L N ∧ ∀ {o}, w.IsCharged o → w'.IsCharged o

theorem keepsAccount_guarantee [Embedding σ] (L : Licence) (N : UInt64) :
    RunGuarantee L (KeepsAccount (σ := σ) L N) where
  refl _ h := ⟨h, id⟩
  trans huv hvw h := by
    obtain ⟨hv, hcharged⟩ := huv h
    obtain ⟨hw, hcharged'⟩ := hvw hv
    exact ⟨hw, fun ho => hcharged' (hcharged ho)⟩
  change hchange h := ⟨accounted_change h hchange, isCharged_change hchange⟩
  contexts _ _ h := ⟨h.of_same rfl rfl rfl, id⟩

/-- The world in which nothing has run yet is accounted for. -/
theorem accounted_start [Embedding σ] (L : Licence) (N : UInt64) (memory : Memory) (host : σ) :
    (start (some N) memory host).Accounted L N := by
  have hempty : (empty (some N) memory host).Accounted L N := by
    refine ⟨⟨rfl, UInt64.zero_le⟩, ?_, ?_⟩
    · simp [empty, Ledger.start, charge, total]
    · intro o b hb
      exact absurd (index_lt_of_buffer hb) (Nat.not_lt_zero _)
  obtain ⟨hrealm, -⟩ := (keepsAccount_guarantee L N).addRealm _ hempty
  unfold start
  generalize (empty (some N) memory host).addRealm = created at hrealm ⊢
  exact hrealm.of_same rfl rfl rfl

end World

end EcmaCore
