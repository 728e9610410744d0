import EcmaCore.Proofs.Program.HeapAccount

/-!
# Reservations on a heap without a limit

The ledger counts in words. On a heap with a limit it never has to count more than the
limit, which is a word itself. A heap without a limit refuses nothing: every reservation
and every move of one succeeds, also where the sum of all of them is beyond what a word
can count. There the sum of words wraps around, and what is given back later may be more
than the ledger counts.

So the count is exact for as long as what is held fits into a word, and it is wrong as soon
as it does not. Nothing else makes it wrong: no order of operations, no reservation that
is dropped, and nothing that is given up because nobody refers to it any more.

## Main results

* `World.countsHeld_settle`: what is given up is taken out of the count exactly.
* `HeapOperation.countsHeld_next`: an operation keeps the count exact if the sum fits.
* `HeapOperation.runAll_countsHeld`: so does every sequence of operations.
* `HeapOperation.runAll_loses_count`: two reservations of which the ledger counts one byte.
-/

namespace EcmaCore

namespace Ledger

variable {l : Ledger} {n held wanted : UInt64}

theorem toNat_charged (l : Ledger) (n : UInt64) :
    (l.charged n).allocated.toNat = (l.allocated.toNat + n.toNat) % UInt64.size :=
  UInt64.toNat_add _ _

/-- A ledger after a reservation was moved without asking. -/
def moved (l : Ledger) (held wanted : UInt64) : Ledger :=
  if held < wanted then l.charged (wanted - held) else l.release (held - wanted)

/-- A ledger without a limit charges whatever it is asked for. -/
theorem charge_of_unlimited (h : l.limit = none) (n : UInt64) : l.charge n = .ok (l.charged n) := by
  have hadmits : l.admits n = true := by
    rw [admits, h]
  rw [charge, if_pos hadmits, charged]

/-- And it moves every reservation. -/
theorem move_of_unlimited (h : l.limit = none) (held wanted : UInt64) :
    l.move held wanted = .ok (l.moved held wanted) := by
  rw [move, moved, charge_of_unlimited h]
  split <;> rfl

/-- Moving a reservation that is counted adds what it takes and subtracts what it gives back, if the
sum fits into a word. -/
theorem toNat_moved (hheld : held ≤ l.allocated) (wanted : UInt64) :
    (l.moved held wanted).allocated.toNat =
      (l.allocated.toNat - held.toNat + wanted.toNat) % UInt64.size := by
  have hcounted := UInt64.le_iff_toNat_le.1 hheld
  rw [moved]
  split
  · next hlt =>
    have hsub := UInt64.toNat_sub_of_le _ _ (UInt64.le_of_lt hlt)
    have hgrows := UInt64.lt_iff_toNat_lt.1 hlt
    rw [toNat_charged, hsub]
    congr 1
    omega
  · next hlt =>
    have hle := UInt64.not_lt.1 hlt
    have hsub := UInt64.toNat_sub_of_le _ _ hle
    have hshrinks := UInt64.le_iff_toNat_le.1 hle
    have hword : l.allocated.toNat < UInt64.size := l.allocated.toNat_lt
    rw [toNat_release, hsub, Nat.mod_eq_of_lt (by omega)]
    omega

/-- Such a move is plain arithmetic. -/
theorem countsMove_of_lt (hheld : held ≤ l.allocated)
    (hsum : l.allocated.toNat - held.toNat + wanted.toNat < UInt64.size) :
    l.CountsMove held wanted := by
  have hcounted := UInt64.le_iff_toNat_le.1 hheld
  refine ⟨fun hlt => .inr ?_, fun hge => ?_⟩
  · have hsub := UInt64.toNat_sub_of_le _ _ (UInt64.le_of_lt hlt)
    have hgrows := UInt64.lt_iff_toNat_lt.1 hlt
    omega
  · rw [UInt64.le_iff_toNat_le, UInt64.toNat_sub_of_le _ _ hge]
    omega

end Ledger

/-- What an object holds is what it gives back. -/
theorem Object.charge_eq_reserved (o : Object) : o.charge = o.reserved.toNat := by
  rw [charge, reserved]
  cases o.buffer? with
  | none => rfl
  | some b =>
      rw [Option.map_some, Option.getD_some, Option.bind_some, Buffer.charge]
      cases b.reserved <;> rfl

/-! ## The count of a world -/

namespace World

variable {σ : Type} {w w' : World σ}

/-- The ledger counts exactly what buffers and other reservations hold. -/
def CountsHeld (w : World σ) : Prop := w.ledger.allocated.toNat = w.charge

/-- What is counted fits into a word. -/
theorem CountsHeld.charge_lt (h : w.CountsHeld) : w.charge < UInt64.size := by
  rw [← h]
  exact w.ledger.allocated.toNat_lt

/-- One reservation is part of what is counted. -/
theorem CountsHeld.le_allocated (h : w.CountsHeld) {r : ReservationId} {held : UInt64}
    (hr : w.reservation r = some held) : held ≤ w.ledger.allocated := by
  obtain ⟨hlt, hentry⟩ := reservation_eq_some hr
  have hle := le_total Ledger.bytesOf w.reservations r.index hlt
  rw [hentry, Ledger.bytesOf_some] at hle
  rw [UInt64.le_iff_toNat_le, h, charge]
  omega

/-- Bytes that are reserved are held. -/
theorem charge_addReservation (w : World σ) (ledger : Ledger) (bytes : UInt64) :
    ({ w with ledger, reservations := w.reservations.push (some bytes) } : World σ).charge =
      w.charge + bytes.toNat := by
  rw [charge, charge]
  dsimp only
  rw [total_push, Ledger.bytesOf_some, Nat.add_assoc]

/-- A reservation that is replaced holds what it is replaced by. -/
theorem charge_setReservation {r : ReservationId} {held : UInt64} (hr : w.reservation r = some held)
    (ledger : Ledger) (next : Option UInt64) :
    ({ w with
        ledger
        reservations := w.reservations.setIfInBounds r.index next } : World σ).charge =
      w.charge - held.toNat + Ledger.bytesOf next := by
  obtain ⟨hlt, hentry⟩ := reservation_eq_some hr
  have htotal := total_setIfInBounds Ledger.bytesOf next w.reservations r.index hlt
  have hle := le_total Ledger.bytesOf w.reservations r.index hlt
  rw [hentry, Ledger.bytesOf_some] at htotal hle
  rw [charge, charge]
  dsimp only
  omega

/-! ## Giving up -/

/-- An object that is given up holds nothing any more. -/
theorem charge_giveUp_object (w : World σ) (o : ObjectId) :
    (w.giveUp (.object o)).charge + (w.object o).reserved.toNat = w.charge := by
  by_cases hlt : o.index < w.objects.size
  · have htotal := total_modify Object.charge Object.givenUp w.objects o.index hlt
    rw [← w.object_eq_getElem hlt, Object.charge_eq_reserved,
      (w.object o).isSpent_givenUp.charge_eq] at htotal
    rw [giveUp_object, charge, charge]
    dsimp only [modifyObject]
    omega
  · have hspent : (w.object o).IsSpent := by
      intro b hb
      rw [w.object_of_size_le (Nat.not_lt.1 hlt)] at hb
      cases hb
    rw [giveUp_object_of_isSpent hspent, hspent.reserved_eq]
    rfl

/-- Giving up an entity takes what it holds out of the count. -/
theorem countsHeld_giveUp (h : w.CountsHeld) (e : Entity) : (w.giveUp e).CountsHeld := by
  cases e with
  | object o =>
      have hcharge := w.charge_giveUp_object o
      rw [CountsHeld] at h ⊢
      have hledger : (w.giveUp (.object o)).ledger = w.ledger.release (w.object o).reserved := by
        rw [giveUp_object]
      rw [hledger, Ledger.toNat_release]
      omega
  | scope s => exact h
  | module m => exact h

/-- **What is given up is taken out of the count exactly.** -/
theorem countsHeld_settle [Embedding σ] (h : w.CountsHeld) : w.settle.CountsHeld :=
  settle_induction (motive := CountsHeld) h fun _ e h => countsHeld_giveUp h e

/-- Settling does not touch the limit. -/
theorem limit_settle [Embedding σ] (w : World σ) : w.settle.ledger.limit = w.ledger.limit := by
  rw [settle_eq]
  apply foldl_giveUp_eq (·.ledger.limit)
  intro e _ w'
  cases e with
  | object o => rw [giveUp_object]; rfl
  | scope s => rfl
  | module m => rfl

/-! ## The start -/

/-- A world with another ledger. -/
def withLedger (w : World σ) (ledger : Ledger) : World σ := { w with ledger }

theorem define_withLedger (w : World σ) (ledger : Ledger) (o : ObjectId) (key : PropertyKey)
    (update : PropertyUpdate) :
    ((w.withLedger ledger).define o key update).2 =
      (w.define o key update).2.withLedger ledger := by
  rw [define_eq, define_eq]
  rfl

theorem addFixtures_withLedger (w : World σ) (ledger : Ledger) (o functionPrototype : ObjectId)
    (fixtures : List Fixture) :
    (w.withLedger ledger).addFixtures o functionPrototype fixtures =
      (w.addFixtures o functionPrototype fixtures).withLedger ledger := by
  induction fixtures generalizing w with
  | nil => rfl
  | cons fixture fixtures ih =>
      have hfixture : (w.withLedger ledger).addFixture o functionPrototype fixture =
          (w.addFixture o functionPrototype fixture).withLedger ledger := by
        cases fixture with
        | method | getter => exact define_withLedger (w.addObject _).2 ledger _ _ _
        | property | readonly | constant => exact define_withLedger w ledger _ _ _
      rw [addFixtures, List.foldl_cons, hfixture]
      exact ih _

/-- A realm is set up without a look at the ledger. -/
theorem addRealm_withLedger (w : World σ) (ledger : Ledger) :
    (w.withLedger ledger).addRealm = (w.addRealm.1, w.addRealm.2.withLedger ledger) := by
  have hobject (w : World σ) (new : Object) : (w.withLedger ledger).addObject new =
      ((w.addObject new).1, (w.addObject new).2.withLedger ledger) := rfl
  have hscope (w : World σ) (record : Record) (outer : Option ScopeId) :
      (w.withLedger ledger).addScope record outer =
        ((w.addScope record outer).1, (w.addScope record outer).2.withLedger ledger) := rfl
  simp only [addRealm, hobject, hscope, addFixtures_withLedger]

/-- A heap without a limit on which nothing has run yet counts nothing, and nothing is held. -/
theorem ledger_start [Embedding σ] (memory : Memory) (host : σ) :
    (start none memory host).ledger = .start none ∧ (start none memory host).charge = 0 := by
  -- a heap of no bytes has the same objects, and its account says that they hold nothing
  have haccount := accounted_start .all 0 memory host
  have hbounded := UInt64.le_iff_toNat_le.1 haccount.within.bounded
  have hstart : start none memory host = (start (some 0) memory host).withLedger (.start none) := by
    have hrealm := addRealm_withLedger (empty (some 0) memory host) (.start none)
    have hempty : empty none memory host =
      (empty (some 0) memory host).withLedger (.start none) := rfl
    rw [start, start, hempty, hrealm]
    rfl
  have hcharge (w : World σ) (ledger : Ledger) : (w.withLedger ledger).charge = w.charge := rfl
  rw [hstart, hcharge, ← haccount.exact]
  exact ⟨rfl, Nat.le_zero.1 hbounded⟩

end World

/-! ## Operations on the heap -/

/-- An operation on the heap itself: a reservation, a move of one, or its end. -/
inductive HeapOperation where
  | reserve (bytes : UInt64)
  | resize (r : ReservationId) (bytes : UInt64)
  | drop (r : ReservationId)

namespace HeapOperation

/-- The request for an operation. -/
def request : HeapOperation → Request
  | reserve bytes => .reserve bytes
  | resize r bytes => .moveReservation r bytes
  | drop r => .dropReservation r

variable {σ : Type} [Embedding σ]

/-- Carries out an operation. -/
def run (E : Engine σ) (operation : HeapOperation) : Action σ Answer :=
  operation.request.perform E

/-- The world after operations in turn. -/
def runAll (E : Engine σ) (operations : List HeapOperation) (w : World σ) : World σ :=
  operations.foldl (fun w operation => (operation.run E).after w) w

/-- What an operation answers and leaves on a heap without a limit. -/
def next (w : World σ) : HeapOperation → Answer × World σ
  | reserve bytes =>
      let w := w.settle
      (.reservation ⟨w.reservations.size⟩,
        { w with
          ledger := w.ledger.charged bytes
          reservations := w.reservations.push (some bytes) })
  | resize r bytes =>
      let w := w.settle
      match w.reservation r with
      | none => (.done, w)
      | some held =>
          (.done,
            { w with
              ledger := w.ledger.moved held bytes
              reservations := w.reservations.setIfInBounds r.index (some bytes) })
  | drop r => (.done, w.dropReservation r)

/-- The arithmetic of an operation is plain: no sum is beyond a word, and no more is given back than
is counted. -/
def Plain (w : World σ) : HeapOperation → Prop
  | reserve bytes => w.settle.ledger.Counts bytes
  | resize r bytes =>
      ∀ held, w.settle.reservation r = some held → w.settle.ledger.CountsMove held bytes
  | drop r => ∀ held, w.reservation r = some held → held ≤ w.ledger.allocated

variable {w : World σ}

/-- **On a heap without a limit every operation succeeds.** -/
theorem run_eq (E : Engine σ) (hlimit : w.ledger.limit = none) (operation : HeapOperation) :
    operation.run E w = .ok (operation.next w).1 (operation.next w).2 := by
  have hsettled : w.settle.ledger.limit = none := w.limit_settle.trans hlimit
  cases operation with
  | reserve bytes =>
      have hreserve : w.settle.reserve bytes =
          .ok (⟨w.settle.reservations.size⟩, (next w (reserve bytes)).2) := by
        rw [World.reserve, Ledger.charge_of_unlimited hsettled]
        rfl
      refine Action.holding_nil ?_ w.survives_settle.held
      rw [request, Request.execute, Action.settle, Action.bind_ok (Action.modify_apply _ w),
        Action.bind_ok (Action.attempt_ok hreserve)]
      rfl
  | resize r bytes =>
      have hnext : (next w (resize r bytes)).1 = .done ∧
          (next w (resize r bytes)).2.held = w.held ∧
          w.settle.moveReservation r bytes = .ok (next w (resize r bytes)).2 := by
        unfold World.moveReservation next
        dsimp only
        cases w.settle.reservation r with
        | none => exact ⟨rfl, w.survives_settle.held, rfl⟩
        | some held =>
            refine ⟨rfl, w.survives_settle.held, ?_⟩
            dsimp only
            rw [Ledger.move_of_unlimited hsettled]
            rfl
      obtain ⟨hanswer, hheld, hmove⟩ := hnext
      have hattempt : (w.settle.moveReservation r bytes).map (fun w => ((), w)) =
          .ok ((), (next w (resize r bytes)).2) := by
        rw [hmove]
        rfl
      refine Action.holding_nil ?_ hheld
      rw [request, Request.execute, Action.settle, Action.bind_ok (Action.modify_apply _ w),
        Action.bind_ok (Action.attempt_ok hattempt), hanswer]
      rfl
  | drop r =>
      refine Action.holding_nil rfl ?_
      unfold next World.dropReservation
      dsimp only
      split <;> rfl

/-- A heap without a limit stays one. -/
theorem limit_next (hlimit : w.ledger.limit = none) (operation : HeapOperation) :
    (operation.next w).2.ledger.limit = none := by
  have hsettled : w.settle.ledger.limit = none := w.limit_settle.trans hlimit
  cases operation with
  | reserve bytes => exact hsettled
  | resize r bytes =>
      unfold next
      dsimp only
      split
      · exact hsettled
      · unfold Ledger.moved
        dsimp only
        split <;> exact hsettled
  | drop r =>
      unfold next World.dropReservation
      dsimp only
      split <;> exact hlimit

/-- **An operation leaves an exact count exact if the sum fits into a word**, and its arithmetic is
plain then. -/
theorem countsHeld_next (h : w.CountsHeld) (operation : HeapOperation)
    (hfits : (operation.next w).2.charge < UInt64.size) :
    (operation.next w).2.CountsHeld ∧ operation.Plain w := by
  have hsettled := World.countsHeld_settle h
  cases operation with
  | reserve bytes =>
      have hcharge := w.settle.charge_addReservation (w.settle.ledger.charged bytes) bytes
      have hsum : w.settle.ledger.allocated.toNat + bytes.toNat < UInt64.size := by
        rw [hsettled, ← hcharge]
        exact hfits
      refine ⟨?_, .inr hsum⟩
      refine Eq.trans ?_ hcharge.symm
      rw [← hsettled]
      exact (Ledger.toNat_charged _ _).trans (Nat.mod_eq_of_lt hsum)
  | resize r bytes =>
      unfold next at hfits ⊢
      unfold Plain
      dsimp only at hfits ⊢
      cases hr : w.settle.reservation r with
      | none => exact ⟨hsettled, nofun⟩
      | some held =>
          rw [hr] at hfits
          dsimp only at hfits ⊢
          have hheld := hsettled.le_allocated hr
          rw [World.charge_setReservation hr, ← hsettled, Ledger.bytesOf_some] at hfits
          refine ⟨?_, ?_⟩
          · rw [World.CountsHeld, World.charge_setReservation hr, ← hsettled, Ledger.bytesOf_some]
            exact (Ledger.toNat_moved hheld bytes).trans (Nat.mod_eq_of_lt hfits)
          · rintro held' ⟨⟩
            exact Ledger.countsMove_of_lt hheld hfits
  | drop r =>
      unfold next World.dropReservation
      unfold Plain
      dsimp only
      cases hr : w.reservation r with
      | none => exact ⟨h, nofun⟩
      | some held =>
          refine ⟨?_, ?_⟩
          · rw [World.CountsHeld, World.charge_setReservation hr, ← h, Ledger.bytesOf_none]
            exact Ledger.toNat_release _ _
          · rintro held' ⟨⟩
            exact h.le_allocated hr

/-! ## Sequences of operations -/

theorem runAll_concat (E : Engine σ) (operations : List HeapOperation) (operation : HeapOperation)
    (w : World σ) :
    runAll E (operations ++ [operation]) w = (operation.run E).after (runAll E operations w) := by
  rw [runAll, List.foldl_append]
  rfl

/-- On a heap without a limit, one more operation leaves what it leaves. -/
theorem runAll_take_succ (E : Engine σ) (hlimit : w.ledger.limit = none)
    (operations : List HeapOperation) :
    ∀ k, (runAll E (operations.take k) w).ledger.limit = none ∧ ∀ hk : k < operations.length,
      runAll E (operations.take (k + 1)) w =
        (operations[k].next (runAll E (operations.take k) w)).2 := by
  have hstep (k : Nat) (hunlimited : (runAll E (operations.take k) w).ledger.limit = none)
      (hk : k < operations.length) : runAll E (operations.take (k + 1)) w =
        (operations[k].next (runAll E (operations.take k) w)).2 := by
    rw [List.take_succ_eq_append_getElem hk, runAll_concat,
      Action.after_of_ok (run_eq E hunlimited _)]
  intro k
  induction k with
  | zero => exact ⟨hlimit, hstep 0 hlimit⟩
  | succ k ih =>
      have hunlimited : (runAll E (operations.take (k + 1)) w).ledger.limit = none := by
        by_cases hk : k < operations.length
        · rw [ih.2 hk]
          exact limit_next ih.1 _
        · rw [List.take_of_length_le (by omega)]
          rw [List.take_of_length_le (by omega)] at ih
          exact ih.1
      exact ⟨hunlimited, hstep (k + 1) hunlimited⟩

/-- A heap without a limit that counts exactly what is held goes on to do so after each operation
exactly if what is held fits into a word after each of them. -/
theorem runAll_of_unlimited (E : Engine σ) (hlimit : w.ledger.limit = none) (h : w.CountsHeld)
    (operations : List HeapOperation) :
    let before (k : Nat) := runAll E (operations.take k) w
    (∀ k (hk : k < operations.length), ∃ answer,
      operations[k].run E (before k) = .ok answer (before (k + 1))) ∧
    ((∀ k ≤ operations.length, (before k).CountsHeld) ↔
      ∀ k ≤ operations.length, (before k).charge < UInt64.size) ∧
    ((∀ k ≤ operations.length, (before k).charge < UInt64.size) →
      ∀ k (hk : k < operations.length), operations[k].Plain (before k)) := by
  intro before
  have hlimited (k : Nat) : (before k).ledger.limit = none :=
    (runAll_take_succ E hlimit operations k).1
  have hnext (k : Nat) (hk : k < operations.length) :
      before (k + 1) = (operations[k].next (before k)).2 :=
    (runAll_take_succ E hlimit operations k).2 hk
  have hcounts (hfits : ∀ k ≤ operations.length, (before k).charge < UInt64.size) :
      ∀ k ≤ operations.length, (before k).CountsHeld := by
    intro k hk
    induction k with
    | zero => exact h
    | succ k ih =>
        have hlast := hfits (k + 1) hk
        rw [hnext k hk] at hlast ⊢
        exact (countsHeld_next (ih (Nat.le_of_succ_le hk)) _ hlast).1
  refine ⟨fun k hk => ⟨(operations[k].next (before k)).1, ?_⟩,
    ⟨fun hexact k hk => (hexact k hk).charge_lt, hcounts⟩, fun hfits k hk => ?_⟩
  · rw [hnext k hk]
    exact run_eq E (hlimited k) _
  · have hlast := hfits (k + 1) hk
    rw [hnext k hk] at hlast
    exact (countsHeld_next (hcounts hfits k (Nat.le_of_lt hk)) _ hlast).2

/-- **The count of a heap without a limit.** Take a heap without a limit on which nothing has run
yet, and any sequence of reservations, moves of reservations and drops. Every operation succeeds.
The count is exact after each of them exactly if what is held fits into a word after each of them;
and then no sum on the way is beyond a word, and no more is given back than is counted. -/
theorem runAll_countsHeld (E : Engine σ) (memory : Memory) (host : σ)
    (operations : List HeapOperation) :
    let before (k : Nat) := runAll E (operations.take k) (World.start none memory host)
    (∀ k (hk : k < operations.length), ∃ answer,
      operations[k].run E (before k) = .ok answer (before (k + 1))) ∧
    ((∀ k ≤ operations.length, (before k).CountsHeld) ↔
      ∀ k ≤ operations.length, (before k).charge < UInt64.size) ∧
    ((∀ k ≤ operations.length, (before k).charge < UInt64.size) →
      ∀ k (hk : k < operations.length), operations[k].Plain (before k)) := by
  obtain ⟨hledger, hcharge⟩ := World.ledger_start memory host
  have hlimit : (World.start none memory host).ledger.limit = none := by rw [hledger]; rfl
  have hcounts : (World.start none memory host).CountsHeld := by
    rw [World.CountsHeld, hledger, hcharge]
    rfl
  exact runAll_of_unlimited E hlimit hcounts operations

/-- A reservation of all the bytes that a word can count, and one of two more: both succeed, and the
ledger counts one byte. -/
theorem runAll_loses_count :
    let start : World Unit := World.start none (.below 100) ()
    let E : Engine Unit := .exhausted
    let full := runAll E [.reserve 18446744073709551615] start
    (match (reserve 2).run E full with
      | .ok (.reservation r) w => some (r, w.ledger.allocated, w.charge)
      | _ => none) = some (⟨1⟩, 1, 18446744073709551617) := by
  decide +kernel

end HeapOperation

end EcmaCore
