import EcmaCore.Proofs.World.Accounted
import EcmaCore.Proofs.World.Buffers

/-!
# The account of a limited heap

A program that starts on an empty heap with a limit ends, whatever it does and
whichever way it ends, in a world whose ledger counts exactly the bytes that are
held. What the ledger is asked for and what it is given back then behaves like plain
arithmetic: a reservation succeeds exactly when the bytes are available, giving back
what is held never cuts off below zero, and a charge that is taken back leaves no
trace.

## Main results

* `Engine.isCharged_allocateBuffer`: an allocated buffer holds what its block needs.
* `World.reservation_dropReservation`, `World.reservation_moveReservation`: what becomes of the
  entries for reservations.
* `Program.runScript_accounted`: the account at the end of a run.
-/

namespace EcmaCore

variable {σ α : Type} {L : Licence} {N : UInt64} {w w' : World σ}

/-- An allocated buffer holds what its block needs. -/
theorem Engine.isCharged_allocateBuffer [Embedding σ] {E : Engine σ} {constructor o : ObjectId}
    {length : UInt64} {maximum : Option UInt64}
    (h : E.allocateBuffer constructor length maximum w = .ok o w') : w'.IsCharged o :=
  ⟨_, (allocateBuffer_eq_ok h).2, Buffer.charged_zeros length maximum⟩

/-! ## Entries for reservations -/

namespace World

variable {r : ReservationId} {held bytes : UInt64}

/-- Giving up what nothing refers to leaves all entries as they are. -/
theorem reservation_settle [Embedding σ] (w : World σ) (r : ReservationId) :
    w.settle.reservation r = w.reservation r := by
  have hsame : w.settle.reservations = w.reservations := by
    refine settle_induction (motive := fun u => u.reservations = w.reservations) rfl fun u e h => ?_
    cases e with
    | object o =>
        rw [giveUp_object]
        exact h
    | scope s => exact h
    | module m => exact h
  rw [reservation, hsame, reservation]

/-- Replacing the entry of one reservation. -/
theorem reservation_set (hr : w.reservation r = some held) (ledger : Ledger)
    (entry : Option UInt64) (x : ReservationId) :
    ({ w with ledger, reservations := w.reservations.setIfInBounds r.index entry } :
      World σ).reservation x = if x = r then entry else w.reservation x := by
  obtain ⟨hlt, -⟩ := reservation_eq_some hr
  obtain ⟨i⟩ := x
  obtain ⟨j⟩ := r
  by_cases hij : i = j
  · subst hij
    simp [reservation, hlt]
  · simp [reservation, Array.getD_eq_getD_getElem?, hij, Ne.symm hij]

/-- A reservation that is dropped has no entry any more. -/
theorem reservation_dropReservation (w : World σ) (r x : ReservationId) :
    (w.dropReservation r).reservation x = if x = r then none else w.reservation x := by
  unfold dropReservation
  cases hr : w.reservation r with
  | none =>
      dsimp only
      split
      · next heq => rw [heq, hr]
      · rfl
  | some held => exact reservation_set hr _ none x

/-- The entry of a reservation that is moved is the new number of bytes, unless it was dropped. -/
theorem reservation_moveReservation (h : w.moveReservation r bytes = .ok w')
    (x : ReservationId) :
    w'.reservation x =
      if x = r then (w.reservation r).map fun _ => bytes else w.reservation x := by
  rcases moveReservation_eq_ok h with ⟨hr, rfl⟩ | ⟨held, ledger, hr, -, rfl⟩
  · split
    · next heq =>
      rw [heq, hr]
      rfl
    · rfl
  · rw [hr]
    exact reservation_set hr ledger (some bytes) x

end World

/-- A request to drop a reservation drops it. -/
theorem Request.perform_dropReservation [Embedding σ] (E : Engine σ) (w : World σ)
    (r : ReservationId) :
    (Request.dropReservation r).perform E w = .ok .done (w.dropReservation r) := by
  refine Action.holding_nil rfl ?_
  unfold World.dropReservation
  split <;> rfl

/-- A request to move a reservation that is granted moves it. -/
theorem Request.reservation_moveReservation [Embedding σ] {E : Engine σ} {r : ReservationId}
    {bytes : UInt64} {answer : Answer}
    (h : (Request.moveReservation r bytes).perform E w = .ok answer w') (x : ReservationId) :
    w'.reservation x =
      if x = r then (w.reservation r).map fun _ => bytes else w.reservation x := by
  obtain ⟨u, hrun, rfl⟩ := Action.holding_eq_ok h
  obtain ⟨_, settled, hsettle, hrun⟩ := Action.bind_eq_ok.1 hrun
  cases hsettle
  obtain ⟨_, moved, hmove, hrun⟩ := Action.bind_eq_ok.1 hrun
  cases hrun
  let v : World σ := { w with held := (Request.moveReservation r bytes).operands ++ w.held }
  have hmoved : (v.settle.moveReservation r bytes).map (fun w => ((), w)) = .ok ((), u) :=
    Action.attempt_eq_ok.1 hmove
  cases hnext : v.settle.moveReservation r bytes with
  | error e =>
      rw [hnext] at hmoved
      cases hmoved
  | ok next =>
      rw [hnext] at hmoved
      cases hmoved
      have hentry := World.reservation_moveReservation hnext x
      rw [v.reservation_settle, v.reservation_settle] at hentry
      exact hentry

/-- A request for a reservation succeeds exactly when the bytes are available. -/
theorem Request.reserve_iff [Embedding σ] (E : Engine σ) (h : w.settle.Accounted L N) (n : UInt64) :
    (∃ answer w', (Request.reserve n).perform E w = .ok answer w') ↔
      ∃ available, w.settle.ledger.available = some available ∧ n ≤ available := by
  have hworld : ({ w with held := (Request.reserve n).operands ++ w.held } : World σ) = w := rfl
  have hexecute : (Request.reserve n).execute E w =
      (do return Answer.reservation (← Action.attempt (·.reserve n)) : Action σ Answer) w.settle :=
    Action.bind_ok (Action.modify_apply World.settle w)
  rw [← Ledger.exists_charge_iff h.within, perform, Action.holding_apply, hworld, hexecute]
  constructor
  · rintro ⟨answer, w', hrun⟩
    cases hreserve : w.settle.reserve n with
    | ok reserved =>
        obtain ⟨ledger, hcharge, -, -⟩ := World.reserve_eq_ok hreserve
        exact ⟨ledger, hcharge⟩
    | error e =>
        rw [Action.bind_error (Action.attempt_error hreserve)] at hrun
        cases hrun
  · rintro ⟨ledger, hcharge⟩
    have hreserve : w.settle.reserve n = .ok (⟨w.settle.reservations.size⟩,
        { w.settle with ledger, reservations := w.settle.reservations.push (some n) }) := by
      rw [World.reserve, hcharge]
      rfl
    rw [Action.bind_ok (Action.attempt_ok hreserve)]
    exact ⟨_, _, rfl⟩

/-- An object of which nothing is left to give up holds nothing. -/
theorem Object.IsSpent.charge_eq {o : Object} (h : o.IsSpent) : o.charge = 0 := by
  rw [charge]
  cases hb : o.buffer? with
  | none => rfl
  | some b => rw [Option.map_some, Option.getD_some, Buffer.charge, h b hb, Ledger.bytesOf_none]

namespace World.Accounted

/-- Giving back what a buffer holds does not cut off below zero. -/
theorem release_buffer (h : w.Accounted L N) {o : ObjectId} {b : Buffer} {held : UInt64}
    (hb : w.buffer? o = some b) (hheld : b.reserved = some held) :
    (w.ledger.release held).allocated.toNat + held.toNat = w.ledger.allocated.toNat := by
  have hle := h.charge_le hb
  rw [Buffer.charge, hheld, Ledger.bytesOf_some] at hle
  exact (Ledger.release_exchange h.within (UInt64.le_iff_toNat_le.2 hle)).exact

/-- Giving back what a reservation holds does not cut off below zero. -/
theorem release_reservation (h : w.Accounted L N) {r : ReservationId} {held : UInt64}
    (hr : w.reservation r = some held) :
    (w.ledger.release held).allocated.toNat + held.toNat = w.ledger.allocated.toNat :=
  (Ledger.release_exchange h.within (h.reservation_le hr)).exact

end World.Accounted

/-- What a run that starts on an empty heap with a limit ends in, whether it ends with a result,
with an error or without an answer, and whichever requests for memory were granted. -/
theorem Program.runScript_accounted [Embedding σ] (P : Program σ) (budget : Nat)
    (script : Script σ α) (N : UInt64) (memory : Memory) (host : σ) :
    let w := (P.runScript budget script).after (World.start (some N) memory host)
    -- the ledger counts exactly what is held and respects the limit, before and after drops
    (w.Accounted .all N ∧ w.settle.Accounted .all N) ∧
    -- without uncharged buffers every buffer holds exactly the bytes of its block
    (P.AllRequests (·.Admitted .charged) → script.AllRequests (·.Admitted .charged) →
      ∀ o b, w.buffer? o = some b → b.Charged) ∧
    -- with them, a buffer that was allocated still does, whatever runs later
    (∀ depth constructor length maximum o w₁,
      (P.engine depth).allocateBuffer constructor length maximum w = .ok o w₁ →
        ∀ depth' (later : Script σ Unit), ((P.runScript depth' later).after w₁).IsCharged o) ∧
    -- giving back what is held does not cut off below zero
    (∀ o b held, w.buffer? o = some b → b.reserved = some held →
      (w.ledger.release held).allocated.toNat + held.toNat = w.ledger.allocated.toNat) ∧
    (∀ r held, w.reservation r = some held →
      (w.ledger.release held).allocated.toNat + held.toNat = w.ledger.allocated.toNat) ∧
    -- a reservation that is dropped has no entry any more, and one that is moved has a new one
    (∀ depth r, ∃ w', (Request.dropReservation r).perform (P.engine depth) w = .ok .done w' ∧
      ∀ x, w'.reservation x = if x = r then none else w.reservation x) ∧
    (∀ depth r bytes answer w',
      (Request.moveReservation r bytes).perform (P.engine depth) w = .ok answer w' →
        ∀ x, w'.reservation x =
          if x = r then (w.reservation r).map fun _ => bytes else w.reservation x) ∧
    -- a charge that is taken back leaves no trace
    (∀ n charged, w.ledger.charge n = .ok charged → charged.release n = w.ledger) ∧
    -- a reservation succeeds exactly when the bytes are available
    (∀ depth n, (∃ answer w', (Request.reserve n).perform (P.engine depth) w = .ok answer w') ↔
      ∃ available, w.settle.ledger.available = some available ∧ n ≤ available) ∧
    -- what nothing refers to any more holds nothing, and everything else is as it was
    (∀ o, w.Departs (Embedding.roots w.host) (.object o) → (w.settle.object o).charge = 0) ∧
    (∀ o, ¬w.Departs (Embedding.roots w.host) (.object o) → w.settle.object o = w.object o) := by
  intro w
  have hall (code : CodeId) (entry : Entry) : (P code entry).AllRequests (·.Admitted .all) :=
    Script.allRequests_of Request.admitted_all _
  have haccounted : w.Accounted .all N :=
    ((World.keepsAccount_guarantee .all N).runScript hall budget
      (Script.allRequests_of Request.admitted_all script) _
      (World.accounted_start .all N memory host)).1
  refine ⟨⟨haccounted, World.accounted_settle haccounted⟩, ?_, ?_, ?_, ?_, ?_, ?_, ?_, ?_, ?_, ?_⟩
  · intro hP hscript o b hb
    have hcharged : w.Accounted .charged N :=
      ((World.keepsAccount_guarantee .charged N).runScript hP budget hscript _
        (World.accounted_start .charged N memory host)).1
    exact (hcharged.sound hb).resolve_right And.left
  · intro depth constructor length maximum o w₁ hallocate depth' later
    have hguarantee : RunGuarantee .all (World.KeepsAccount (σ := σ) .all N) :=
      World.keepsAccount_guarantee .all N
    have hallocated := (hguarantee.allocateBuffer (hguarantee.engine hall depth) constructor length
      maximum).of_ok hallocate haccounted
    have hlater := hguarantee.runScript hall depth'
      (Script.allRequests_of Request.admitted_all later) w₁
    exact (hlater hallocated.1).2 (Engine.isCharged_allocateBuffer hallocate)
  · intro o b held hb hheld
    exact haccounted.release_buffer hb hheld
  · intro r held hr
    exact haccounted.release_reservation hr
  · intro depth r
    exact ⟨_, Request.perform_dropReservation _ w r, w.reservation_dropReservation r⟩
  · intro depth r bytes answer w' hmove x
    exact Request.reservation_moveReservation hmove x
  · intro n charged hcharge
    exact Ledger.release_of_charge haccounted.within hcharge
  · intro depth n
    exact Request.reserve_iff _ (World.accounted_settle haccounted) n
  · intro o hdeparts
    exact (World.isSpent_settle hdeparts).charge_eq
  · intro o hkept
    exact World.object_settle hkept

/-- Eight bytes are allocated on a heap of sixteen: the ledger counts them, and every buffer holds
the bytes of its block. -/
theorem Program.runScript_accounted_allocation :
    let start : World Unit := World.start (some 16) (.below 100) ()
    let P : Program Unit := fun _ _ => .done .undefined
    let script : Script Unit Unit :=
      .ask (.allocateBuffer start.realm.arrayBuffer 8 none) fun _ => .done ()
    let w := (P.runScript 3 script).after start
    w.ledger.allocated = 8 ∧ ∀ o b, w.buffer? o = some b → b.Charged := by
  intro start P script w
  have hP : P.AllRequests (·.Admitted .charged) := fun _ _ => trivial
  have hscript : script.AllRequests (·.Admitted .charged) := ⟨trivial, fun _ => trivial⟩
  have haccount := P.runScript_accounted 3 script 16 (.below 100) ()
  have hallocated : w.ledger.allocated = 8 := by decide +kernel
  exact ⟨hallocated, haccount.2.1 hP hscript⟩

end EcmaCore
