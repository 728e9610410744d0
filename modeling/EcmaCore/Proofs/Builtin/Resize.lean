import EcmaCore.Proofs.Program.BufferLife
import EcmaCore.Proofs.Program.HeapAccount
import EcmaCore.Proofs.World.Held

/-!
# Resizing is all or nothing

A resize converts its length first, which may run any code, and then looks at the buffer as
this code has left it. The buffer may refuse the length; the ledger may refuse the growth; or
there is no block to be had, after the growth was charged. Each time everything is as before,
the charge included. `ResizeOutcome` lists these ways to end and the one way to end well.

What the ledger counts afterwards is what the buffer holds more or less, as long as it counts
the move right. A ledger with a limit always does.

## Main results

* `Engine.resizeConverted_outcome`: how a resize ends once it has its length.
* `Engine.bufferResize_eq`: what comes before.
* `Program.bufferResize_spec`: all of it, for the buffers that were allocated.
* `Program.bufferResize_loses_count`: a heap without a limit that counts nothing afterwards.
-/

namespace EcmaCore

variable {σ : Type}

/-- A buffer can be given a length: it is attached and resizable, and the length is within its
maximum. -/
def Buffer.CanHave (b : Buffer) (length : UInt64) : Prop :=
  b.isDetached = false ∧ ∃ maximum, b.maximum = some maximum ∧ length ≤ maximum

namespace Engine

variable [Embedding σ] {E : Engine σ} {w u : World σ} {o : ObjectId} {b : Buffer} {length : UInt64}

/-- What is left to do of a resize once the length is converted. -/
def resizeConverted (o : ObjectId) (length : UInt64) : Action σ Value := do
  let (_, b) ← thisBuffer (.object o) "resize"
  if b.isDetached then Action.fail (.detachedReceiver "resize")
  else
    match b.maximum with
    | none => Action.fail .resizeMethodFixed
    | some maximum =>
        if maximum < length then Action.fail (.resizeMethodBeyondMaximum length maximum)
        else
          resizeBuffer o length
          return .undefined

/-- How a resize to a length ends in a world in which the object is a buffer: the buffer refuses the
length; or the ledger refuses the growth, in the settled world; or the block is not granted, and the
growth is given back; or the reservation is moved and the bytes are fitted to the length. -/
inductive ResizeOutcome (o : ObjectId) (b : Buffer) (length : UInt64) (u : World σ) :
    EStateM.Result Failure (World σ) Value → Prop
  | refused (e : Error) (h : ¬b.CanHave length) : ResizeOutcome o b length u (.error (.thrown e) u)
  | overLimit {e : Error} (h : b.CanHave length)
      (hmove : u.settle.ledger.move b.length length = .error e) :
      ResizeOutcome o b length u (.error (.thrown e) u.settle)
  | noBlock {moved : Ledger} (h : b.CanHave length)
      (hmove : u.settle.ledger.move b.length length = .ok moved) (hgrows : b.length < length)
      (hnext : u.settle.memory.next length = false) :
      ResizeOutcome o b length u
        (.error (.thrown (.allocationFailed length))
          { u.settle with
            ledger := moved.release (length - b.length)
            memory := u.settle.memory.advance })
  | resized {bytes : List UInt8} {moved : Ledger} (memory : Memory) (h : b.CanHave length)
      (hblock : b.block = some bytes)
      (hmove : u.settle.ledger.move b.length length = .ok moved)
      (hnext : b.length < length → u.settle.memory.next length = true) :
      ResizeOutcome o b length u
        (.ok .undefined
          { u.settle.setBuffer o
              { b with
                block := some (Buffer.fit bytes length.toNat)
                reserved := some length } with
            ledger := moved
            memory })

/-- A resize with its length ends in one of the ways that are listed, if the buffer is charged and
held on to. -/
theorem resizeConverted_outcome (hbuffer : u.buffer? o = some b) (hshared : b.shared = false)
    (hcharged : b.Charged) (hheld : .object o ∈ u.held) (length : UInt64) :
    ResizeOutcome o b length u (resizeConverted o length u) := by
  have hsettled : u.settle.buffer? o = some b := by
    rw [World.buffer?, World.object_settle_of_held hheld]
    exact hbuffer
  unfold resizeConverted
  rw [Action.bind_ok (thisBuffer_apply _ hbuffer hshared)]
  dsimp only
  by_cases hdetached : b.isDetached = true
  · rw [if_pos hdetached]
    refine .refused _ fun hcan => ?_
    cases hdetached.symm.trans hcan.1
  · rw [if_neg hdetached]
    cases hmaximum : b.maximum with
    | none =>
        refine .refused _ ?_
        rintro ⟨-, _, hsome, -⟩
        cases hmaximum.symm.trans hsome
    | some maximum =>
        dsimp only
        by_cases hbeyond : maximum < length
        · rw [if_pos hbeyond]
          refine .refused _ ?_
          rintro ⟨-, _, hsome, hle⟩
          cases hmaximum.symm.trans hsome
          exact UInt64.not_lt.2 hle hbeyond
        · rw [if_neg hbeyond]
          have hle := UInt64.not_lt.1 hbeyond
          have hattached := Bool.eq_false_iff.2 hdetached
          have hcan : b.CanHave length := ⟨hattached, maximum, hmaximum, hle⟩
          obtain ⟨bytes, hblock⟩ := Buffer.exists_block hattached
          have hrun := resizeBuffer_eq hsettled length
          rw [Buffer.resize_of_charged hcharged hblock hmaximum hle] at hrun
          cases hmove : u.settle.ledger.move b.length length with
          | error e =>
              rw [hmove] at hrun
              dsimp only at hrun
              rw [World.setBuffer_self hsettled] at hrun
              rw [Action.bind_error hrun]
              exact .overLimit hcan hmove
          | ok moved =>
              rw [hmove] at hrun
              dsimp only at hrun
              by_cases hfails :
                  (decide (b.length < length) && !u.settle.memory.next length) = true
              · rw [if_pos hfails] at hrun
                dsimp only at hrun
                rw [World.setBuffer_self hsettled] at hrun
                rw [Action.bind_error hrun]
                rw [Bool.and_eq_true, Bool.not_eq_true'] at hfails
                exact .noBlock hcan hmove (of_decide_eq_true hfails.1) hfails.2
              · rw [if_neg hfails] at hrun
                rw [Action.bind_ok hrun]
                refine .resized _ hcan hblock hmove fun hgrows => ?_
                simpa [hgrows] using hfails

namespace ResizeOutcome

variable {result : EStateM.Result Failure (World σ) Value} {v : Value} {f : Failure} {u' : World σ}

/-- When a resize ends well. -/
theorem ok_iff (h : ResizeOutcome o b length u result) :
    (∃ v u', result = .ok v u') ↔ b.CanHave length ∧ (b.length < length →
      u.settle.ledger.admits (length - b.length) = true ∧
        u.settle.memory.next length = true) := by
  have hmoves : (∃ l', u.settle.ledger.move b.length length = .ok l') ↔
      (b.length < length → u.settle.ledger.admits (length - b.length) = true) :=
    Ledger.exists_move_iff
  cases h with
  | refused e hcannot =>
      refine iff_of_false ?_ fun h => hcannot h.1
      rintro ⟨_, _, ⟨⟩⟩
  | overLimit hcan hmove =>
      refine iff_of_false ?_ fun h => ?_
      · rintro ⟨_, _, ⟨⟩⟩
      · obtain ⟨moved, hmoved⟩ := hmoves.2 fun hgrows => (h.2 hgrows).1
        cases hmove.symm.trans hmoved
  | noBlock hcan hmove hgrows hnext =>
      refine iff_of_false ?_ fun h => ?_
      · rintro ⟨_, _, ⟨⟩⟩
      · cases hnext.symm.trans (h.2 hgrows).2
  | resized memory hcan hblock hmove hnext =>
      refine iff_of_true ⟨_, _, rfl⟩ ⟨hcan, fun hgrows => ⟨?_, hnext hgrows⟩⟩
      exact hmoves.1 ⟨_, hmove⟩ hgrows

/-- What a resize that ends well does. -/
theorem of_ok (h : ResizeOutcome o b length u (.ok v u')) (hsettled : u.settle.buffer? o = some b) :
    ∃ before after, b.block = some before ∧ Buffer.Refitted before after length.toNat ∧
      u'.buffer? o = some { b with block := some after, reserved := some length } ∧
      (∀ x, x ≠ o → u'.object x = u.settle.object x) ∧
      (u.settle.ledger.CountsMove b.length length →
        u'.ledger.allocated.toNat + b.length.toNat =
          u.settle.ledger.allocated.toNat + length.toNat) := by
  cases h with
  | resized memory hcan hblock hmove hnext =>
      exact ⟨_, _, hblock, Buffer.refitted_fit _ _, World.buffer?_setBuffer hsettled _,
        fun x hx => World.object_setBuffer_of_ne hx _ _,
        fun hcounts => Ledger.toNat_move hcounts hmove⟩

/-- A resize that fails does so in the world in which it started, or in the settled one, whose
ledger it leaves as it is if that counts the move right. -/
theorem of_error (h : ResizeOutcome o b length u (.error f u')) :
    u' = u ∨ u'.objects = u.settle.objects ∧
      (u.settle.ledger.CountsMove b.length length → u'.ledger = u.settle.ledger) := by
  cases h with
  | refused e hcannot => exact .inl rfl
  | overLimit hcan hmove => exact .inr ⟨rfl, fun _ => rfl⟩
  | noBlock hcan hmove hgrows hnext =>
      exact .inr ⟨rfl, fun hcounts => Ledger.release_move hcounts hgrows hmove⟩

end ResizeOutcome

/-- A resize looks at its receiver, converts the length, and goes on with it; the receiver and the
arguments are held on to throughout. -/
theorem bufferResize_eq (hbuffer : w.buffer? o = some b) (hshared : b.shared = false)
    (args : List Value) :
    E.bufferResize (.object o) args w =
      (E.toIndex (args.getD 0 .undefined) >>= resizeConverted o).holding (operands o args) w := by
  have hheld : { w with held := operands o args ++ w.held }.buffer? o = some b := hbuffer
  apply Action.holding_congr
  refine (Action.bind_ok (thisBuffer_apply "resize" hheld hshared)).trans ?_
  rfl

end Engine

namespace World

variable [Embedding σ] {w w' : World σ} {o : ObjectId}

/-- An allocated buffer is charged in all later worlds, whatever the ledger counts. -/
theorem Allocated.isCharged (h : w.Allocated o) : w.IsCharged o := by
  obtain ⟨E, constructor, length, maximum, before, allocated, hallocate, hreaches⟩ := h
  exact (isCharged_guarantee .all o).of_reaches hreaches (Engine.isCharged_allocateBuffer hallocate)

omit [Embedding σ] in
/-- On a heap with a limit every reservation of a buffer is moved right. -/
theorem Accounted.countsMove {N : UInt64} {b : Buffer} (h : w.Accounted .all N)
    (hbuffer : w.buffer? o = some b) (hcharged : b.Charged) (hattached : b.isDetached = false)
    (length : UInt64) : w.ledger.CountsMove b.length length := by
  obtain ⟨bytes, hblock⟩ := Buffer.exists_block hattached
  have hreserved : b.reserved.map UInt64.toNat = some bytes.length := by
    rw [hcharged, hblock]
    rfl
  obtain ⟨held, hheld, -⟩ := Option.map_eq_some_iff.1 hreserved
  have hle := h.charge_le hbuffer
  rw [Buffer.charge, hheld, Ledger.bytesOf_some] at hle
  rw [Buffer.length_of_charged hcharged hheld]
  exact h.within.countsMove (UInt64.le_iff_toNat_le.2 hle) length

end World

namespace Program

variable [Embedding σ] (P : Program σ) (budget : Nat)

/-- Converting the length of a resize leaves an allocated buffer a charged one, which is held on to
and so does not go when the world is settled. A ledger that respects a limit and counts exactly what
is held counts the move of its reservation right. -/
theorem exists_buffer_of_toIndex {w u : World σ} {o : ObjectId} {args : List Value} {v : Value}
    {length : UInt64} (h : w.Allocated o)
    (hindex : (P.engine budget).toIndex v
      { w with held := Engine.operands o args ++ w.held } = .ok length u) :
    ∃ b, u.buffer? o = some b ∧ u.settle.buffer? o = some b ∧ b.shared = false ∧ b.Charged ∧
      .object o ∈ u.held ∧
      ∀ N, w.Accounted .all N → b.isDetached = false →
        u.settle.ledger.CountsMove b.length length := by
  have hguarantee (R : World σ → World σ → Prop) (hR : RunGuarantee .all R) : R _ u :=
    (hR.toGuarantee.toIndex (hR.engine
      (fun _ _ => Script.allRequests_of Request.admitted_all _) budget) _).of_ok hindex
  have hreaches := hguarantee _ World.reaches_guarantee
  have hallocated : u.Allocated o := (h.reaches (.change .refl (.hold _))).reaches hreaches
  obtain ⟨b, hbuffer, hshared, -⟩ := hallocated.buffer
  obtain ⟨b', hbuffer', hcharged⟩ := hallocated.isCharged
  cases hbuffer.symm.trans hbuffer'
  have hheld : .object o ∈ u.held := by
    rw [(Engine.letsGo_toIndex (P.engine budget) _).of_ok hindex]
    exact List.mem_append_left _ List.mem_cons_self
  have hsettled : u.settle.buffer? o = some b := by
    rw [World.buffer?, World.object_settle_of_held hheld]
    exact hbuffer
  refine ⟨b, hbuffer, hsettled, hshared, hcharged, hheld, fun N haccount hattached => ?_⟩
  have hu := (hguarantee _ (World.keepsAccount_guarantee .all N)
    (haccount.of_same rfl rfl rfl)).1
  exact (World.accounted_settle hu).countsMove hsettled hcharged hattached length

/-- **Resizing is all or nothing.** Take a buffer that was allocated in this world or an earlier
one, and a resize of it by any program. If converting the length fails, the resize fails alike.
Otherwise let `b` be the buffer after that, whatever the conversion did to it, and `left` the world
that the conversion has left, without what nothing refers to any more; the buffer is the same there.
The resize ends well exactly if `b` is attached and resizable, the length is within its maximum,
and, in case the buffer grows, the ledger admits the growth and the next block is granted. Then the
buffer has the bytes that it had as far as they fit, and zeros up to the length; its maximum is the
same, its reservation is the length, no other object is different, and the count of the ledger goes
up or down by the difference, if the ledger counts the move right. If the resize fails, then the
buffer and its reservation are the same and so is the ledger, if it counts the move right. A ledger
that respects a limit and counts exactly what is held does so. -/
theorem bufferResize_spec {w : World σ} {o : ObjectId} (h : w.Allocated o) (args : List Value) :
    match (P.engine budget).toIndex (args.getD 0 .undefined)
        { w with held := Engine.operands o args ++ w.held } with
    | .error f u =>
        (P.engine budget).bufferResize (.object o) args w = .error f { u with held := w.held }
    | .ok length u =>
        let left := u.settle
        ∃ b, u.buffer? o = some b ∧ left.buffer? o = some b ∧ b.shared = false ∧ b.Charged ∧
          ((∃ v w', (P.engine budget).bufferResize (.object o) args w = .ok v w') ↔
            b.CanHave length ∧ (b.length < length →
              left.ledger.admits (length - b.length) = true ∧ left.memory.next length = true)) ∧
          (∀ v w', (P.engine budget).bufferResize (.object o) args w = .ok v w' →
            ∃ before after, b.block = some before ∧ Buffer.Refitted before after length.toNat ∧
              w'.buffer? o = some { b with block := some after, reserved := some length } ∧
              (∀ x, x ≠ o → w'.object x = left.object x) ∧
              (left.ledger.CountsMove b.length length →
                w'.ledger.allocated.toNat + b.length.toNat =
                  left.ledger.allocated.toNat + length.toNat)) ∧
          (∀ f w', (P.engine budget).bufferResize (.object o) args w = .error f w' →
            w'.buffer? o = some b ∧
              (w' = { u with held := w.held } ∨
                w'.objects = left.objects ∧
                  (left.ledger.CountsMove b.length length → w'.ledger = left.ledger))) ∧
          ∀ N, w.Accounted .all N → b.isDetached = false →
            left.ledger.CountsMove b.length length := by
  obtain ⟨before, hbefore, hshared, -⟩ := h.buffer
  have hrun := Engine.bufferResize_eq (E := P.engine budget) hbefore hshared args
  rw [Action.holding_apply] at hrun
  cases hindex : (P.engine budget).toIndex (args.getD 0 .undefined)
      { w with held := Engine.operands o args ++ w.held } with
  | error f u =>
      rw [Action.bind_error hindex] at hrun
      exact hrun
  | ok length u =>
      rw [Action.bind_ok hindex] at hrun
      dsimp only at hrun ⊢
      obtain ⟨b, hbuffer, hsettled, hshared', hcharged, hheld, hcounts⟩ :=
        P.exists_buffer_of_toIndex budget h hindex
      have houtcome := Engine.resizeConverted_outcome hbuffer hshared' hcharged hheld length
      generalize Engine.resizeConverted o length u = result at houtcome hrun
      refine ⟨b, hbuffer, hsettled, hshared', hcharged, ?_, fun v w' hok => ?_,
        fun f w' herror => ?_, hcounts⟩
      · rw [← houtcome.ok_iff, hrun]
        cases result with
        | ok v u' => exact iff_of_true ⟨_, _, rfl⟩ ⟨_, _, rfl⟩
        | error f u' => exact iff_of_false (by rintro ⟨_, _, ⟨⟩⟩) (by rintro ⟨_, _, ⟨⟩⟩)
      · cases result with
        | ok v' u' =>
            cases hrun.symm.trans hok
            exact houtcome.of_ok hsettled
        | error f u' => cases hrun.symm.trans hok
      · cases result with
        | ok v' u' => cases hrun.symm.trans herror
        | error f' u' =>
            cases hrun.symm.trans herror
            rcases houtcome.of_error with rfl | ⟨hobjects, hledger⟩
            · exact ⟨hbuffer, .inl rfl⟩
            · refine ⟨?_, .inr ⟨hobjects, hledger⟩⟩
              rw [World.buffer?, World.object] at hsettled ⊢
              show (u'.objects.getD o.index default).buffer? = some b
              rw [hobjects]
              exact hsettled

/-- A buffer of four bytes that can grow to eight, on a heap of sixteen, is resized to six: it keeps
its bytes and gets two zeros, and the ledger counts two more. -/
theorem bufferResize_spec_grown :
    let start : World Unit := World.start (some 16) (.below 100) ()
    let E : Engine Unit := Program.engine (fun _ _ => .done .undefined) 3
    let six : Value := .ofSize 6
    ∃ o w, E.allocateBuffer start.realm.arrayBuffer 4 (some 8) start = .ok o w ∧
      let filled := w.fillBuffer o 0 [1, 2, 3, 4]
      ∃ v w', E.bufferResize (.object o) [six] filled = .ok v w' ∧
        w'.buffer? o = some ⟨some [1, 2, 3, 4, 0, 0], some 8, false, some 6⟩ ∧
        w'.ledger.allocated.toNat = filled.ledger.allocated.toNat + 2 := by
  intro start E six
  let b : Buffer := ⟨some [1, 2, 3, 4], some 8, false, some 4⟩
  have hrun : (match E.allocateBuffer start.realm.arrayBuffer 4 (some 8) start with
      | .ok o w =>
          let filled := w.fillBuffer o 0 [1, 2, 3, 4]
          match E.toIndex six
              { filled with held := Engine.operands o [six] ++ filled.held } with
          | .ok length u =>
              some (length, u.buffer? o, u.settle.ledger, u.settle.memory.next 6, filled.ledger)
          | .error .. => none
      | .error .. => none) = some (6, some b, ⟨some 16, 4⟩, true, ⟨some 16, 4⟩) := by
    decide +kernel
  -- all that matters of the argument from here on is what it was converted to
  clear_value six
  cases hallocate : E.allocateBuffer start.realm.arrayBuffer 4 (some 8) start with
  | error f w =>
      rw [hallocate] at hrun
      cases hrun
  | ok o w =>
      rw [hallocate] at hrun
      dsimp only at hrun
      have hallocated : (w.fillBuffer o 0 [1, 2, 3, 4]).Allocated o :=
        ⟨E, start.realm.arrayBuffer, 4, some 8, start, w, hallocate, .change .refl (.fill o 0 _)⟩
      have hspec := Program.bufferResize_spec (fun _ _ => .done .undefined) 3 hallocated [six]
      refine ⟨o, w, rfl, ?_⟩
      dsimp only
      generalize w.fillBuffer o 0 [1, 2, 3, 4] = filled at hrun hspec ⊢
      split at hspec
      · next f u hindex =>
        have hfails : E.toIndex six
            { filled with held := Engine.operands o [six] ++ filled.held } = .error f u :=
          hindex
        rw [hfails] at hrun
        cases hrun
      · next length u hindex =>
        have hindex : E.toIndex six
            { filled with held := Engine.operands o [six] ++ filled.held } = .ok length u :=
          hindex
        rw [hindex] at hrun
        simp only [Option.some.injEq, Prod.mk.injEq] at hrun
        obtain ⟨rfl, hbuffer, hleft, hgranted, hledger⟩ := hrun
        obtain ⟨b', hb, -, -, -, hends, hresized, -, -⟩ := hspec
        cases hbuffer.symm.trans hb
        have hcan : b.CanHave 6 := ⟨rfl, 8, rfl, by decide⟩
        obtain ⟨v, w', hok⟩ := hends.2 ⟨hcan, fun _ => ⟨by rw [hleft]; decide, hgranted⟩⟩
        obtain ⟨before, after, hbefore, hfit, hafter, -, hexact⟩ := hresized v w' hok
        cases hbefore
        have hafter_eq : after = [1, 2, 3, 4, 0, 0] := hfit.eq_fit
        refine ⟨v, w', hok, hafter_eq ▸ hafter, ?_⟩
        have hcounts : u.settle.ledger.CountsMove b.length 6 := by
          rw [hleft]
          exact ⟨fun _ => .inl (by decide), fun hshrinks => absurd hshrinks (by decide)⟩
        have hcount : w'.ledger.allocated.toNat + 4 = u.settle.ledger.allocated.toNat + 6 :=
          hexact hcounts
        rw [hleft] at hcount
        rw [hledger]
        omega

/-- A heap without a limit on which nearly as many bytes are reserved as a word can count: a buffer
of three bytes that is held on to and gets no block for its growth keeps its bytes and its
reservation, but the ledger counts nothing afterwards. -/
theorem bufferResize_loses_count :
    let start : World Unit := World.start none (.below 100) ()
    let E : Engine Unit := Program.engine (fun _ _ => .done .undefined) 3
    (match E.allocateBuffer start.realm.arrayBuffer 3 (some 4503599627370496) start with
      | .ok o w =>
          let reserved := ((Request.reserve 18446744073709551000).perform E).after
            { w with held := [.object o] }
          match E.bufferResize (.object o) [.ofSize 2251799813685248] reserved with
          | .error f failed =>
              some (reserved.ledger.allocated, f, failed.buffer? o, failed.ledger.allocated)
          | .ok .. => none
      | .error .. => none) =
      some (18446744073709551003, .thrown (.allocationFailed 2251799813685248),
        some ⟨some [0, 0, 0], some 4503599627370496, false, some 3⟩, 0) := by
  decide +kernel

end Program

end EcmaCore
