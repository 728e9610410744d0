import EcmaCore.Program
import EcmaCore.Proofs.Guarantee.Basic
import EcmaCore.Proofs.Ledger
import EcmaCore.Proofs.World.Settle

/-!
# Constructing array buffers

A construction first does everything that may run user code: it converts the length, reads
and converts the maximum, and reads the prototype. `ConstructionAsks` lists the ways in which
this can end; a length beyond the maximum is one of them, and there the prototype is not
read. Only then, in the world that this code has left behind, the bytes are charged and the
block is asked for. So there are two more ways to fail, and neither of them is seen anywhere
but in the count of the ledger.

The count comes out right, whatever happens, on a heap with a limit. Without a limit it is a
sum of words: bytes beyond what a word can count are lost, and with them all the others when
the block cannot be had.

## Main results

* `Engine.maximumOption_asked`, `Engine.constructCallouts_asks`: what runs user code.
* `Engine.newChargedBuffer_eq`: what does not.
* `Engine.constructBuffer_spec`: both together.
* `Engine.constructBuffer_loses_count`: a heap without a limit that counts nothing afterwards.
-/

namespace EcmaCore

variable {σ : Type}

/-- The object that a value is, or else another one. -/
def Value.objectOr (v : Value) (fallback : ObjectId) : ObjectId :=
  match v with
  | .object o => o
  | _ => fallback

namespace Engine

variable {E : Engine σ} {w : World σ}

/-! ## The part that may run user code -/

/-- How asking options for a maximum ends: options that are no object, or whose property is
undefined, ask for none; and the property is converted to an index otherwise. -/
inductive MaximumAsked (E : Engine σ) (w : World σ) :
    Value → EStateM.Result Failure (World σ) (Option UInt64) → Prop
  | noObject {options : Value} (h : ∀ o, options ≠ .object o) :
      MaximumAsked E w options (.ok none w)
  | unreadable {o : ObjectId} {f : Failure} {u : World σ}
      (h : E.getProperty o "maxByteLength" w = .error f u) :
      MaximumAsked E w (.object o) (.error f u)
  | undefined {o : ObjectId} {u : World σ}
      (h : E.getProperty o "maxByteLength" w = .ok .undefined u) :
      MaximumAsked E w (.object o) (.ok none u)
  | invalid {o : ObjectId} {v : Value} {f : Failure} {u u' : World σ}
      (h : E.getProperty o "maxByteLength" w = .ok v u) (hv : v ≠ .undefined)
      (hindex : (E.toIndex v).holding v.entities u = .error f u') :
      MaximumAsked E w (.object o) (.error f u')
  | index {o : ObjectId} {v : Value} {maximum : UInt64} {u u' : World σ}
      (h : E.getProperty o "maxByteLength" w = .ok v u) (hv : v ≠ .undefined)
      (hindex : (E.toIndex v).holding v.entities u = .ok maximum u') :
      MaximumAsked E w (.object o) (.ok (some maximum) u')

theorem maximumOption_asked (E : Engine σ) (options : Value) (w : World σ) :
    MaximumAsked E w options (E.maximumOption options w) := by
  cases options with
  | object o =>
      unfold maximumOption
      dsimp only
      cases hread : E.getProperty o "maxByteLength" w with
      | error f u =>
          rw [Action.bind_error hread]
          exact .unreadable hread
      | ok v u =>
          rw [Action.bind_ok hread]
          by_cases hv : v = .undefined
          · subst hv
            exact .undefined hread
          · have hdefined : v.isUndefined = false := by
              cases v with
              | undefined => exact absurd rfl hv
              | _ => rfl
            rw [hdefined, if_neg Bool.false_ne_true]
            cases hindex : (E.toIndex v).holding v.entities u with
            | error f u' =>
                rw [Action.bind_error hindex]
                exact .invalid hread hv hindex
            | ok maximum u' =>
                rw [Action.bind_ok hindex]
                exact .index hread hv hindex
  | _ => exact .noObject nofun

theorem prototypeFromConstructor_ok {constructor : ObjectId} {fallback : Intrinsic} {v : Value}
    {u : World σ} (h : E.getProperty constructor "prototype" w = .ok v u) :
    E.prototypeFromConstructor constructor fallback w =
      .ok (v.objectOr (u.realm.intrinsic fallback)) u := by
  unfold prototypeFromConstructor
  rw [Action.bind_ok h]
  cases v <;> rfl

theorem prototypeFromConstructor_error {constructor : ObjectId} {fallback : Intrinsic} {f : Failure}
    {u : World σ} (h : E.getProperty constructor "prototype" w = .error f u) :
    E.prototypeFromConstructor constructor fallback w = .error f u :=
  Action.bind_error h

/-- What a construction does before it charges anything: it gets the length, the maximum and the
prototype. -/
def constructCallouts (E : Engine σ) (args : List Value) (newTarget : ObjectId) :
    Action σ (UInt64 × Option UInt64 × ObjectId) := do
  let length ← E.toIndex (args.getD 0 .undefined)
  let maximum ← E.maximumOption (args.getD 1 .undefined)
  match maximum.filter (· < length) with
  | some m => Action.fail (.lengthBeyondMaximum length m)
  | none =>
      let prototype ← E.prototypeFromConstructor newTarget .arrayBufferPrototype
      return (length, maximum, prototype)

/-- How the part of a construction that may run user code ends. The length is converted first. Then
the options are asked for the maximum. A length beyond it is an error without any more code. The
property `prototype` of the new target is read last. -/
inductive ConstructionAsks (E : Engine σ) (args : List Value) (newTarget : ObjectId) (w : World σ) :
    EStateM.Result Failure (World σ) (UInt64 × Option UInt64 × ObjectId) → Prop
  | noLength {f : Failure} {u : World σ}
      (h : E.toIndex (args.getD 0 .undefined) w = .error f u) :
      ConstructionAsks E args newTarget w (.error f u)
  | noMaximum {length : UInt64} {f : Failure} {u₁ u : World σ}
      (hlength : E.toIndex (args.getD 0 .undefined) w = .ok length u₁)
      (h : MaximumAsked E u₁ (args.getD 1 .undefined) (.error f u)) :
      ConstructionAsks E args newTarget w (.error f u)
  | beyond {length m : UInt64} {u₁ u : World σ}
      (hlength : E.toIndex (args.getD 0 .undefined) w = .ok length u₁)
      (hmaximum : MaximumAsked E u₁ (args.getD 1 .undefined) (.ok (some m) u)) (h : m < length) :
      ConstructionAsks E args newTarget w (.error (.thrown (.lengthBeyondMaximum length m)) u)
  | noPrototype {length : UInt64} {maximum : Option UInt64} {f : Failure} {u₁ u₂ u : World σ}
      (hlength : E.toIndex (args.getD 0 .undefined) w = .ok length u₁)
      (hmaximum : MaximumAsked E u₁ (args.getD 1 .undefined) (.ok maximum u₂))
      (hbound : ∀ m, maximum = some m → length ≤ m)
      (h : E.getProperty newTarget "prototype" u₂ = .error f u) :
      ConstructionAsks E args newTarget w (.error f u)
  | done {length : UInt64} {maximum : Option UInt64} {v : Value} {u₁ u₂ u : World σ}
      (hlength : E.toIndex (args.getD 0 .undefined) w = .ok length u₁)
      (hmaximum : MaximumAsked E u₁ (args.getD 1 .undefined) (.ok maximum u₂))
      (hbound : ∀ m, maximum = some m → length ≤ m)
      (h : E.getProperty newTarget "prototype" u₂ = .ok v u) :
      ConstructionAsks E args newTarget w
        (.ok (length, maximum, v.objectOr u.realm.arrayBufferPrototype) u)

theorem constructCallouts_asks (E : Engine σ) (args : List Value) (newTarget : ObjectId)
    (w : World σ) :
    ConstructionAsks E args newTarget w (E.constructCallouts args newTarget w) := by
  unfold constructCallouts
  cases hlength : E.toIndex (args.getD 0 .undefined) w with
  | error f u =>
      rw [Action.bind_error hlength]
      exact .noLength hlength
  | ok length u₁ =>
      rw [Action.bind_ok hlength]
      have hasked := E.maximumOption_asked (args.getD 1 .undefined) u₁
      cases hmaximum : E.maximumOption (args.getD 1 .undefined) u₁ with
      | error f u =>
          rw [hmaximum] at hasked
          rw [Action.bind_error hmaximum]
          exact .noMaximum hlength hasked
      | ok maximum u₂ =>
          rw [hmaximum] at hasked
          rw [Action.bind_ok hmaximum]
          cases hfilter : maximum.filter (· < length) with
          | some m =>
              obtain ⟨rfl, hlt⟩ := Option.filter_eq_some_iff.1 hfilter
              exact .beyond hlength hasked (of_decide_eq_true hlt)
          | none =>
              have hbound (m : UInt64) (hm : maximum = some m) : length ≤ m :=
                UInt64.not_lt.1 fun hlt =>
                  Option.filter_eq_none_iff.1 hfilter m hm (decide_eq_true hlt)
              dsimp only
              cases hread : E.getProperty newTarget "prototype" u₂ with
              | error f u =>
                  rw [Action.bind_error (prototypeFromConstructor_error hread)]
                  exact .noPrototype hlength hasked hbound hread
              | ok v u =>
                  rw [Action.bind_ok (prototypeFromConstructor_ok hread)]
                  exact .done hlength hasked hbound hread

/-- A construction charges and creates what its callouts ask for. -/
theorem constructBuffer_eq [Embedding σ] (E : Engine σ) (args : List Value) (newTarget : ObjectId) :
    E.constructBuffer args newTarget =
      Action.holding (.object newTarget :: args.flatMap Value.entities)
        (E.constructCallouts args newTarget >>= fun (length, maximum, prototype) => do
          return .object (← newChargedBuffer prototype length maximum)) := by
  unfold constructBuffer constructCallouts allocateBuffer
  refine congrArg (Action.holding _) ?_
  rw [bind_assoc]
  refine Action.bind_congr_next fun length => ?_
  rw [bind_assoc]
  refine Action.bind_congr_next fun maximum => ?_
  cases maximum.filter (· < length) with
  | some m => rfl
  | none =>
      dsimp only
      rw [bind_assoc, bind_assoc]
      rfl

/-! ## The part that runs no code -/

end Engine

variable [Embedding σ]

/-- The world in which the bytes of a new buffer are charged, where only its prototype is held on to
further: what the code before it has left behind, without what nothing refers to any more. -/
def World.leftFor (u : World σ) (prototype : ObjectId) : World σ :=
  { ({ u with held := .object prototype :: u.held } : World σ).settle with held := u.held }

namespace Engine

variable {w u : World σ}

theorem charge_eq (length : UInt64) (prototype : ObjectId) (u : World σ) :
    charge length [.object prototype] u =
      if (u.leftFor prototype).ledger.admits length then
        .ok () { u.leftFor prototype with ledger := (u.leftFor prototype).ledger.charged length }
      else .error (.thrown (.allocationFailed length)) (u.leftFor prototype) := by
  have hsettle : (Action.settle.holding [.object prototype]) u = .ok () (u.leftFor prototype) := rfl
  rw [charge, Action.bind_ok hsettle]
  by_cases hadmits : (u.leftFor prototype).ledger.admits length = true
  · rw [if_pos hadmits]
    refine Action.attempt_ok ?_
    rw [Ledger.charge, if_pos hadmits]
    rfl
  · rw [if_neg hadmits]
    refine Action.attempt_error ?_
    rw [Ledger.charge, if_neg hadmits]
    rfl

/-- A new buffer is charged, if the ledger admits it, and then created, if its block can be had. -/
theorem newChargedBuffer_eq (prototype : ObjectId) (length : UInt64) (maximum : Option UInt64)
    (u : World σ) :
    let left := u.leftFor prototype
    newChargedBuffer prototype length maximum u =
      if left.ledger.admits length then
        if left.memory.next length then
          .ok ⟨left.objects.size⟩
            ({ left with
                ledger := left.ledger.charged length
                memory := left.memory.advance }.addObject (.charged prototype length maximum)).2
        else
          .error (.thrown (.allocationFailed length))
            { left with
              ledger := (left.ledger.charged length).release length
              memory := left.memory.advance }
      else .error (.thrown (.allocationFailed length)) left := by
  intro left
  have hcharge := charge_eq length prototype u
  rw [newChargedBuffer]
  by_cases hadmits : left.ledger.admits length = true
  · rw [if_pos hadmits] at hcharge ⊢
    rw [Action.bind_ok hcharge, Action.bind_ok (Action.change_apply _ _)]
    by_cases hnext : left.memory.next length = true
    · rw [if_pos hnext]
      exact congrFun (if_pos hnext) _
    · rw [if_neg hnext]
      exact congrFun (if_neg hnext) _
  · rw [if_neg hadmits] at hcharge ⊢
    exact Action.bind_error hcharge

/-- A world has one object more than another one, a buffer of zeros that is charged, and is the same
in all other objects. -/
structure CreatesBuffer (left : World σ) (prototype : ObjectId) (length : UInt64)
    (maximum : Option UInt64) (o : ObjectId) (w' : World σ) : Prop where
  fresh : o.index = left.objects.size
  size : w'.objects.size = left.objects.size + 1
  buffer : w'.buffer? o = some
    { block := some (List.replicate length.toNat 0)
      maximum
      shared := false
      reserved := some length }
  prototype : (w'.object o).prototype = some prototype
  others : ∀ x, x ≠ o → w'.object x = left.object x

omit [Embedding σ] in
theorem createsBuffer_addObject {left w' : World σ} {prototype : ObjectId} {length : UInt64}
    {maximum : Option UInt64}
    (h : w'.objects = (left.addObject (.charged prototype length maximum)).2.objects) :
    CreatesBuffer left prototype length maximum ⟨left.objects.size⟩ w' := by
  have hobject (x : ObjectId) : w'.object x =
      if x.index = left.objects.size then .charged prototype length maximum else left.object x := by
    rw [← World.object_addObject, World.object, World.object, h]
  have hnew := (hobject ⟨left.objects.size⟩).trans (if_pos rfl)
  refine ⟨rfl, by simp [h, World.addObject], ?_, ?_, fun x hx => ?_⟩
  · rw [World.buffer?, hnew]
    rfl
  · rw [hnew]
    rfl
  · rw [hobject, if_neg]
    exact fun heq => hx (congrArg ObjectId.mk heq)

variable {prototype : ObjectId} {length : UInt64} {maximum : Option UInt64} {u w' : World σ}
  {o : ObjectId} {f : Failure}

/-- When a new buffer can be had. -/
theorem newChargedBuffer_ok_iff (prototype : ObjectId) (length : UInt64) (maximum : Option UInt64)
    (u : World σ) :
    (∃ o w', newChargedBuffer prototype length maximum u = .ok o w') ↔
      (u.leftFor prototype).ledger.admits length = true ∧
        (u.leftFor prototype).memory.next length = true := by
  rw [newChargedBuffer_eq]
  split
  · next hadmits =>
    split
    · next hnext => exact iff_of_true ⟨_, _, rfl⟩ ⟨hadmits, hnext⟩
    · next hnext => exact iff_of_false (by rintro ⟨_, _, ⟨⟩⟩) fun h => hnext h.2
  · next hadmits => exact iff_of_false (by rintro ⟨_, _, ⟨⟩⟩) fun h => hadmits h.1

/-- A buffer that was created is the last object, and charged. -/
theorem newChargedBuffer_of_ok (h : newChargedBuffer prototype length maximum u = .ok o w') :
    o = ⟨(u.leftFor prototype).objects.size⟩ ∧
      w'.objects =
        ((u.leftFor prototype).addObject (.charged prototype length maximum)).2.objects ∧
      w'.ledger = (u.leftFor prototype).ledger.charged length ∧
      ((u.leftFor prototype).ledger.Counts length →
        w'.ledger.allocated.toNat =
          (u.leftFor prototype).ledger.allocated.toNat + length.toNat) := by
  rw [newChargedBuffer_eq] at h
  split at h
  · next hadmits =>
    split at h
    · cases h
      exact ⟨rfl, rfl, rfl, fun hcounts => Ledger.toNat_charge hcounts hadmits⟩
    · cases h
  · cases h

/-- A buffer that was not created leaves no object behind, and no charge unless the count had
wrapped around. -/
theorem newChargedBuffer_of_error (h : newChargedBuffer prototype length maximum u = .error f w') :
    f = .thrown (.allocationFailed length) ∧ w'.objects = (u.leftFor prototype).objects ∧
      ((u.leftFor prototype).ledger.admits length = false ∨
          (u.leftFor prototype).ledger.Counts length →
        w'.ledger = (u.leftFor prototype).ledger) ∧
      ((u.leftFor prototype).ledger.admits length = true →
        ¬(u.leftFor prototype).ledger.Counts length → w'.ledger.allocated = 0) := by
  rw [newChargedBuffer_eq] at h
  split at h
  · next hadmits =>
    split at h
    · cases h
    · cases h
      refine ⟨rfl, rfl, ?_, fun _ => Ledger.release_charge_of_not_counts⟩
      rintro (hrefused | hcounts)
      · cases hadmits.symm.trans hrefused
      · exact Ledger.release_charge hcounts hadmits
  · next hadmits =>
    cases h
    exact ⟨rfl, rfl, fun _ => rfl, fun h => absurd h hadmits⟩

/-- **What constructing an array buffer does.** The construction holds on to the new target and the
arguments, and does first what may run user code; `ConstructionAsks` says how this ends. If it ends
with an error, the construction ends with this error in the world that is left behind. Otherwise
there is a length, at most the maximum if there is one, and a prototype, and the world that is left
behind decides: the construction ends well exactly if the ledger of that world admits the length and
the next block is granted. Then the result is a new object, an attached buffer of zeros that is not
shared, with this length, maximum and prototype; and the ledger is charged with the length, which
is added to its count unless the ledger has no limit and the sum is no word. The construction fails
otherwise with a range error and without any new object. Then the ledger is as it was left, unless
it has no limit, the sum is no word and the block was not granted; then it counts nothing. -/
theorem constructBuffer_spec (E : Engine σ) (args : List Value) (newTarget : ObjectId)
    (w : World σ) :
    ∃ asked, ConstructionAsks E args newTarget
        { w with held := .object newTarget :: args.flatMap Value.entities ++ w.held } asked ∧
      match asked with
      | .error f u => E.constructBuffer args newTarget w = .error f { u with held := w.held }
      | .ok (length, maximum, prototype) u =>
          let left := u.leftFor prototype
          ((∃ v w', E.constructBuffer args newTarget w = .ok v w') ↔
            left.ledger.admits length = true ∧ left.memory.next length = true) ∧
          (∀ v w', E.constructBuffer args newTarget w = .ok v w' →
            ∃ o, v = .object o ∧ CreatesBuffer left prototype length maximum o w' ∧
              w'.ledger = left.ledger.charged length ∧
              (left.ledger.Counts length →
                w'.ledger.allocated.toNat = left.ledger.allocated.toNat + length.toNat)) ∧
          (∀ f w', E.constructBuffer args newTarget w = .error f w' →
            f = .thrown (.allocationFailed length) ∧ w'.objects = left.objects ∧
              (left.ledger.admits length = false ∨ left.ledger.Counts length →
                w'.ledger = left.ledger) ∧
              (left.ledger.admits length = true → ¬left.ledger.Counts length →
                w'.ledger.allocated = 0)) := by
  refine ⟨_, E.constructCallouts_asks args newTarget _, ?_⟩
  have hrun := congrFun (E.constructBuffer_eq args newTarget) w
  rw [Action.holding_apply] at hrun
  cases hcalls : E.constructCallouts args newTarget
      { w with held := .object newTarget :: args.flatMap Value.entities ++ w.held } with
  | error f u =>
      rw [Action.bind_error hcalls] at hrun
      exact hrun
  | ok asked u =>
      obtain ⟨length, maximum, prototype⟩ := asked
      rw [Action.bind_ok hcalls] at hrun
      dsimp only at hrun ⊢
      rw [← newChargedBuffer_ok_iff prototype length maximum u]
      cases hnew : newChargedBuffer prototype length maximum u with
      | ok o u' =>
          obtain ⟨rfl, hobjects, hledger, hcount⟩ := newChargedBuffer_of_ok hnew
          rw [Action.bind_ok hnew] at hrun
          refine ⟨iff_of_true ⟨_, _, hrun⟩ ⟨_, _, rfl⟩, fun v w' h => ?_, fun f w' h => ?_⟩
          · cases hrun.symm.trans h
            exact ⟨_, rfl, createsBuffer_addObject hobjects, hledger, hcount⟩
          · cases hrun.symm.trans h
      | error f u' =>
          have hfailed := newChargedBuffer_of_error hnew
          rw [Action.bind_error hnew] at hrun
          refine ⟨iff_of_false ?_ ?_, fun v w' h => ?_, fun f w' h => ?_⟩
          · rintro ⟨v, w', h⟩
            cases hrun.symm.trans h
          · rintro ⟨_, _, ⟨⟩⟩
          · cases hrun.symm.trans h
          · cases hrun.symm.trans h
            exact hfailed

/-- A heap without a limit on which nearly as many bytes are reserved as a word can count: a
construction that gets no block fails, runs no user code, and has the ledger count nothing. -/
theorem constructBuffer_loses_count :
    let start : World Unit := World.start none (.below 100) ()
    let E : Engine Unit := Program.engine (fun _ _ => .done .undefined) 3
    let reserved := ((Request.reserve 18446744073709551000).perform E).after start
    reserved.ledger.allocated = 18446744073709551000 ∧
      (match E.constructBuffer [.ofSize 4503599627370496] start.realm.arrayBuffer reserved with
        | .error f failed => some (f, failed.ledger.allocated)
        | .ok .. => none) = some (.thrown (.allocationFailed 4503599627370496), 0) := by
  decide +kernel

end Engine

end EcmaCore
