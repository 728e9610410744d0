import EcmaCore.Proofs.Grounded.Basic
import EcmaCore.Proofs.Guarantee.Engine

/-!
# Grounded operations on objects

Properties, conversions, functions and array buffers: an operation of a grounded engine is grounded
if its operands are. What an operation tells is what it read off the world, what user code
answered, or what it created.

## Main results

* `Grounded.getFor`, `Grounded.setFor`: reading and writing a property, which may run a getter or a
  setter.
* `Grounded.prototypeFromConstructor`, `Grounded.speciesConstructor`: choosing a prototype or a
  constructor, which user code takes part in.
* `Grounded.boundFunction`, `Grounded.newChargedBuffer`: functions and buffers that are created.
-/

namespace EcmaCore.Grounded

variable {σ : Type} [Embedding σ] {E : Engine σ} {n : Nat}

/-! ## Reading properties -/

theorem getFor (hE : E.Grounded) (o : ObjectId) (key : PropertyKey) {receiver : Value}
    (hreceiver : extent receiver.entities ≤ n) :
    (E.getFor o key receiver).Grounded n Value.entities := by
  unfold Engine.getFor
  refine .look fun w hw hn => ?_
  split
  · exact .pure (Nat.zero_le _)
  · next hlookup => exact .pure (hw.lookup hlookup)
  · exact .pure (Nat.zero_le _)
  · exact (hE.call _ (Nat.le_trans hreceiver hn) (Nat.zero_le _)).holding _

theorem getProperty (hE : E.Grounded) {o : ObjectId} (ho : o.index < n) (key : PropertyKey) :
    (E.getProperty o key).Grounded n Value.entities :=
  getFor hE o key (extent_object_le_iff.2 ho)

theorem getMethod (hE : E.Grounded) {o : ObjectId} (ho : o.index < n) (key : PropertyKey) :
    (E.getMethod o key).Grounded n fun f => f.toList.map .object := by
  unfold Engine.getMethod
  refine (getProperty hE ho key).bind fun v m _ hv => ?_
  split
  · exact .pure (Nat.zero_le _)
  · exact .pure (Nat.zero_le _)
  · exact .look fun w _ hm => .ite (.pure (Nat.le_trans hv hm)) (.fail _)
  · exact .fail _

/-! ## Defining and writing properties -/

theorem define (o : ObjectId) (key : PropertyKey) {update : PropertyUpdate}
    (h : extent update.carried.entities ≤ n) :
    (Action.change (·.define o key update) : Action σ Bool).Grounded n fun _ => [] :=
  .change fun _ hw hn =>
    ⟨World.ReachesThrough.refl.define hw o key (Nat.le_trans h hn), Nat.zero_le _⟩

theorem defineOrFail (o : ObjectId) (key : PropertyKey) {update : PropertyUpdate}
    (h : extent update.carried.entities ≤ n) :
    (Engine.defineOrFail o key update : Action σ Unit).Grounded n fun _ => [] := by
  unfold Engine.defineOrFail
  exact (define o key h).bind fun _ m _ _ => .ite (.pure (Nat.zero_le m)) (.fail _)

theorem writeOwn (receiver : ObjectId) (key : PropertyKey) {v : Value}
    (hv : extent v.entities ≤ n) :
    (Engine.writeOwn receiver key v : Action σ Bool).Grounded n fun _ => [] := by
  unfold Engine.writeOwn
  refine .look fun w _ hn => ?_
  split
  · exact .pure (Nat.zero_le _)
  · exact .pure (Nat.zero_le _)
  · exact define receiver key (Nat.le_trans hv hn)
  · exact define receiver key (Nat.le_trans hv hn)

theorem setFor (hE : E.Grounded) (o : ObjectId) (key : PropertyKey) {v receiver : Value}
    (hv : extent v.entities ≤ n) (hreceiver : extent receiver.entities ≤ n) :
    (E.setFor o key v receiver).Grounded n fun _ => [] := by
  unfold Engine.setFor
  refine .look fun w _ hn => ?_
  have hargs : extent ([v].flatMap Value.entities) ≤ w.objects.size :=
    extent_flatMap_le_iff.2 fun a ha => List.mem_singleton.1 ha ▸ Nat.le_trans hv hn
  split
  · exact .pure (Nat.zero_le _)
  · exact ((hE.call _ (Nat.le_trans hreceiver hn) hargs).holding _).bind fun _ m _ _ =>
      .pure (Nat.zero_le m)
  · exact .pure (Nat.zero_le _)
  all_goals
    split
    · exact writeOwn _ key (Nat.le_trans hv hn)
    · exact .pure (Nat.zero_le _)

theorem setProperty (hE : E.Grounded) {o : ObjectId} (ho : o.index < n) (key : PropertyKey)
    {v : Value} (hv : extent v.entities ≤ n) (mustSucceed : Bool) :
    (E.setProperty o key v mustSucceed).Grounded n fun _ => [] := by
  unfold Engine.setProperty
  have hreceiver : extent (Value.object o).entities ≤ n := extent_object_le_iff.2 ho
  exact (setFor hE o key hv hreceiver).bind fun _ m _ _ => .ite (.fail _) (.pure (Nat.zero_le m))

/-! ## Calling values and choosing constructors -/

theorem callValue (hE : E.Grounded) (f : Value) {this : Value} {args : List Value}
    (hthis : extent this.entities ≤ n) (hargs : extent (args.flatMap Value.entities) ≤ n) :
    (E.callValue f this args).Grounded n Value.entities := by
  unfold Engine.callValue
  split
  · refine .look fun w _ hn => .ite ?_ (.look fun w' _ _ => .fail _)
    exact hE.call _ (Nat.le_trans hthis hn) (Nat.le_trans hargs hn)
  · exact .look fun w _ _ => .fail _

theorem invoke (hE : E.Grounded) {o : ObjectId} (ho : o.index < n) (key : PropertyKey)
    {args : List Value} (hargs : extent (args.flatMap Value.entities) ≤ n) :
    (E.invoke o key args).Grounded n Value.entities := by
  unfold Engine.invoke
  refine ((getProperty hE ho key).holding _).bind fun method m hm _ => ?_
  have hthis : extent (Value.object o).entities ≤ m :=
    extent_object_le_iff.2 (Nat.lt_of_lt_of_le ho hm)
  exact (callValue hE method hthis (Nat.le_trans hargs hm)).holding _

/-- A species constructor is the default, or user code named it. -/
theorem speciesConstructor (hE : E.Grounded) {o default : ObjectId} (ho : o.index < n)
    (hdefault : default.index < n) :
    (E.speciesConstructor o default).Grounded n fun c => [.object c] := by
  unfold Engine.speciesConstructor
  refine (getProperty hE ho _).bind fun holder m hm hholder => ?_
  have hdefault := Nat.lt_of_lt_of_le hdefault hm
  split
  · exact .pure (extent_object_le_iff.2 hdefault)
  · next c =>
    have hc : c.index < m := extent_object_le_iff.1 hholder
    refine ((getProperty hE hc _).holding _).bind fun species k hk hspecies => .ite ?_ ?_
    · exact .pure (extent_object_le_iff.2 (Nat.lt_of_lt_of_le hdefault hk))
    · split
      · exact .look fun w _ hn => .ite (.pure (Nat.le_trans hspecies hn)) (.fail _)
      · exact .fail _
  · exact .fail _

/-- The prototype that a constructor chooses is an object that user code named, or an intrinsic of
the realm. -/
theorem prototypeFromConstructor (hE : E.Grounded) {constructor : ObjectId}
    (hconstructor : constructor.index < n) (fallback : Intrinsic) :
    (E.prototypeFromConstructor constructor fallback).Grounded n fun p => [.object p] := by
  unfold Engine.prototypeFromConstructor
  refine (getProperty hE hconstructor _).bind fun prototype m _ hprototype => ?_
  split
  · exact .pure hprototype
  · exact .look fun w hw _ => .pure (extent_object_le_iff.2 (hw.intrinsic fallback))

/-- A new object names what is there, so that its prototype is older. -/
theorem addObject {new : Object} (hbuffer : new.buffer? = none) (h : extent new.entities ≤ n) :
    (Action.change (·.addObject new) : Action σ ObjectId).Grounded n fun o => [.object o] := by
  refine .change fun w hw hn => ?_
  exact ⟨World.ReachesThrough.refl.addObject hw hbuffer (Nat.le_trans h hn),
    w.extent_addObject_le new⟩

theorem newObject {prototype : Option ObjectId}
    (h : extent (prototype.toList.map .object) ≤ n) :
    (Engine.newObject prototype : Action σ ObjectId).Grounded n fun o => [.object o] :=
  addObject rfl (Object.extent_new_le h (Nat.zero_le n))

theorem newObjectFromConstructor (hE : E.Grounded) {constructor : ObjectId}
    (hconstructor : constructor.index < n) (fallback : Intrinsic) :
    (E.newObjectFromConstructor constructor fallback).Grounded n fun o => [.object o] := by
  unfold Engine.newObjectFromConstructor
  exact (prototypeFromConstructor hE hconstructor fallback).bind fun _ _ _ h => newObject h

/-! ## Conversions -/

theorem firstPrimitive (hE : E.Grounded) {o : ObjectId} (ho : o.index < n)
    (names : List String) : (E.firstPrimitive o names).Grounded n Value.entities := by
  induction names generalizing n with
  | nil => exact .fail _
  | cons name names ih =>
      unfold Engine.firstPrimitive
      refine (getProperty hE ho _).bind fun method m hm _ => ?_
      refine .look fun w _ hn => .ite ?_ (ih (by omega))
      have hthis : extent (Value.object o).entities ≤ w.objects.size :=
        extent_object_le_iff.2 (by omega)
      refine ((callValue hE method hthis (Nat.zero_le _)).holding _).bind fun result k hk h => ?_
      split
      · exact ih (by omega)
      · exact .pure h

theorem ordinaryToPrimitive (hE : E.Grounded) {o : ObjectId} (ho : o.index < n) (hint : Hint) :
    (E.ordinaryToPrimitive o hint).Grounded n Value.entities :=
  firstPrimitive hE ho _

theorem toPrimitive (hE : E.Grounded) {v : Value} (hv : extent v.entities ≤ n) (hint : Hint) :
    (E.toPrimitive v hint).Grounded n Value.entities := by
  unfold Engine.toPrimitive
  split
  · next o =>
    have ho : o.index < n := extent_object_le_iff.1 hv
    refine (getMethod hE ho _).bind fun method m hm _ => ?_
    split
    · refine ((callValue hE _ (Nat.le_trans hv hm) (Nat.zero_le _)).holding _).bind
        fun result k _ h => ?_
      split
      · exact .fail _
      · exact .pure h
    · exact ordinaryToPrimitive hE (Nat.lt_of_lt_of_le ho hm) hint
  · exact .pure hv

theorem toNumber (hE : E.Grounded) {v : Value} (hv : extent v.entities ≤ n) :
    (E.toNumber v).Grounded n fun _ => [] := by
  unfold Engine.toNumber
  exact (toPrimitive hE hv .number).bind fun _ m _ _ => .ofExcept fun _ _ => Nat.zero_le m

theorem toText (hE : E.Grounded) {v : Value} (hv : extent v.entities ≤ n) :
    (E.toText v).Grounded n fun _ => [] := by
  unfold Engine.toText
  exact (toPrimitive hE hv .string).bind fun _ m _ _ => .ofExcept fun _ _ => Nat.zero_le m

theorem toPropertyKey (hE : E.Grounded) {v : Value} (hv : extent v.entities ≤ n) :
    (E.toPropertyKey v).Grounded n fun _ => [] := by
  unfold Engine.toPropertyKey
  refine (toPrimitive hE hv .string).bind fun primitive m _ _ => ?_
  split
  · exact .pure (Nat.zero_le m)
  · have htext : (Action.ofExcept (Engine.primitiveToString primitive) :
        Action σ String).Grounded m fun _ => [] := .ofExcept fun _ _ => Nat.zero_le m
    exact htext.bind fun _ k _ _ => .pure (Nat.zero_le k)

theorem toIntegerOrInfinity (hE : E.Grounded) {v : Value} (hv : extent v.entities ≤ n) :
    (E.toIntegerOrInfinity v).Grounded n fun _ => [] := by
  unfold Engine.toIntegerOrInfinity
  exact (toNumber hE hv).bind fun _ m _ _ => .pure (Nat.zero_le m)

theorem toIndex (hE : E.Grounded) {v : Value} (hv : extent v.entities ≤ n) :
    (E.toIndex v).Grounded n fun _ => [] := by
  unfold Engine.toIndex
  refine .ite (.pure (Nat.zero_le n)) ((toIntegerOrInfinity hE hv).bind fun integer m _ _ => ?_)
  split
  · exact .pure (Nat.zero_le m)
  · exact .fail _

theorem toWord (hE : E.Grounded) {v : Value} (hv : extent v.entities ≤ n) :
    (E.toWord v).Grounded n fun _ => [] := by
  unfold Engine.toWord
  exact (toNumber hE hv).bind fun _ m _ _ => .pure (Nat.zero_le m)

theorem elementsFrom (hE : E.Grounded) {o : ObjectId} (ho : o.index < n) (left : Nat) :
    ∀ {read : List Value}, extent (read.flatMap Value.entities) ≤ n → ∀ position gathered,
      (E.elementsFrom o position read gathered left).Grounded n (·.flatMap Value.entities) := by
  induction left generalizing n with
  | zero =>
      intro read hread position gathered
      refine .pure (extent_flatMap_le_iff.2 fun v hv => ?_)
      exact extent_flatMap_le_iff.1 hread v (List.mem_reverse.1 hv)
  | succ left ih =>
      intro read hread position gathered
      unfold Engine.elementsFrom
      refine ((getProperty hE ho _).holding _).bind fun v m hm hv => ?_
      exact ih (by omega) (extent_append_le_iff.2 ⟨hv, Nat.le_trans hread hm⟩) _ _

theorem listFromArrayLike (hE : E.Grounded) {v : Value} (hv : extent v.entities ≤ n) :
    (E.listFromArrayLike v).Grounded n (·.flatMap Value.entities) := by
  unfold Engine.listFromArrayLike
  split
  · next o =>
    have ho : o.index < n := extent_object_le_iff.1 hv
    refine (getProperty hE ho _).bind fun length m hm hlength => .holding _ ?_
    refine (toWord hE hlength).bind fun count k hk _ => ?_
    exact elementsFrom hE (by omega) _ (Nat.zero_le k) _ _
  · exact .fail _

/-! ## Functions -/

theorem newNative {prototype : Option ObjectId}
    (h : extent (prototype.toList.map .object) ≤ n) (key : PropertyKey) (arity : UInt32)
    (call : Behaviour) (construct : Option Behaviour) :
    (Engine.newNative prototype key arity call construct : Action σ ObjectId).Grounded n
      fun o => [.object o] :=
  addObject (Object.buffer?_ofNative prototype key arity call construct)
    (Object.extent_ofNative_le h key arity call construct)

theorem newOrdinary (name : String) (length : UInt32) (f : OrdinaryFunction) :
    (Engine.newOrdinary name length f : Action σ ObjectId).Grounded n fun o => [.object o] := by
  refine .change fun w hw _ => ⟨?_, w.extent_addObject_le _⟩
  exact World.ReachesThrough.refl.addObject hw (Object.buffer?_ofOrdinary _ name length f)
    (Object.extent_ofOrdinary_le (hw.intrinsic .functionPrototype) name length f)

/-- A bound function has the prototype of its target, which is there. -/
theorem boundFunction (target : ObjectId) {boundThis : Value} {boundArgs : List Value}
    (htarget : target.index < n) (hthis : extent boundThis.entities ≤ n)
    (hargs : extent (boundArgs.flatMap Value.entities) ≤ n) :
    (Engine.boundFunction target boundThis boundArgs : Action σ Object).Grounded n
      Object.entities := by
  unfold Engine.boundFunction
  refine .look fun w hw hn => .ite (.pure ?_) (.fail _)
  refine Object.extent_new_le (extent_option_le_iff.2 fun p hp => hw.prototype hp) ?_
  have htarget : target.index < w.objects.size := by omega
  refine extent_object_cons_le_iff.2 ⟨htarget, ?_⟩
  exact extent_append_le_iff.2 ⟨Nat.le_trans hthis hn, Nat.le_trans hargs hn⟩

/-! ## Array buffers -/

theorem createBlock (length : UInt64) :
    (Engine.createBlock length : Action σ Unit).Grounded n fun _ => [] := by
  unfold Engine.createBlock
  have hask : (Action.change (·.askMemory length) : Action σ Bool).Grounded n fun _ => [] :=
    .change fun w hw _ => ⟨World.Change.develops .askMemory
      (hw.frame rfl rfl rfl rfl rfl rfl), Nat.zero_le _⟩
  exact hask.bind fun _ m _ _ => .ite (.pure (Nat.zero_le m)) (.fail _)

theorem newBuffer {prototype : Option ObjectId} (h : extent (prototype.toList.map .object) ≤ n)
    (length : UInt64) (maximum : Option UInt64) (shared : Bool) :
    (Engine.newBuffer prototype length maximum shared : Action σ ObjectId).Grounded n
      fun o => [.object o] := by
  unfold Engine.newBuffer
  refine (createBlock length).bind fun _ m hm _ => .change fun w hw hn => ?_
  have hnew : extent (Object.new prototype
      (.buffer (.zeros length maximum shared))).entities ≤ w.objects.size :=
    Object.extent_new_le (Nat.le_trans h (Nat.le_trans hm hn)) (Nat.zero_le _)
  exact ⟨World.Change.develops (.addUncharged prototype length maximum shared trivial)
    (hw.addObject hnew), w.extent_addObject_le _⟩

/-- A charge is followed at once by the request for the block, and the two make one change. -/
theorem newChargedBuffer {prototype : ObjectId} (h : prototype.index < n) (length : UInt64)
    (maximum : Option UInt64) :
    (Engine.newChargedBuffer prototype length maximum : Action σ ObjectId).Grounded n
      fun o => [.object o] := by
  intro w hw hn
  obtain ⟨settled, hfirst⟩ :
      ∃ settled, (Action.settle.holding [.object prototype]) w = .ok ⟨⟩ settled := ⟨_, rfl⟩
  have hsettle := (Action.Grounded.settle.holding [.object prototype] w hw hn).1
  rw [Action.after_of_ok hfirst] at hsettle
  have hsettled := hsettle.closed hw
  have hprototype : prototype.index < settled.objects.size :=
    Nat.lt_of_lt_of_le (Nat.lt_of_lt_of_le h hn) hsettle.size_le
  unfold Engine.newChargedBuffer Engine.charge
  rw [Action.after]
  cases hcharge : settled.ledger.charge length with
  | error e =>
      rw [Action.bind_error ((Action.bind_ok hfirst).trans
        (Action.attempt_error (by rw [hcharge]; rfl)))]
      exact ⟨hsettle, fun o w' hrun => by cases hrun⟩
  | ok ledger =>
      rw [Action.bind_ok ((Action.bind_ok hfirst).trans
        (Action.attempt_ok (by rw [hcharge]; rfl))), Action.bind_ok (Action.change_apply _ _)]
      have hcharged :
          ({ settled with ledger, memory := settled.memory.advance } : World σ).Closed :=
        hsettled.frame rfl rfl rfl rfl rfl rfl
      cases hgrant : ({ settled with ledger } : World σ).memory.next length with
      | true =>
          rw [World.askMemory, hgrant, if_pos rfl]
          have hnew : extent (Object.charged prototype length maximum).entities ≤
              settled.objects.size :=
            Object.extent_new_le (extent_object_le_iff.2 hprototype) (Nat.zero_le _)
          refine ⟨hsettle.change (.addBuffer prototype maximum hcharge) (hcharged.addObject hnew),
            fun o w' hrun => ?_⟩
          cases hrun
          exact World.extent_addObject_le _ _
      | false =>
          rw [World.askMemory, hgrant, if_neg Bool.false_ne_true]
          exact ⟨hsettle.change (.failBuffer hcharge) (hsettled.frame rfl rfl rfl rfl rfl rfl),
            fun o w' hrun => by cases hrun⟩

theorem allocateBuffer (hE : E.Grounded) {constructor : ObjectId}
    (hconstructor : constructor.index < n) (length : UInt64) (maximum : Option UInt64) :
    (E.allocateBuffer constructor length maximum).Grounded n fun o => [.object o] := by
  unfold Engine.allocateBuffer
  split
  · exact .fail _
  · exact (prototypeFromConstructor hE hconstructor _).bind fun _ m _ h =>
      newChargedBuffer (extent_object_le_iff.1 h) length maximum

theorem detachBuffer (o : ObjectId) :
    (Action.change (·.detachBuffer o) : Action σ UInt64).Grounded n fun _ => [] :=
  .change fun _ hw _ =>
    ⟨World.Change.develops (.detach o) (hw.detachBuffer o), Nat.zero_le _⟩

theorem detach (o : ObjectId) : (Engine.detach o : Action σ Unit).Grounded n fun _ => [] := by
  unfold Engine.detach
  refine .look fun w _ _ => ?_
  split
  · exact .fail _
  · exact .ite (.fail _) ((detachBuffer o).bind fun _ m _ _ => .pure (Nat.zero_le m))

theorem maximumOption (hE : E.Grounded) {options : Value} (h : extent options.entities ≤ n) :
    (E.maximumOption options).Grounded n fun _ => [] := by
  unfold Engine.maximumOption
  split
  · next o =>
    have ho : o.index < n := extent_object_le_iff.1 h
    refine (getProperty hE ho _).bind fun v m _ hv => .ite (.pure (Nat.zero_le m)) ?_
    exact ((toIndex hE hv).holding _).bind fun _ k _ _ => .pure (Nat.zero_le k)
  · exact .pure (Nat.zero_le n)

theorem resizeBuffer (o : ObjectId) (length : UInt64) :
    (Engine.resizeBuffer o length : Action σ Unit).Grounded n fun _ => [] := by
  unfold Engine.resizeBuffer
  refine Action.Grounded.settle.bind fun _ m _ _ w hw hm => ⟨?_, fun _ _ _ => Nat.zero_le _⟩
  rw [Action.after, Action.bind_ok (Action.get_apply w)]
  cases hb : w.buffer? o with
  | none => exact .refl
  | some b =>
      have hresize : w.Develops
          { w.setBuffer o (b.resize length w.ledger w.memory).2.1 with
            ledger := (b.resize length w.ledger w.memory).2.2.1
            memory := (b.resize length w.ledger w.memory).2.2.2 } :=
        World.Change.develops (.resize o length hb)
          ((hw.setBuffer o _).frame rfl rfl rfl rfl rfl rfl)
      have houtcome : (Action.ofExcept (b.resize length w.ledger w.memory).1 :
          Action σ Unit).Grounded 0 fun _ => [] := .ofExcept fun _ _ => Nat.zero_le 0
      exact hresize.trans (houtcome _ (hresize.closed hw) (Nat.zero_le _)).1

end EcmaCore.Grounded
