import EcmaCore.Proofs.Guarantee.Basic

/-!
# Guarantees of the operations on objects

Properties, conversions, functions and array buffers: an operation of an engine
guarantees what the engine guarantees, provided that every single change
respects it.

## Main results

* `Guarantee.getFor`, `Guarantee.setFor`: reading and writing a property, which
  may run a getter or a setter.
* `Guarantee.toPrimitive`: the conversion that all others are built on.
* `Guarantee.newChargedBuffer`, `Guarantee.resizeBuffer`: the two operations that
  charge the ledger.
-/

namespace EcmaCore

/-- A bound function as it comes from `boundFunction` is no buffer. -/
theorem Engine.buffer?_boundFunction {target : ObjectId} {boundThis : Value}
    {boundArgs : List Value}
    {σ : Type} {w w' : World σ} {bound : Object}
    (h : boundFunction target boundThis boundArgs w = .ok bound w') : bound.buffer? = none := by
  unfold boundFunction at h
  rw [Action.bind_ok (Action.get_apply w)] at h
  split at h
  · cases h
    rfl
  · cases h

namespace Guarantee

variable {σ : Type} [Embedding σ] {L : Licence} {R : World σ → World σ → Prop} {E : Engine σ}

/-! ## Reading properties -/

theorem getFor (hR : Guarantee L R) (hE : E.Guarantees R) (o : ObjectId) (key : PropertyKey)
    (receiver : Value) : (E.getFor o key receiver).Guarantees R := by
  unfold Engine.getFor
  refine hR.look fun w => ?_
  split
  · exact hR.pure _
  · exact hR.pure _
  · exact hR.pure _
  · exact hR.holding _ (hE.call _ _ _)

theorem getProperty (hR : Guarantee L R) (hE : E.Guarantees R) (o : ObjectId)
    (key : PropertyKey) : (E.getProperty o key).Guarantees R :=
  hR.getFor hE o key _

theorem getMethod (hR : Guarantee L R) (hE : E.Guarantees R) (o : ObjectId)
    (key : PropertyKey) : (E.getMethod o key).Guarantees R := by
  unfold Engine.getMethod
  refine hR.bind (hR.getProperty hE o key) fun v => ?_
  split
  · exact hR.pure _
  · exact hR.pure _
  · exact hR.look fun w => .ite (hR.pure _) (hR.fail _)
  · exact hR.fail _

/-! ## Defining and writing properties -/

theorem define (hR : Guarantee L R) (o : ObjectId) (key : PropertyKey)
    {update : PropertyUpdate} (h : update.Coherent ∨ L.incoherent) :
    (Action.change (·.define o key update) : Action σ Bool).Guarantees R :=
  .change fun _ => hR.change (.define o key update h)

theorem defineOrFail (hR : Guarantee L R) (o : ObjectId) (key : PropertyKey)
    {update : PropertyUpdate} (h : update.Coherent ∨ L.incoherent) :
    (Engine.defineOrFail o key update : Action σ Unit).Guarantees R := by
  unfold Engine.defineOrFail
  exact hR.bind (hR.define o key h) fun admitted => .ite (hR.pure _) (hR.fail _)

theorem writeOwn (hR : Guarantee L R) (receiver : ObjectId) (key : PropertyKey) (v : Value) :
    (Engine.writeOwn receiver key v : Action σ Bool).Guarantees R := by
  unfold Engine.writeOwn
  refine hR.look fun w => ?_
  split
  · exact hR.pure _
  · exact hR.pure _
  · exact hR.define _ _ (.inl (PropertyUpdate.coherent_valueOnly v))
  · exact hR.define _ _ (.inl (PropertyUpdate.coherent_ordinary v))

theorem setFor (hR : Guarantee L R) (hE : E.Guarantees R) (o : ObjectId) (key : PropertyKey)
    (v receiver : Value) : (E.setFor o key v receiver).Guarantees R := by
  unfold Engine.setFor
  refine hR.look fun w => ?_
  split
  · exact hR.pure _
  · exact hR.bind (hR.holding _ (hE.call _ _ _)) fun _ => hR.pure _
  · exact hR.pure _
  all_goals
    split
    · exact hR.writeOwn _ _ _
    · exact hR.pure _

theorem setProperty (hR : Guarantee L R) (hE : E.Guarantees R) (o : ObjectId)
    (key : PropertyKey) (v : Value) (mustSucceed : Bool) :
    (E.setProperty o key v mustSucceed).Guarantees R := by
  unfold Engine.setProperty
  exact hR.bind (hR.setFor hE o key v _) fun success => .ite (hR.fail _) (hR.pure _)

/-! ## Calling values and choosing constructors -/

theorem callValue (hR : Guarantee L R) (hE : E.Guarantees R) (f this : Value)
    (args : List Value) : (E.callValue f this args).Guarantees R := by
  unfold Engine.callValue
  split
  · refine hR.look fun w => .ite (hE.call _ _ _) ?_
    exact hR.look fun w => hR.fail _
  · exact hR.look fun w => hR.fail _

theorem invoke (hR : Guarantee L R) (hE : E.Guarantees R) (o : ObjectId) (key : PropertyKey)
    (args : List Value) : (E.invoke o key args).Guarantees R := by
  unfold Engine.invoke
  refine hR.bind (hR.holding _ (hR.getProperty hE o key)) fun method => ?_
  exact hR.holding _ (hR.callValue hE method _ args)

theorem speciesConstructor (hR : Guarantee L R) (hE : E.Guarantees R) (o default : ObjectId) :
    (E.speciesConstructor o default).Guarantees R := by
  unfold Engine.speciesConstructor
  refine hR.bind (hR.getProperty hE o _) fun holder => ?_
  split
  · exact hR.pure _
  · refine hR.bind (hR.holding _ (hR.getProperty hE _ _)) fun species => .ite (hR.pure _) ?_
    split
    · exact hR.look fun w => .ite (hR.pure _) (hR.fail _)
    · exact hR.fail _
  · exact hR.fail _

theorem prototypeFromConstructor (hR : Guarantee L R) (hE : E.Guarantees R)
    (constructor : ObjectId) (fallback : Intrinsic) :
    (E.prototypeFromConstructor constructor fallback).Guarantees R := by
  unfold Engine.prototypeFromConstructor
  refine hR.bind (hR.getProperty hE constructor _) fun prototype => ?_
  split
  · exact hR.pure _
  · exact hR.look fun w => hR.pure _

theorem addObject (hR : Guarantee L R) {new : Object} (h : new.buffer? = none) :
    (Action.change (·.addObject new) : Action σ ObjectId).Guarantees R :=
  .change fun _ => hR.change (.addObject new h)

theorem newObject (hR : Guarantee L R) (prototype : Option ObjectId) :
    (Engine.newObject prototype : Action σ ObjectId).Guarantees R :=
  hR.addObject rfl

theorem newObjectFromConstructor (hR : Guarantee L R) (hE : E.Guarantees R)
    (constructor : ObjectId) (fallback : Intrinsic) :
    (E.newObjectFromConstructor constructor fallback).Guarantees R := by
  unfold Engine.newObjectFromConstructor
  exact hR.bind (hR.prototypeFromConstructor hE _ _) fun prototype => hR.newObject _

/-! ## Conversions -/

theorem firstPrimitive (hR : Guarantee L R) (hE : E.Guarantees R) (o : ObjectId)
    (names : List String) : (E.firstPrimitive o names).Guarantees R := by
  induction names with
  | nil => exact hR.fail _
  | cons name names ih =>
      unfold Engine.firstPrimitive
      refine hR.bind (hR.getProperty hE o _) fun method => ?_
      refine hR.look fun w => .ite ?_ ih
      refine hR.bind (hR.holding _ (hR.callValue hE _ _ _)) fun result => ?_
      split
      · exact ih
      · exact hR.pure _

theorem ordinaryToPrimitive (hR : Guarantee L R) (hE : E.Guarantees R) (o : ObjectId)
    (hint : Hint) : (E.ordinaryToPrimitive o hint).Guarantees R :=
  hR.firstPrimitive hE o _

theorem toPrimitive (hR : Guarantee L R) (hE : E.Guarantees R) (v : Value) (hint : Hint) :
    (E.toPrimitive v hint).Guarantees R := by
  unfold Engine.toPrimitive
  split
  · refine hR.bind (hR.getMethod hE _ _) fun method => ?_
    split
    · refine hR.bind (hR.holding _ (hR.callValue hE _ _ _)) fun result => ?_
      split
      · exact hR.fail _
      · exact hR.pure _
    · exact hR.ordinaryToPrimitive hE _ hint
  · exact hR.pure _

theorem toNumber (hR : Guarantee L R) (hE : E.Guarantees R) (v : Value) :
    (E.toNumber v).Guarantees R := by
  unfold Engine.toNumber
  exact hR.bind (hR.toPrimitive hE v .number) fun primitive => hR.ofExcept _

theorem toText (hR : Guarantee L R) (hE : E.Guarantees R) (v : Value) :
    (E.toText v).Guarantees R := by
  unfold Engine.toText
  exact hR.bind (hR.toPrimitive hE v .string) fun primitive => hR.ofExcept _

theorem toPropertyKey (hR : Guarantee L R) (hE : E.Guarantees R) (v : Value) :
    (E.toPropertyKey v).Guarantees R := by
  unfold Engine.toPropertyKey
  refine hR.bind (hR.toPrimitive hE v .string) fun primitive => ?_
  split
  · exact hR.pure _
  · exact hR.bind (hR.ofExcept _) fun text => hR.pure _

theorem toIntegerOrInfinity (hR : Guarantee L R) (hE : E.Guarantees R) (v : Value) :
    (E.toIntegerOrInfinity v).Guarantees R := by
  unfold Engine.toIntegerOrInfinity
  exact hR.bind (hR.toNumber hE v) fun x => hR.pure _

theorem toIndex (hR : Guarantee L R) (hE : E.Guarantees R) (v : Value) :
    (E.toIndex v).Guarantees R := by
  unfold Engine.toIndex
  refine .ite (hR.pure _) (hR.bind (hR.toIntegerOrInfinity hE v) fun integer => ?_)
  split
  · exact hR.pure _
  · exact hR.fail _

theorem toWord (hR : Guarantee L R) (hE : E.Guarantees R) (v : Value) :
    (E.toWord v).Guarantees R := by
  unfold Engine.toWord
  exact hR.bind (hR.toNumber hE v) fun x => hR.pure _

theorem elementsFrom (hR : Guarantee L R) (hE : E.Guarantees R) (o : ObjectId) (left : Nat) :
    ∀ position read gathered, (E.elementsFrom o position read gathered left).Guarantees R := by
  induction left with
  | zero => exact fun _ _ _ => hR.pure _
  | succ left ih =>
      intro position read gathered
      unfold Engine.elementsFrom
      exact hR.bind (hR.holding _ (hR.getProperty hE o _)) fun v => ih _ _ _

theorem listFromArrayLike (hR : Guarantee L R) (hE : E.Guarantees R) (v : Value) :
    (E.listFromArrayLike v).Guarantees R := by
  unfold Engine.listFromArrayLike
  split
  · refine hR.bind (hR.getProperty hE _ _) fun length => hR.holding _ ?_
    exact hR.bind (hR.toWord hE length) fun count => hR.elementsFrom hE _ _ _ _ _
  · exact hR.fail _

/-! ## Functions -/

theorem newNative (hR : Guarantee L R) (prototype : Option ObjectId) (key : PropertyKey)
    (arity : UInt32) (call : Behaviour) (construct : Option Behaviour) :
    (Engine.newNative prototype key arity call construct : Action σ ObjectId).Guarantees R :=
  hR.addObject (Object.buffer?_ofNative prototype key arity call construct)

theorem newOrdinary (hR : Guarantee L R) (name : String) (length : UInt32)
    (f : OrdinaryFunction) :
    (Engine.newOrdinary name length f : Action σ ObjectId).Guarantees R :=
  .change fun _ => hR.change (.addObject _ (Object.buffer?_ofOrdinary _ name length f))

theorem boundFunction (hR : Guarantee L R) (target : ObjectId) (boundThis : Value)
    (boundArgs : List Value) :
    (Engine.boundFunction target boundThis boundArgs : Action σ Object).Guarantees R := by
  unfold Engine.boundFunction
  exact hR.look fun w => .ite (hR.pure _) (hR.fail _)

/-- Adding an object and then defining a property of another one. -/
theorem define_addObject (hR : Guarantee L R) (w : World σ) (o : ObjectId) (key : PropertyKey)
    {new : Object} {update : PropertyUpdate} (hnew : new.buffer? = none)
    (hupdate : update.Coherent) :
    R w ((w.addObject new).2.define o key update).2 :=
  hR.trans (hR.change (.addObject new hnew)) (hR.change (.define o key update (.inl hupdate)))

theorem addFixture (hR : Guarantee L R) (w : World σ) (o functionPrototype : ObjectId)
    (fixture : Fixture) : R w (w.addFixture o functionPrototype fixture) := by
  cases fixture with
  | method name arity behaviour =>
      exact hR.define_addObject w o name (Object.buffer?_ofNative _ _ _ _ _)
        (PropertyUpdate.coherent_full _)
  | getter key behaviour =>
      refine hR.define_addObject w o key ?_ (PropertyUpdate.coherent_full _)
      exact (Object.buffer?_defineQuietly _ _ _).trans (Object.buffer?_ofNative _ _ _ _ _)
  | property key v | readonly key v | constant key v =>
      exact hR.change (.define o key _ (.inl (PropertyUpdate.coherent_full _)))

theorem addFixtures (hR : Guarantee L R) (o functionPrototype : ObjectId)
    (fixtures : List Fixture) (w : World σ) : R w (w.addFixtures o functionPrototype fixtures) := by
  induction fixtures generalizing w with
  | nil => exact hR.refl w
  | cons fixture fixtures ih =>
      exact hR.trans (hR.addFixture w o functionPrototype fixture) (ih _)

/-! ## Array buffers -/

theorem createBlock (hR : Guarantee L R) (length : UInt64) :
    (Engine.createBlock length : Action σ Unit).Guarantees R := by
  unfold Engine.createBlock
  exact hR.bind (.change fun _ => hR.change .askMemory) fun granted => .ite (hR.pure _) (hR.fail _)

theorem newBuffer (hR : Guarantee L R) (prototype : Option ObjectId) (length : UInt64)
    (maximum : Option UInt64) (shared : Bool) (h : L.uncharged) :
    (Engine.newBuffer prototype length maximum shared : Action σ ObjectId).Guarantees R := by
  unfold Engine.newBuffer
  refine hR.bind (hR.createBlock length) fun _ => .change fun w => ?_
  exact hR.change (.addUncharged prototype length maximum shared h)

/-- A charge is followed at once by the request for the block, and the two make one change: a
buffer is added, or the charge is taken back. -/
theorem newChargedBuffer (hR : Guarantee L R) (prototype : ObjectId) (length : UInt64)
    (maximum : Option UInt64) :
    (Engine.newChargedBuffer prototype length maximum : Action σ ObjectId).Guarantees R := by
  intro w
  obtain ⟨settled, hfirst⟩ :
      ∃ settled, (Action.settle.holding [.object prototype]) w = .ok ⟨⟩ settled := ⟨_, rfl⟩
  have hsettle := (hR.holding [.object prototype] hR.settle).of_ok hfirst
  unfold Engine.newChargedBuffer Engine.charge
  rw [Action.after]
  cases hcharge : settled.ledger.charge length with
  | error e =>
      rw [Action.bind_error ((Action.bind_ok hfirst).trans
        (Action.attempt_error (by rw [hcharge]; rfl)))]
      exact hsettle
  | ok ledger =>
      rw [Action.bind_ok ((Action.bind_ok hfirst).trans
        (Action.attempt_ok (by rw [hcharge]; rfl))), Action.bind_ok (Action.change_apply _ _)]
      refine hR.trans hsettle ?_
      cases hgrant : ({ settled with ledger } : World σ).memory.next length with
      | true =>
          rw [World.askMemory, hgrant, if_pos rfl]
          exact hR.change (.addBuffer prototype maximum hcharge)
      | false =>
          rw [World.askMemory, hgrant, if_neg Bool.false_ne_true]
          exact hR.change (.failBuffer hcharge)

theorem allocateBuffer (hR : Guarantee L R) (hE : E.Guarantees R) (constructor : ObjectId)
    (length : UInt64) (maximum : Option UInt64) :
    (E.allocateBuffer constructor length maximum).Guarantees R := by
  unfold Engine.allocateBuffer
  split
  · exact hR.fail _
  · exact hR.bind (hR.prototypeFromConstructor hE _ _) fun prototype =>
      hR.newChargedBuffer prototype length maximum

theorem maximumOption (hR : Guarantee L R) (hE : E.Guarantees R) (options : Value) :
    (E.maximumOption options).Guarantees R := by
  unfold Engine.maximumOption
  split
  · refine hR.bind (hR.getProperty hE _ _) fun v => .ite (hR.pure _) ?_
    exact hR.bind (hR.holding _ (hR.toIndex hE v)) fun maximum => hR.pure _
  · exact hR.pure _

theorem detachBuffer (hR : Guarantee L R) (o : ObjectId) :
    (Action.change (·.detachBuffer o) : Action σ UInt64).Guarantees R :=
  .change fun _ => hR.change (.detach o)

theorem detach (hR : Guarantee L R) (o : ObjectId) :
    (Engine.detach o : Action σ Unit).Guarantees R := by
  unfold Engine.detach
  refine hR.look fun w => ?_
  split
  · exact hR.fail _
  · exact .ite (hR.fail _) (hR.bind (hR.detachBuffer o) fun _ => hR.pure _)

theorem resizeBuffer (hR : Guarantee L R) (o : ObjectId) (length : UInt64) :
    (Engine.resizeBuffer o length : Action σ Unit).Guarantees R := by
  unfold Engine.resizeBuffer
  refine hR.bind hR.settle fun _ => ?_
  intro w
  rw [Action.after, Action.bind_ok (Action.get_apply w)]
  cases hb : w.buffer? o with
  | none => exact hR.refl w
  | some b => exact hR.trans (hR.change (.resize o length hb)) (hR.ofExcept _ _)

end Guarantee

end EcmaCore
