import EcmaCore.Proofs.Guarantee.Engine

/-!
# Guarantees of the operations on environments

Bindings, imports, references and global declarations: what they do to a world
are steps of one environment record and accesses to the properties of a backing
object.

## Main results

* `Guarantee.getBinding`, `Guarantee.setBinding`: reading and assigning to a name
  of an environment.
* `Guarantee.reference`, `Guarantee.probeName`: resolving a name along a chain.
* `Guarantee.createGlobalVar`, `Guarantee.createGlobalFunction`: declarations in
  a global environment.
-/

namespace EcmaCore.Guarantee

variable {σ : Type} [Embedding σ] {L : Licence} {R : World σ → World σ → Prop} {E : Engine σ}

/-! ## Backing objects and imports -/

theorem backingHas (hR : Guarantee L R) (hE : E.Guarantees R) (backing : ObjectId)
    (isWith : Bool) (name : String) : (E.backingHas backing isWith name).Guarantees R := by
  unfold Engine.backingHas
  refine hR.look fun w => .ite (hR.pure _) (.ite (hR.pure _) ?_)
  refine hR.bind (hR.getProperty hE _ _) fun unscopables => ?_
  split
  · exact hR.bind (hR.holding _ (hR.getProperty hE _ _)) fun hidden => hR.pure _
  · exact hR.pure _

theorem backingGet (hR : Guarantee L R) (hE : E.Guarantees R) (backing : ObjectId)
    (name : String) (strict : Bool) : (E.backingGet backing name strict).Guarantees R := by
  unfold Engine.backingGet
  exact hR.look fun w => .ite (hR.getProperty hE _ _) (.ite (hR.fail _) (hR.pure _))

theorem backingSet (hR : Guarantee L R) (hE : E.Guarantees R) (backing : ObjectId)
    (name : String) (v : Value) (strict : Bool) :
    (E.backingSet backing name v strict).Guarantees R := by
  unfold Engine.backingSet
  have hset :
      (do let _ ← E.setProperty backing name v strict; return () : Action σ Unit).Guarantees R :=
    hR.bind (hR.setProperty hE _ _ _ _) fun _ => hR.pure _
  exact hR.look fun w => .ite (hR.bind (hR.fail _) fun _ => hset) hset

theorem readImport (hR : Guarantee L R) (hE : E.Guarantees R) (name : String) (i : Import) :
    (E.readImport name i).Guarantees R := by
  unfold Engine.readImport
  refine hR.bind hR.settle fun _ => hR.look fun w => .ite ?_ (hR.fail _)
  exact hR.holding _ (hE.readExport _ _ _)

/-! ## Names of an environment -/

/-- An operation on slots guarantees what each of its possible steps respects. -/
theorem updateSlots (hR : Guarantee L R) (s : ScopeId) {f : Bindings → Except Error Bindings}
    (hstep : ∀ (r : Record) slots, f r.slots = .ok slots → r.Step (r.withSlots slots)) :
    (Engine.updateSlots s f : Action σ Unit).Guarantees R := by
  refine hR.attempt fun w _ w' hrun => ?_
  dsimp only at hrun
  cases hslots : f (w.scope s).record.slots with
  | error e =>
      rw [hslots] at hrun
      cases hrun
  | ok slots =>
      rw [hslots] at hrun
      cases hrun
      exact hR.change (.setRecord s (hstep _ _ hslots))

theorem createSlot (hR : Guarantee L R) (s : ScopeId) (name : String)
    (mutable deletable strict : Bool) :
    (Engine.updateSlots s fun slots => .ok (slots.create name mutable deletable strict) :
      Action σ Unit).Guarantees R := by
  refine hR.updateSlots s fun r slots h => ?_
  cases h
  exact .create name mutable deletable strict

theorem initSlot (hR : Guarantee L R) (s : ScopeId) (name : String) (v : Value) :
    (Engine.updateSlots s (·.init name v) : Action σ Unit).Guarantees R :=
  hR.updateSlots s fun _ _ h => .init h

theorem assignSlot (hR : Guarantee L R) (s : ScopeId) (name : String) (v : Value)
    (strict : Bool) :
    (Engine.updateSlots s (·.assign name v strict) : Action σ Unit).Guarantees R :=
  hR.updateSlots s fun _ _ h => .assign h

theorem hasBinding (hR : Guarantee L R) (hE : E.Guarantees R) (s : ScopeId) (name : String) :
    (E.hasBinding s name).Guarantees R := by
  unfold Engine.hasBinding
  refine hR.look fun w => .ite (hR.pure _) ?_
  split
  · exact hR.backingHas hE _ _ name
  · exact hR.pure _

theorem createMutable (hR : Guarantee L R) (s : ScopeId) (name : String) (deletable : Bool) :
    (Engine.createMutable s name deletable : Action σ Unit).Guarantees R := by
  unfold Engine.createMutable
  refine hR.look fun w => ?_
  split
  · exact hR.defineOrFail _ _ (.inl (PropertyUpdate.coherent_full _))
  · exact .ite (hR.fail _) (hR.createSlot s name true deletable false)
  · exact hR.createSlot s name true deletable false

theorem createImmutable (hR : Guarantee L R) (s : ScopeId) (name : String) (strict : Bool) :
    (Engine.createImmutable s name strict : Action σ Unit).Guarantees R := by
  unfold Engine.createImmutable
  refine hR.look fun w => ?_
  split
  · exact hR.fail _
  · exact .ite (hR.fail _) (hR.createSlot s name false false strict)
  · exact hR.createSlot s name false false strict

theorem initBinding (hR : Guarantee L R) (hE : E.Guarantees R) (s : ScopeId) (name : String)
    (v : Value) : (E.initBinding s name v).Guarantees R := by
  unfold Engine.initBinding
  refine hR.look fun w => ?_
  dsimp only
  split
  · exact .ite (hR.initSlot s name v) (hR.backingSet hE _ name v false)
  · exact hR.initSlot s name v

theorem setBinding (hR : Guarantee L R) (hE : E.Guarantees R) (s : ScopeId) (name : String)
    (v : Value) (strict : Bool) : (E.setBinding s name v strict).Guarantees R := by
  unfold Engine.setBinding
  refine hR.look fun w => ?_
  dsimp only
  split
  · exact .ite (hR.assignSlot s name v strict) (hR.backingSet hE _ name v strict)
  · exact hR.assignSlot s name v strict

theorem getBinding (hR : Guarantee L R) (hE : E.Guarantees R) (s : ScopeId) (name : String)
    (strict : Bool) : (E.getBinding s name strict).Guarantees R := by
  unfold Engine.getBinding
  refine hR.look fun w => ?_
  dsimp only
  split
  · exact hR.readImport hE name _
  · split
    · exact .ite (hR.ofExcept _) (hR.backingGet hE _ name strict)
    · exact hR.ofExcept _

theorem probeBinding (hR : Guarantee L R) (hE : E.Guarantees R) (s : ScopeId) (name : String)
    (strict : Bool) : (E.probeBinding s name strict).Guarantees R := by
  unfold Engine.probeBinding
  refine hR.look fun w => ?_
  dsimp only
  split
  · exact hR.bind (hR.readImport hE name _) fun v => hR.pure _
  · split
    · refine .ite (hR.pure _) (hR.bind (hR.backingHas hE _ _ name) fun has => .ite ?_ (hR.pure _))
      exact hR.bind (hR.backingGet hE _ name strict) fun v => hR.pure _
    · exact hR.pure _

theorem deleteBinding (hR : Guarantee L R) (s : ScopeId) (name : String) :
    (Engine.deleteBinding s name : Action σ Bool).Guarantees R := by
  refine .change fun w => ?_
  dsimp only
  split
  · next backing _ _ =>
    split
    · split
      · next hslots => exact hR.change (.setRecord s (.delete hslots))
      · exact hR.refl w
    · split
      · split
        · next deleted hdeleted =>
          have hw : deleted = (w.delete backing name).2 := by rw [hdeleted]
          have hscope : deleted.scope s = w.scope s := by rw [hw, World.delete_eq]; rfl
          have hdelete : R w deleted := by rw [hw]; exact hR.change (.delete backing name)
          rw [← hscope]
          exact hR.trans hdelete (hR.change (.setRecord s (.removeVarName name)))
        · next deleted hdeleted =>
          have hw : deleted = (w.delete backing name).2 := by rw [hdeleted]
          rw [hw]
          exact hR.change (.delete backing name)
      · exact hR.refl w
  · split
    · next hslots => exact hR.change (.setRecord s (.delete hslots))
    · exact hR.refl w

/-! ## The value of `this` -/

theorem thisOf (hR : Guarantee L R) (s : ScopeId) :
    (Engine.thisOf s : Action σ Value).Guarantees R := by
  unfold Engine.thisOf
  exact hR.look fun w => hR.ofExcept _

theorem bindThis (hR : Guarantee L R) (s : ScopeId) (v : Value) :
    (Engine.bindThis s v : Action σ Unit).Guarantees R := by
  refine hR.attempt fun w _ w' hrun => ?_
  cases hbound : (w.scope s).record.bindThis v with
  | error e =>
      rw [hbound] at hrun
      cases hrun
  | ok bound =>
      rw [hbound] at hrun
      cases hrun
      exact hR.change (.setRecord s (.bindThis hbound))

theorem bindCallThis (hR : Guarantee L R) (s : ScopeId) (mode : ThisMode) (v : Value) :
    (Engine.bindCallThis s mode v : Action σ Unit).Guarantees R := by
  unfold Engine.bindCallThis
  split
  · exact hR.pure _
  · exact hR.bindThis s v
  · exact .ite (hR.look fun w => hR.bindThis s _) (hR.bindThis s v)

theorem resolveThis (hR : Guarantee L R) :
    (Engine.resolveThis : Action σ Value).Guarantees R := by
  unfold Engine.resolveThis
  exact hR.look fun w => hR.thisOf _

/-! ## New environments -/

theorem newScope (hR : Guarantee L R) (record : Record) (outer : Option ScopeId) :
    (Engine.newScope record outer : Action σ ScopeId).Guarantees R :=
  .change fun _ => hR.change (.addScope record outer)

theorem newFunctionScope (hR : Guarantee L R) (f : ObjectId) (newTarget : Option ObjectId) :
    (Engine.newFunctionScope f newTarget : Action σ ScopeId).Guarantees R := by
  unfold Engine.newFunctionScope
  refine hR.look fun w => ?_
  split
  · exact hR.newScope _ _
  · exact hR.fail _

theorem createScope (hR : Guarantee L R) (kind : NewScope) :
    (Engine.createScope kind : Action σ ScopeId).Guarantees R := by
  cases kind with
  | function f newTarget => exact hR.newFunctionScope f newTarget
  | declarative outer | object backing isWith outer | global object this | module outer =>
      exact hR.newScope _ _

theorem createImport (hR : Guarantee L R) (s : ScopeId) (source : ModuleId)
    (name exported : String) :
    (Engine.createImport s source name exported : Action σ Unit).Guarantees R := by
  refine hR.attempt fun w _ w' hrun => ?_
  cases hextended : (w.scope s).record.addImport name { source, exported } with
  | error e =>
      rw [hextended] at hrun
      cases hrun
  | ok extended =>
      rw [hextended] at hrun
      cases hrun
      exact hR.change (.setRecord s (.addImport hextended))

/-! ## Declarations in a global environment -/

theorem recordVarName (hR : Guarantee L R) (s : ScopeId) (name : String) (w : World σ) :
    R w (w.recordVarName s name) :=
  hR.change (.setRecord s (.addVarName name))

theorem createGlobalVar (hR : Guarantee L R) (hE : E.Guarantees R) (s : ScopeId)
    (name : String) (deletable : Bool) : (E.createGlobalVar s name deletable).Guarantees R := by
  unfold Engine.createGlobalVar
  refine hR.look fun w => ?_
  split
  · exact hR.pure _
  · have hrecord := Action.Guarantees.modify (hR.recordVarName s name)
    refine .ite ?_ hrecord
    refine hR.bind (hR.defineOrFail _ _ (.inl (PropertyUpdate.coherent_full _))) fun _ => ?_
    exact hR.bind (hR.backingSet hE _ name _ false) fun _ => hrecord

theorem createGlobalFunction (hR : Guarantee L R) (hE : E.Guarantees R) (s : ScopeId)
    (name : String) (f : Value) (deletable : Bool) :
    (E.createGlobalFunction s name f deletable).Guarantees R := by
  unfold Engine.createGlobalFunction
  refine hR.look fun w => ?_
  split
  · exact hR.pure _
  · refine hR.bind (hR.defineOrFail _ _ (.inl ?_)) fun _ => ?_
    · split
      · exact PropertyUpdate.coherent_full _
      · exact PropertyUpdate.coherent_valueOnly f
    · exact hR.bind (hR.setProperty hE _ _ f false) fun _ => .modify (hR.recordVarName s name)

/-! ## References -/

theorem firstWithBinding (hR : Guarantee L R) (hE : E.Guarantees R) (name : String)
    (chain : List ScopeId) : (E.firstWithBinding name chain).Guarantees R := by
  induction chain with
  | nil => exact hR.pure _
  | cons s rest ih =>
      unfold Engine.firstWithBinding
      exact hR.bind (hR.holding _ (hR.hasBinding hE s name)) fun has => .ite (hR.pure _) ih

theorem chainOf (hR : Guarantee L R) (s : Option ScopeId) :
    (Engine.chainOf s : Action σ (List ScopeId)).Guarantees R :=
  hR.look fun _ => hR.pure _

theorem reference (hR : Guarantee L R) (hE : E.Guarantees R) (s : Option ScopeId)
    (name : String) (strict : Bool) : (E.reference s name strict).Guarantees R := by
  unfold Engine.reference
  refine hR.bind (hR.chainOf s) fun chain => ?_
  exact hR.bind (hR.firstWithBinding hE name chain) fun base => hR.pure _

theorem resolve (hR : Guarantee L R) (hE : E.Guarantees R) (name : String) (strict : Bool) :
    (E.resolve name strict).Guarantees R := by
  unfold Engine.resolve
  exact hR.look fun w => hR.reference hE _ name strict

theorem getReference (hR : Guarantee L R) (hE : E.Guarantees R) (r : Reference) :
    (E.getReference r).Guarantees R := by
  unfold Engine.getReference
  split
  · exact hR.fail _
  · exact hR.getBinding hE _ _ _

theorem putReference (hR : Guarantee L R) (hE : E.Guarantees R) (r : Reference) (v : Value) :
    (E.putReference r v).Guarantees R := by
  unfold Engine.putReference
  split
  · refine .ite (hR.fail _) (hR.look fun w => ?_)
    exact hR.bind (hR.setProperty hE _ _ v false) fun _ => hR.pure _
  · exact hR.setBinding hE _ _ v _

theorem probeIn (hR : Guarantee L R) (hE : E.Guarantees R) (name : String) (strict : Bool)
    (chain : List ScopeId) : (E.probeIn name strict chain).Guarantees R := by
  induction chain with
  | nil => exact hR.pure _
  | cons s rest ih =>
      unfold Engine.probeIn
      refine hR.bind (hR.holding _ (hR.probeBinding hE s name strict)) fun probed => ?_
      split
      · exact hR.pure _
      · exact hR.bind (hR.holding _ (hR.hasBinding hE s name)) fun has => .ite (hR.fail _) ih

theorem probeName (hR : Guarantee L R) (hE : E.Guarantees R) (s : Option ScopeId)
    (name : String) (strict : Bool) : (E.probeName s name strict).Guarantees R := by
  unfold Engine.probeName
  exact hR.bind (hR.chainOf s) fun chain => hR.probeIn hE name strict chain

end EcmaCore.Guarantee
