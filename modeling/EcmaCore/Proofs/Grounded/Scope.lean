import EcmaCore.Proofs.Grounded.Engine
import EcmaCore.Proofs.Guarantee.Scope

/-!
# Grounded operations on environments

Bindings, imports, references and global declarations: an operation on an environment is grounded
if the values that it is given are. Which environment it works on does not matter, since one that
is not there reads as an empty one.

## Main results

* `Grounded.getBinding`, `Grounded.setBinding`: reading and assigning to a name of an environment.
* `Grounded.probeName`: resolving a name along a chain.
* `Grounded.createGlobalVar`, `Grounded.createGlobalFunction`: declarations in a global environment.
-/

namespace EcmaCore

/-- The entities that a new environment is to refer to. -/
def NewScope.entities : NewScope → List Entity
  | .declarative _ | .module _ => []
  | .object backing _ _ => [.object backing]
  | .function f newTarget => .object f :: newTarget.toList.map .object
  | .global globalObject this => [.object globalObject, .object this]

/-- The entities that a binding that was read refers to. -/
def probedEntities (found : Option (Binding × Value)) : List Entity :=
  (found.map fun (b, v) => (b.value.toList ++ [v]).flatMap Value.entities).getD []

/-- What is read of a binding is its value. -/
theorem extent_probed_le {n : Nat} {b : Binding} {v : Value} (hb : b.value = some v)
    (hv : extent v.entities ≤ n) : extent (probedEntities (some (b, v))) ≤ n := by
  refine extent_flatMap_le_iff.2 fun a ha => ?_
  have heq : a = v := by simpa [hb] using ha
  rw [heq]
  exact hv

theorem extent_of_probed_le {n : Nat} {b : Binding} {v : Value}
    (h : extent (probedEntities (some (b, v))) ≤ n) : extent v.entities ≤ n :=
  extent_flatMap_le_iff.1 h v (List.mem_append_right _ List.mem_cons_self)

namespace Grounded

variable {σ : Type} [Embedding σ] {E : Engine σ} {n : Nat} {v : Value}

/-! ## Backing objects and imports -/

theorem backingHas (hE : E.Grounded) {backing : ObjectId} (h : backing.index < n) (isWith : Bool)
    (name : String) : (E.backingHas backing isWith name).Grounded n fun _ => [] := by
  unfold Engine.backingHas
  refine .look fun w _ hn =>
    .ite (.pure (Nat.zero_le _)) (.ite (.pure (Nat.zero_le _)) ?_)
  refine (getProperty hE (by omega) _).bind fun unscopables m _ hv => ?_
  split
  · exact ((getProperty hE (extent_object_le_iff.1 hv) _).holding _).bind fun _ k _ _ =>
      .pure (Nat.zero_le k)
  · exact .pure (Nat.zero_le m)

theorem backingGet (hE : E.Grounded) {backing : ObjectId} (h : backing.index < n) (name : String)
    (strict : Bool) : (E.backingGet backing name strict).Grounded n Value.entities := by
  unfold Engine.backingGet
  exact .look fun w _ hn => .ite (getProperty hE (by omega) _)
    (.ite (.fail _) (.pure (Nat.zero_le _)))

theorem backingSet (hE : E.Grounded) {backing : ObjectId} (h : backing.index < n) (name : String)
    (hv : extent v.entities ≤ n) (strict : Bool) :
    (E.backingSet backing name v strict).Grounded n fun _ => [] := by
  have hset : (do let _ ← E.setProperty backing name v strict; return () :
      Action σ Unit).Grounded n fun _ => [] :=
    (setProperty hE h _ hv _).bind fun _ m _ _ => .pure (Nat.zero_le m)
  have hfail : (Action.fail (.notDefined name) : Action σ PUnit).Grounded n fun _ => [] := .fail _
  unfold Engine.backingSet
  refine .look fun w _ hn => .ite ?_ (hset.of_le hn)
  exact (hfail.of_le hn).bind fun _ m hm _ => hset.of_le (Nat.le_trans hn hm)

theorem readImport (hE : E.Grounded) (name : String) (i : Import) :
    (E.readImport name i).Grounded n Value.entities := by
  unfold Engine.readImport
  refine Action.Grounded.settle.bind fun _ m _ _ => .look fun w _ _ => .ite ?_ (.fail _)
  exact (hE.readExport _ _ _).holding _

/-! ## Names of an environment -/

/-- An operation on slots is grounded if what it leaves names what was named before or was given to
it. -/
theorem updateSlots (s : ScopeId) {f : Bindings → Except Error Bindings}
    (hstep : ∀ (r : Record) slots, f r.slots = .ok slots → r.Step (r.withSlots slots))
    (hextent : ∀ m slots slots', n ≤ m → extent (Bindings.entities slots) ≤ m →
      f slots = .ok slots' → extent (Bindings.entities slots') ≤ m) :
    (Engine.updateSlots s f : Action σ Unit).Grounded n fun _ => [] := by
  refine .attempt fun w hw hn _ w' hrun => ⟨?_, Nat.zero_le _⟩
  dsimp only at hrun
  cases hslots : f (w.scope s).record.slots with
  | error e =>
      rw [hslots] at hrun
      cases hrun
  | ok slots =>
      rw [hslots] at hrun
      cases hrun
      have hrecord := hw.records s
      exact hw.develops_setRecord s (hstep _ _ hslots) (Record.extent_withSlots_le hrecord
        (hextent _ _ _ hn (Record.extent_slots_le hrecord) hslots))

theorem createSlot (s : ScopeId) (name : String) (mutable deletable strict : Bool) :
    (Engine.updateSlots s fun slots => .ok (slots.create name mutable deletable strict) :
      Action σ Unit).Grounded n fun _ => [] := by
  refine updateSlots s (fun r slots h => ?_) fun m slots slots' _ hslots h => ?_
  · cases h
    exact .create name mutable deletable strict
  · cases h
    exact Bindings.extent_create_le name mutable deletable strict hslots

theorem initSlot (s : ScopeId) (name : String) (hv : extent v.entities ≤ n) :
    (Engine.updateSlots s (·.init name v) : Action σ Unit).Grounded n fun _ => [] :=
  updateSlots s (fun _ _ h => .init h) fun _ _ _ hm hslots h =>
    Bindings.extent_init_le hslots (Nat.le_trans hv hm) h

theorem assignSlot (s : ScopeId) (name : String) (hv : extent v.entities ≤ n) (strict : Bool) :
    (Engine.updateSlots s (·.assign name v strict) : Action σ Unit).Grounded n fun _ => [] :=
  updateSlots s (fun _ _ h => .assign h) fun _ _ _ hm hslots h =>
    Bindings.extent_assign_le hslots (Nat.le_trans hv hm) h

theorem hasBinding (hE : E.Grounded) (s : ScopeId) (name : String) :
    (E.hasBinding s name).Grounded n fun _ => [] := by
  unfold Engine.hasBinding
  refine .look fun w hw _ => .ite (.pure (Nat.zero_le _)) ?_
  split
  · next hbacking => exact backingHas hE (hw.backing hbacking) _ name
  · exact .pure (Nat.zero_le _)

theorem createMutable (s : ScopeId) (name : String) (deletable : Bool) :
    (Engine.createMutable s name deletable : Action σ Unit).Grounded n fun _ => [] := by
  unfold Engine.createMutable
  refine .look fun w _ _ => ?_
  split
  · exact defineOrFail _ _ (Nat.zero_le _)
  · exact .ite (.fail _) (createSlot s name true deletable false)
  · exact createSlot s name true deletable false

theorem createImmutable (s : ScopeId) (name : String) (strict : Bool) :
    (Engine.createImmutable s name strict : Action σ Unit).Grounded n fun _ => [] := by
  unfold Engine.createImmutable
  refine .look fun w _ _ => ?_
  split
  · exact .fail _
  · exact .ite (.fail _) (createSlot s name false false strict)
  · exact createSlot s name false false strict

theorem initBinding (hE : E.Grounded) (s : ScopeId) (name : String)
    (hv : extent v.entities ≤ n) : (E.initBinding s name v).Grounded n fun _ => [] := by
  unfold Engine.initBinding
  refine .look fun w hw hn => ?_
  have hv := Nat.le_trans hv hn
  dsimp only
  split
  · next hbacking =>
    exact .ite (initSlot s name hv) (backingSet hE (hw.backing hbacking) name hv false)
  · exact initSlot s name hv

theorem setBinding (hE : E.Grounded) (s : ScopeId) (name : String)
    (hv : extent v.entities ≤ n) (strict : Bool) :
    (E.setBinding s name v strict).Grounded n fun _ => [] := by
  unfold Engine.setBinding
  refine .look fun w hw hn => ?_
  have hv := Nat.le_trans hv hn
  dsimp only
  split
  · next hbacking =>
    exact .ite (assignSlot s name hv strict) (backingSet hE (hw.backing hbacking) name hv strict)
  · exact assignSlot s name hv strict

theorem getBinding (hE : E.Grounded) (s : ScopeId) (name : String) (strict : Bool) :
    (E.getBinding s name strict).Grounded n Value.entities := by
  unfold Engine.getBinding
  refine .look fun w hw _ => ?_
  have hread : (Action.ofExcept ((w.scope s).record.slots.read name) :
      Action σ Value).Grounded w.objects.size Value.entities :=
    .ofExcept fun _ h => Bindings.extent_read_le (Record.extent_slots_le (hw.records s)) h
  dsimp only
  split
  · exact readImport hE name _
  · split
    · next hbacking => exact .ite hread (backingGet hE (hw.backing hbacking) name strict)
    · exact hread

theorem probeBinding (hE : E.Grounded) (s : ScopeId) (name : String) (strict : Bool) :
    (E.probeBinding s name strict).Grounded n probedEntities := by
  unfold Engine.probeBinding
  refine .look fun w hw _ => ?_
  have hprobe : (pure ((w.scope s).record.slots.probe name) :
      Action σ (Option (Binding × Value))).Grounded w.objects.size probedEntities := by
    refine .pure ?_
    cases hfound : (w.scope s).record.slots.probe name with
    | none => exact Nat.zero_le _
    | some found =>
        obtain ⟨hvalue, hextent⟩ :=
          Bindings.extent_probe_le (Record.extent_slots_le (hw.records s)) hfound
        exact extent_probed_le hvalue hextent
  dsimp only
  split
  · exact (readImport hE name _).bind fun v m _ hv => .pure (extent_probed_le rfl hv)
  · split
    · next hbacking =>
      have hlt := hw.backing hbacking
      refine .ite hprobe ((backingHas hE hlt _ name).bind fun has m hm _ => .ite ?_ ?_)
      · exact (backingGet hE (Nat.lt_of_lt_of_le hlt hm) name strict).bind fun v k _ hv =>
          .pure (extent_probed_le rfl hv)
      · exact .pure (Nat.zero_le m)
    · exact hprobe

theorem deleteBinding (s : ScopeId) (name : String) :
    (Engine.deleteBinding s name : Action σ Bool).Grounded n fun _ => [] := by
  refine .change fun w hw _ => ⟨?_, Nat.zero_le _⟩
  have hslots {slots : Bindings} (h : (w.scope s).record.slots.delete name = some slots) :
      w.Develops (w.setRecord s ((w.scope s).record.withSlots slots)) :=
    hw.develops_setRecord s (.delete h) (Record.extent_withSlots_le (hw.records s)
      (Bindings.extent_delete_le (Record.extent_slots_le (hw.records s)) h))
  dsimp only
  split
  · next backing _ _ =>
    have hdelete : w.Develops (w.delete backing name).2 :=
      World.Change.develops (.delete backing name) (hw.delete backing name)
    split
    · split
      · next h => exact hslots h
      · exact .refl
    · split
      · split
        · next deleted hdeleted =>
          have heq : deleted = (w.delete backing name).2 := by rw [hdeleted]
          have hscope : deleted.scope s = w.scope s := by rw [heq, World.delete_eq]; rfl
          rw [← heq] at hdelete
          have hclosed := hdelete.closed hw
          rw [← hscope]
          refine hdelete.change (.setRecord s (.removeVarName name)) (hclosed.setRecord s ?_)
          rw [Record.entities_removeVarName]
          exact hclosed.records s
        · next deleted hdeleted =>
          have heq : deleted = (w.delete backing name).2 := by rw [hdeleted]
          rw [heq]
          exact hdelete
      · exact .refl
  · split
    · next h => exact hslots h
    · exact .refl

/-! ## The value of `this` -/

theorem thisOf (s : ScopeId) : (Engine.thisOf s : Action σ Value).Grounded n Value.entities := by
  unfold Engine.thisOf
  exact .look fun w hw _ => .ofExcept fun _ h => Record.extent_this_le (hw.records s) h

theorem bindThis (s : ScopeId) (hv : extent v.entities ≤ n) :
    (Engine.bindThis s v : Action σ Unit).Grounded n fun _ => [] := by
  refine .attempt fun w hw hn _ w' hrun => ⟨?_, Nat.zero_le _⟩
  cases hbound : (w.scope s).record.bindThis v with
  | error e =>
      rw [hbound] at hrun
      cases hrun
  | ok bound =>
      rw [hbound] at hrun
      cases hrun
      exact hw.develops_setRecord s (.bindThis hbound)
        (Record.extent_bindThis_le (hw.records s) (Nat.le_trans hv hn) hbound)

theorem bindCallThis (s : ScopeId) (mode : ThisMode) (hv : extent v.entities ≤ n) :
    (Engine.bindCallThis s mode v : Action σ Unit).Grounded n fun _ => [] := by
  unfold Engine.bindCallThis
  split
  · exact .pure (Nat.zero_le n)
  · exact bindThis s hv
  · exact .ite (.look fun w hw _ => bindThis s (extent_object_le_iff.2 hw.global)) (bindThis s hv)

theorem resolveThis : (Engine.resolveThis : Action σ Value).Grounded n Value.entities := by
  unfold Engine.resolveThis
  exact .look fun w _ _ => thisOf _

/-! ## New environments -/

theorem newScope {record : Record} (h : extent record.entities ≤ n) (outer : Option ScopeId) :
    (Engine.newScope record outer : Action σ ScopeId).Grounded n fun _ => [] :=
  .change fun _ hw hn => ⟨World.Change.develops (.addScope record outer)
    (hw.addScope outer (Nat.le_trans h hn)), Nat.zero_le _⟩

theorem newFunctionScope (f : ObjectId) {newTarget : Option ObjectId}
    (h : extent (newTarget.toList.map .object) ≤ n) :
    (Engine.newFunctionScope f newTarget : Action σ ScopeId).Grounded n fun _ => [] := by
  unfold Engine.newFunctionScope
  refine .look fun w hw hn => ?_
  split
  · next hf =>
    have hnames : extent (.object f :: newTarget.toList.map .object) ≤ w.objects.size :=
      extent_object_cons_le_iff.2 ⟨(hw.function hf).1, Nat.le_trans h hn⟩
    exact newScope (extent_append_le_iff.2
      ⟨Nat.zero_le _, extent_append_le_iff.2 ⟨hnames, Nat.zero_le _⟩⟩) _
  · exact .fail _

theorem createScope {kind : NewScope} (h : extent kind.entities ≤ n) :
    (Engine.createScope kind : Action σ ScopeId).Grounded n fun _ => [] := by
  cases kind with
  | function f newTarget =>
      exact newFunctionScope f (extent_object_cons_le_iff.1 h).2
  | declarative outer | module outer => exact newScope (Nat.zero_le n) outer
  | object backing isWith outer => exact newScope h outer
  | global object this => exact newScope h none

theorem createImport (s : ScopeId) (source : ModuleId) (name exported : String) :
    (Engine.createImport s source name exported : Action σ Unit).Grounded n fun _ => [] := by
  refine .attempt fun w hw _ _ w' hrun => ⟨?_, Nat.zero_le _⟩
  cases hextended : (w.scope s).record.addImport name { source, exported } with
  | error e =>
      rw [hextended] at hrun
      cases hrun
  | ok extended =>
      rw [hextended] at hrun
      cases hrun
      exact hw.develops_setRecord s (.addImport hextended)
        (Record.extent_addImport_le (hw.records s) hextended)

/-! ## Declarations in a global environment -/

theorem recordVarName (s : ScopeId) (name : String) :
    (modifyGet fun w => (PUnit.unit, w.recordVarName s name) : Action σ PUnit).Grounded n
      fun _ => [] := by
  refine .modify fun w hw _ => ?_
  refine hw.develops_setRecord s (.addVarName name) ?_
  rw [Record.entities_addVarName]
  exact hw.records s

theorem createGlobalVar (hE : E.Grounded) (s : ScopeId) (name : String) (deletable : Bool) :
    (E.createGlobalVar s name deletable).Grounded n fun _ => [] := by
  unfold Engine.createGlobalVar
  refine .look fun w hw _ => ?_
  split
  · exact .pure (Nat.zero_le _)
  · next hinfo =>
    refine .ite ((defineOrFail _ _ (Nat.zero_le _)).bind fun _ m hm _ => ?_) (recordVarName s name)
    have hlt := Nat.lt_of_lt_of_le (hw.globalObject hinfo) hm
    exact (backingSet hE hlt name (v := .undefined) (Nat.zero_le m) false).bind fun _ _ _ _ =>
      recordVarName s name

theorem createGlobalFunction (hE : E.Grounded) (s : ScopeId) (name : String) {f : Value}
    (hf : extent f.entities ≤ n) (deletable : Bool) :
    (E.createGlobalFunction s name f deletable).Grounded n fun _ => [] := by
  unfold Engine.createGlobalFunction
  refine .look fun w hw hn => ?_
  split
  · exact .pure (Nat.zero_le _)
  · next hinfo =>
    refine (defineOrFail _ _ ?_).bind fun _ m hm _ => ?_
    · split <;> exact Nat.le_trans hf hn
    · have hlt := Nat.lt_of_lt_of_le (hw.globalObject hinfo) hm
      exact (setProperty hE hlt _ (Nat.le_trans (Nat.le_trans hf hn) hm) false).bind
        fun _ _ _ _ => recordVarName s name

/-! ## References -/

theorem firstWithBinding (hE : E.Grounded) (name : String) (chain : List ScopeId) :
    (E.firstWithBinding name chain).Grounded n fun _ => [] := by
  induction chain generalizing n with
  | nil => exact .pure (Nat.zero_le n)
  | cons s rest ih =>
      unfold Engine.firstWithBinding
      exact ((hasBinding hE s name).holding _).bind fun _ m _ _ => .ite (.pure (Nat.zero_le m)) ih

theorem chainOf (s : Option ScopeId) :
    (Engine.chainOf s : Action σ (List ScopeId)).Grounded n fun _ => [] :=
  .look fun _ _ _ => .pure (Nat.zero_le _)

theorem reference (hE : E.Grounded) (s : Option ScopeId) (name : String) (strict : Bool) :
    (E.reference s name strict).Grounded n fun _ => [] := by
  unfold Engine.reference
  refine (chainOf s).bind fun chain m _ _ => ?_
  exact (firstWithBinding hE name chain).bind fun _ k _ _ => .pure (Nat.zero_le k)

theorem resolve (hE : E.Grounded) (name : String) (strict : Bool) :
    (E.resolve name strict).Grounded n fun _ => [] := by
  unfold Engine.resolve
  exact .look fun w _ _ => reference hE _ name strict

theorem getReference (hE : E.Grounded) (r : Reference) :
    (E.getReference r).Grounded n Value.entities := by
  unfold Engine.getReference
  split
  · exact .fail _
  · exact getBinding hE _ _ _

theorem putReference (hE : E.Grounded) (r : Reference) (hv : extent v.entities ≤ n) :
    (E.putReference r v).Grounded n fun _ => [] := by
  unfold Engine.putReference
  split
  · refine .ite (.fail _) (.look fun w hw hn => ?_)
    exact (setProperty hE hw.global _ (Nat.le_trans hv hn) false).bind fun _ m _ _ =>
      .pure (Nat.zero_le m)
  · exact setBinding hE _ _ hv _

theorem probeIn (hE : E.Grounded) (name : String) (strict : Bool) (chain : List ScopeId) :
    (E.probeIn name strict chain).Grounded n fun v => (v.map Value.entities).getD [] := by
  induction chain generalizing n with
  | nil => exact .pure (Nat.zero_le n)
  | cons s rest ih =>
      unfold Engine.probeIn
      refine ((probeBinding hE s name strict).holding _).bind fun probed m _ hprobed => ?_
      split
      · exact .pure (extent_of_probed_le hprobed)
      · exact ((hasBinding hE s name).holding _).bind fun _ _ _ _ => .ite (.fail _) ih

theorem probeName (hE : E.Grounded) (s : Option ScopeId) (name : String) (strict : Bool) :
    (E.probeName s name strict).Grounded n fun v => (v.map Value.entities).getD [] := by
  unfold Engine.probeName
  exact (chainOf s).bind fun chain m _ _ => probeIn hE name strict chain

end Grounded

end EcmaCore
