import EcmaCore.Proofs.Scope.Assign

/-!
# Deleting names

A name is deleted where an environment keeps it, in its slots or in its backing object. A
global environment lists the names that were declared as variables or functions, and
deleting a name takes it off the list exactly where a property of the global object was
removed for it: not for a slot of that name, nor for a property that is inherited or cannot be
deleted.

## Main results

* `Engine.deleteBinding_of_slot`, `Engine.deleteBinding_of_backing`: deleting a name that is a
  slot, and one that is a property.
* `World.hasOwn_delete`: a property that is deleted is gone.
* `World.varNames_deleteBinding`: which names are listed as declared afterwards.
-/

namespace EcmaCore

variable {σ : Type}

/-- Deleting a property leaves the environments alone. -/
theorem World.scope_delete (w : World σ) (o : ObjectId) (key : PropertyKey) (s : ScopeId) :
    (w.delete o key).2.scope s = w.scope s := by
  rw [delete_eq]
  rfl

namespace Engine

variable {w : World σ} {s t : ScopeId} {name : String} {o : ObjectId}

/-! ## Where a name is deleted -/

/-- A name that an environment does not keep in its backing object is deleted from its slots. -/
theorem deleteBinding_of_slot (h : (w.scope s).record.backingFor? name = none) :
    deleteBinding s name w =
      match (w.scope s).record.slots.delete name with
      | some slots => .ok true (w.setRecord s ((w.scope s).record.withSlots slots))
      | none => .ok false w := by
  rw [deleteBinding, Action.change_apply]
  rcases Record.slot_or_backing_eq_none h with hslot | hbacking
  · simp only [hslot, if_true]
    cases (w.scope s).record.backing? <;>
      cases (w.scope s).record.slots.delete name <;> rfl
  · simp only [hbacking]
    cases (w.scope s).record.slots.delete name <;> rfl

/-- A name that an environment keeps in its backing object is deleted there, if it is one of its own
properties, and then comes off the list of declared names. -/
theorem deleteBinding_of_backing (h : (w.scope s).record.backingFor? name = some o) :
    deleteBinding s name w =
      if w.hasOwn o name then
        .ok (w.delete o name).1
          (if (w.delete o name).1 then
            (w.delete o name).2.setRecord s ((w.scope s).record.removeVarName name)
          else (w.delete o name).2)
      else .ok true w := by
  obtain ⟨hslot, isWith, hbacking⟩ := Record.backing_of_backingFor h
  rw [deleteBinding, Action.change_apply]
  simp only [hbacking, hslot, Bool.false_eq_true, if_false]
  split
  · rcases w.delete o name with ⟨_ | _, u⟩ <;> rfl
  · rfl

/-- Deleting a name of an environment leaves the others alone. -/
theorem scope_deleteBinding_of_ne (ht : t ≠ s) :
    ((deleteBinding s name).after w).scope t = w.scope t := by
  have hrecord (v : World σ) (record : Record) : (v.setRecord s record).scope t = v.scope t := by
    rw [World.scope_setRecord, if_neg fun heq => ht heq.1.symm]
  cases hplace : (w.scope s).record.backingFor? name with
  | none =>
      rw [Action.after, deleteBinding_of_slot hplace]
      cases (w.scope s).record.slots.delete name with
      | some slots => exact hrecord w _
      | none => rfl
  | some o =>
      rw [Action.after, deleteBinding_of_backing hplace]
      split
      · next h =>
        split at h <;> cases h
        · split
          · rw [hrecord, World.scope_delete]
          · exact w.scope_delete o name t
        · rfl
      · next h => split at h <;> cases h

end Engine

namespace World

variable {w : World σ} {t : ScopeId} {name : String} {o : ObjectId}

/-- A property that is deleted is gone, and one that cannot be deleted is still there. -/
theorem hasOwn_delete (h : w.hasOwn o name = true) :
    (w.delete o name).2.hasOwn o name = !(w.delete o name).1 := by
  have hlt : o.index < w.objects.size := by
    refine Nat.lt_of_not_le fun hle => ?_
    rw [hasOwn, own, w.object_of_size_le hle] at h
    cases h
  obtain ⟨p, hp⟩ := Option.isSome_iff_exists.1 h
  have hdelete : (w.object o).delete name =
      if p.configurable then
        some { w.object o with properties := (w.object o).properties.erase name }
      else none := by
    rw [Object.delete, show (w.object o).own name = some p from hp]
  unfold delete
  rw [hdelete]
  cases p.configurable with
  | true =>
      simp only [if_true, Bool.not_true, hasOwn, own, setObject, object_modifyObject, hlt, and_self]
      simp [Object.own, Table.get?_erase_self]
  | false => simpa using h

/-! ## Names listed as declared -/

/-- The names that a global environment lists as declared variables and functions. -/
def varNames (w : World σ) (s : ScopeId) : List String :=
  ((w.global? s).map GlobalScope.varNames).getD []

variable {slots : Bindings} {info : GlobalScope}

theorem varNames_of_record (h : (w.scope t).record = .global slots info) :
    w.varNames t = info.varNames := by
  rw [varNames, global?_of_record h]
  rfl

/-- Deleting a slot of a global environment leaves its list alone. -/
theorem varNames_deleteBinding_of_slot (h : (w.scope t).record = .global slots info)
    (hslot : slots.contains name = true) :
    ((Engine.deleteBinding t name).after w).varNames t = w.varNames t := by
  have hplace : (w.scope t).record.backingFor? name = none := by
    rw [h]
    exact if_pos hslot
  have hrun := Engine.deleteBinding_of_slot hplace
  rw [h] at hrun
  dsimp only [Record.slots] at hrun
  cases hdelete : slots.delete name with
  | some slots' =>
      rw [hdelete] at hrun
      have hafter := record_setRecord (index_lt_of_global h) (.global slots' info)
      rw [Action.after_of_ok hrun, varNames_of_record h]
      exact varNames_of_record hafter
  | none =>
      rw [hdelete] at hrun
      rw [Action.after_of_ok hrun]

/-- Deleting a property of the global object takes its name off the list. -/
theorem varNames_deleteBinding_of_backing (h : (w.scope t).record = .global slots info)
    (hslot : slots.contains name = false) :
    let deleted := (Engine.deleteBinding t name).after w
    deleted.varNames t =
      if w.hasOwn info.object name = true ∧ deleted.hasOwn info.object name = false then
        (w.varNames t).filter (· ≠ name)
      else w.varNames t := by
  intro deleted
  have hplace : (w.scope t).record.backingFor? name = some info.object := by
    rw [h]
    exact if_neg (by simp [Record.slots, hslot])
  have hrun := Engine.deleteBinding_of_backing hplace
  by_cases hown : w.hasOwn info.object name = true
  · rw [if_pos hown] at hrun
    have hgone := hasOwn_delete hown
    have hrecord : ((w.delete info.object name).2.scope t).record = .global slots info := by
      rw [scope_delete, h]
    cases hdelete : (w.delete info.object name).1 with
    | true =>
        rw [hdelete, if_pos rfl, h] at hrun
        rw [hdelete] at hgone
        have hafter := record_setRecord (index_lt_of_global hrecord)
          ((Record.global slots info).removeVarName name)
        have hdeleted : deleted = (w.delete info.object name).2.setRecord t
            ((Record.global slots info).removeVarName name) := Action.after_of_ok hrun
        have hnone : deleted.hasOwn info.object name = false := by
          rw [hdeleted]
          exact hgone
        rw [if_pos ⟨hown, hnone⟩, hdeleted, varNames_of_record hafter, varNames_of_record h]
    | false =>
        rw [hdelete] at hrun hgone
        have hdeleted : deleted = (w.delete info.object name).2 := Action.after_of_ok hrun
        have hstill : deleted.hasOwn info.object name = true := by
          rw [hdeleted]
          exact hgone
        rw [if_neg fun hall => by simp [hstill] at hall, hdeleted, varNames_of_record hrecord,
          varNames_of_record h]
  · rw [if_neg hown] at hrun
    have hdeleted : deleted = w := Action.after_of_ok hrun
    rw [if_neg fun hall => hown hall.1, hdeleted]

/-- Deleting a name of any environment takes it off the list of a global environment exactly if the
environment is this one, has no slot of the name, and a property of the global object was removed
for it. -/
theorem varNames_deleteBinding (h : (w.scope t).record = .global slots info) (s : ScopeId)
    (name : String) :
    let deleted := (Engine.deleteBinding s name).after w
    deleted.varNames t =
      if s = t ∧ w.hasLexicalDeclaration s name = false ∧
          w.hasOwn info.object name = true ∧ deleted.hasOwn info.object name = false then
        (w.varNames t).filter (· ≠ name)
      else w.varNames t := by
  intro deleted
  by_cases hs : s = t
  · subst hs
    have hlexical : w.hasLexicalDeclaration s name = slots.contains name := by
      rw [hasLexicalDeclaration, h]
      rfl
    rw [hlexical]
    cases hslot : slots.contains name with
    | true => simpa using varNames_deleteBinding_of_slot h hslot
    | false => simpa using varNames_deleteBinding_of_backing h hslot
  · rw [if_neg fun hall => hs hall.1, varNames, global?,
      Engine.scope_deleteBinding_of_ne (Ne.symm hs)]
    rfl

end World

end EcmaCore
