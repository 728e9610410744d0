import EcmaCore.Scope.Record

/-!
# What operations do to slots

One equation for each operation on declared bindings: which binding every name has
afterwards. An operation concerns the binding of its own name and leaves the others
alone.

A *pinned* slot has a value, is constant, cannot be deleted, and counts every assignment
as strict. No operation unpins a slot.

## Main results

* `get?_init`, `get?_assign`, `get?_delete`: the bindings after an operation.
* `Pinned.assign_eq`, `Pinned.delete_eq`: a pinned slot refuses assignments and deletion.
* `Pinned.create`, `Pinned.init`, `Pinned.assign`, `Pinned.delete`: it stays pinned whatever
  is done to it or to other slots.
-/

namespace EcmaCore

/-- Assignments to a binding always fail, and so does its deletion. -/
def Binding.IsFixed (b : Binding) : Prop :=
  b.mutable = false ∧ b.deletable = false ∧ b.strict = true

instance (b : Binding) : Decidable b.IsFixed := by
  unfold Binding.IsFixed
  infer_instance

namespace Bindings

variable {bs bs' : Bindings} {name other : String} {v : Value} {strict : Bool}

/-! ## The bindings after an operation -/

/-- Initialising gives the binding of a name its value. -/
theorem get?_init (h : bs.init name v = .ok bs') (other : String) :
    bs'.get? other =
      if name = other then (bs.get? name).map ({ · with value := some v }) else bs.get? other := by
  unfold init at h
  cases hb : bs.get? name with
  | none =>
      rw [hb] at h
      cases h
  | some b =>
      rw [hb] at h
      cases h
      rw [Table.get?_insert]
      rfl

/-- Only a binding that is there can be initialised. -/
theorem init_eq_ok_iff : (∃ bs', bs.init name v = .ok bs') ↔ (bs.get? name).isSome := by
  unfold init
  cases hb : bs.get? name with
  | none => simp
  | some b => simp

/-- Assigning gives a mutable binding its value, leaves a constant as it is, and creates what is
missing. -/
theorem get?_assign (h : bs.assign name v strict = .ok bs') (other : String) :
    bs'.get? other =
      if name = other then
        some (match bs.get? name with
          | none => { value := some v, mutable := true, deletable := true, strict := false }
          | some b => if b.mutable then { b with value := some v } else b)
      else bs.get? other := by
  unfold assign at h
  cases hb : bs.get? name with
  | none =>
      rw [hb] at h
      cases strict with
      | true => cases h
      | false =>
          have hcreated (x : String) :
              (bs.create name true true false).get? x =
                if name = x then some ⟨none, true, true, false⟩ else bs.get? x := by
            rw [get?_create]
            simp only [hb, and_true]
          rw [get?_init h, hcreated, hcreated]
          by_cases heq : name = other
          · simp [heq]
          · simp [heq]
  | some b =>
      rw [hb] at h
      dsimp only at h ⊢
      by_cases hvalue : b.value.isNone = true
      · rw [if_pos hvalue] at h
        cases h
      · rw [if_neg hvalue] at h
        by_cases hmutable : b.mutable = true
        · rw [if_pos hmutable] at h ⊢
          cases h
          exact bs.get?_insert name other _
        · rw [if_neg hmutable] at h ⊢
          split at h
          · cases h
          · cases h
            split
            · next heq =>
              rw [← heq]
              exact hb
            · rfl

/-- Only a constant with a value answers an assignment by saying so. -/
theorem assign_eq_constantAssigned
    (h : bs.assign name v strict = .error (.constantAssigned name)) :
    ∃ b, bs.get? name = some b ∧ b.value.isSome = true ∧ b.mutable = false ∧
      (strict || b.strict) = true := by
  unfold assign at h
  cases hb : bs.get? name with
  | none =>
      rw [hb] at h
      cases strict with
      | true => cases h
      | false =>
          have hcreated : ((bs.create name true true false).get? name).isSome := by
            rw [get?_create, if_pos ⟨rfl, hb⟩]
            rfl
          obtain ⟨bs', hinit⟩ := init_eq_ok_iff (v := v).2 hcreated
          simp only [Bool.false_eq_true, if_false, hinit] at h
          cases h
  | some b =>
      rw [hb] at h
      dsimp only at h
      by_cases hvalue : b.value.isNone = true
      · rw [if_pos hvalue] at h
        cases h
      · rw [if_neg hvalue] at h
        by_cases hmutable : b.mutable = true
        · rw [if_pos hmutable] at h
          cases h
        · rw [if_neg hmutable] at h
          have hsome : b.value.isSome = true := by
            rw [Option.isSome_iff_ne_none]
            simpa using hvalue
          split at h
          · next hstrict => exact ⟨b, rfl, hsome, by simpa using hmutable, hstrict⟩
          · cases h

/-- Deleting takes a binding away. -/
theorem get?_delete (h : bs.delete name = some bs') (other : String) :
    bs'.get? other = if name = other then none else bs.get? other := by
  unfold delete at h
  cases hb : bs.get? name with
  | none =>
      rw [hb] at h
      cases h
      split
      · next heq =>
        rw [← heq]
        exact hb
      · rfl
  | some b =>
      rw [hb] at h
      dsimp only at h
      split at h
      · cases h
        exact bs.get?_erase name other
      · cases h

/-! ## Pinned slots -/

/-- A slot has a value and is fixed. -/
def Pinned (bs : Bindings) (name : String) : Prop :=
  ∃ b, bs.get? name = some b ∧ b.value.isSome = true ∧ b.IsFixed

namespace Pinned

theorem contains_eq (h : bs.Pinned name) : bs.contains name = true := by
  obtain ⟨b, hb, -⟩ := h
  rw [Table.contains_eq_isSome, hb]
  rfl

/-- Whatever is assigned to a pinned slot, and however, is refused. -/
theorem assign_eq (h : bs.Pinned name) (v : Value) (strict : Bool) :
    bs.assign name v strict = .error (.constantAssigned name) := by
  obtain ⟨b, hb, hvalue, hmutable, -, hstrict⟩ := h
  rw [assign, hb]
  simp [Option.isSome_iff_ne_none.1 hvalue, hmutable, hstrict]

theorem delete_eq (h : bs.Pinned name) : bs.delete name = none := by
  obtain ⟨b, hb, -, -, hdeletable, -⟩ := h
  rw [Bindings.delete, hb]
  simp [hdeletable]

/-- Creating any binding keeps a pinned slot. -/
theorem create (h : bs.Pinned name) (other : String) (mutable deletable strict : Bool) :
    (bs.create other mutable deletable strict).Pinned name := by
  obtain ⟨b, hb, hpinned⟩ := h
  refine ⟨b, ?_, hpinned⟩
  rw [get?_create, if_neg]
  · exact hb
  · rintro ⟨rfl, hnone⟩
    rw [hb] at hnone
    cases hnone

/-- Initialising a pinned slot once more changes its value only. -/
theorem init (h : bs.Pinned name) (hinit : bs.init other v = .ok bs') : bs'.Pinned name := by
  obtain ⟨b, hb, hvalue, hfixed⟩ := h
  by_cases heq : other = name
  · subst heq
    refine ⟨{ b with value := some v }, ?_, rfl, hfixed⟩
    rw [get?_init hinit, if_pos rfl, hb]
    rfl
  · refine ⟨b, ?_, hvalue, hfixed⟩
    rw [get?_init hinit, if_neg heq]
    exact hb

theorem assign (h : bs.Pinned name) (hassign : bs.assign other v strict = .ok bs') :
    bs'.Pinned name := by
  by_cases heq : other = name
  · subst heq
    rw [h.assign_eq] at hassign
    cases hassign
  · obtain ⟨b, hb, hpinned⟩ := h
    refine ⟨b, ?_, hpinned⟩
    rw [get?_assign hassign, if_neg heq]
    exact hb

theorem delete (h : bs.Pinned name) (hdelete : bs.delete other = some bs') : bs'.Pinned name := by
  by_cases heq : other = name
  · subst heq
    rw [h.delete_eq] at hdelete
    cases hdelete
  · obtain ⟨b, hb, hpinned⟩ := h
    refine ⟨b, ?_, hpinned⟩
    rw [get?_delete hdelete, if_neg heq]
    exact hb

end Pinned

end Bindings

end EcmaCore
