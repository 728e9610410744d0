import EcmaCore.Proofs.Guarantee.Program
import EcmaCore.Proofs.World.Settle

/-!
# What becomes of environments

An environment stays where it was created: its outer environment never changes, and
its record changes by the steps of `Record.Step` only. So a relation between records
that every step respects holds between an environment before and after any run.

## Main results

* `Change.scopes_cases`: what a single change does to the environments of a world and
  to the stack of contexts.
* `recordsKeep_guarantee`: what every step of a record respects, every run respects.
* `Engine.updateSlots_eq`: what updating the slots of an environment comes to.
-/

namespace EcmaCore.World

variable {σ : Type}

/-! ## Environments after a change -/

theorem scope_setRecord (w : World σ) (s other : ScopeId) (record : Record) :
    (w.setRecord s record).scope other =
      if s = other ∧ s.index < w.scopes.size then { w.scope other with record := record }
      else w.scope other := by
  obtain ⟨i⟩ := s
  obtain ⟨j⟩ := other
  simp only [setRecord, scope, Array.getD_eq_getD_getElem?, Array.getElem?_modify, ScopeId.mk.injEq]
  by_cases hij : i = j
  · subst hij
    by_cases hlt : i < w.scopes.size
    · simp [hlt]
    · simp [hlt]
  · simp [hij]

@[simp] theorem size_setRecord (w : World σ) (s : ScopeId) (record : Record) :
    (w.setRecord s record).scopes.size = w.scopes.size := by
  simp [setRecord]

theorem outer_setRecord (w : World σ) (s other : ScopeId) (record : Record) :
    ((w.setRecord s record).scope other).outer = (w.scope other).outer := by
  rw [scope_setRecord]
  split <;> rfl

theorem scope_addScope (w : World σ) (record : Record) (outer : Option ScopeId) (s : ScopeId) :
    (w.addScope record outer).2.scope s =
      if s.index = w.scopes.size then { record, outer } else w.scope s := by
  simp only [addScope, scope, Array.getD_eq_getD_getElem?, Array.getElem?_push]
  split <;> rfl

@[simp] theorem size_addScope (w : World σ) (record : Record) (outer : Option ScopeId) :
    (w.addScope record outer).2.scopes.size = w.scopes.size + 1 := by
  simp [addScope]

/-- An environment beyond the last one reads as an empty declarative one. -/
theorem scope_of_size_le (w : World σ) {s : ScopeId} (h : w.scopes.size ≤ s.index) :
    w.scope s = { record := .declarative .empty, outer := none } := by
  simp [scope, Array.getD_eq_getD_getElem?, Array.getElem?_eq_none h]

theorem global?_of_record {w : World σ} {s : ScopeId} {slots : Bindings} {info : GlobalScope}
    (h : (w.scope s).record = .global slots info) : w.global? s = some info := by
  rw [global?, h]

/-- An environment that is no empty declarative one is an environment of the world. -/
theorem index_lt_of_record {w : World σ} {s : ScopeId}
    (h : (w.scope s).record ≠ .declarative .empty) : s.index < w.scopes.size := by
  refine Nat.lt_of_not_le fun hle => h ?_
  rw [w.scope_of_size_le hle]

theorem index_lt_of_global {w : World σ} {s : ScopeId} {slots : Bindings} {info : GlobalScope}
    (h : (w.scope s).record = .global slots info) : s.index < w.scopes.size :=
  index_lt_of_record (by rw [h]; nofun)

/-- The environment of a record that was replaced has the new record. -/
theorem record_setRecord {w : World σ} {s : ScopeId} (h : s.index < w.scopes.size)
    (record : Record) : ((w.setRecord s record).scope s).record = record := by
  rw [scope_setRecord, if_pos ⟨rfl, h⟩]

/-- Replacing a record by itself changes nothing. -/
theorem setRecord_self {w : World σ} {s : ScopeId} {record : Record}
    (h : (w.scope s).record = record) : w.setRecord s record = w := by
  have hscopes : w.scopes.modify s.index ({ · with record := record }) = w.scopes := by
    refine Array.ext (by simp) fun i hi _ => ?_
    rw [Array.getElem_modify]
    split
    · next heq =>
      subst heq
      have hlt : s.index < w.scopes.size := by simpa using hi
      have hscope : w.scopes[s.index] = w.scope s := by
        simp [scope, Array.getD_eq_getD_getElem?, hlt]
      rw [hscope, ← h]
    · rfl
  rw [setRecord, hscopes]

/-- Replacing the record of an environment that is not there changes nothing. -/
theorem setRecord_of_size_le {w : World σ} {s : ScopeId} (h : w.scopes.size ≤ s.index)
    (record : Record) : w.setRecord s record = w := by
  have hscopes : w.scopes.modify s.index ({ · with record := record }) = w.scopes := by
    refine Array.ext (by simp) fun i hi _ => ?_
    rw [Array.getElem_modify, if_neg]
    have hlt : i < w.scopes.size := by simpa using hi
    omega
  rw [setRecord, hscopes]

/-- Settling leaves the stack of contexts alone. -/
theorem contexts_settle [Embedding σ] (w : World σ) : w.settle.contexts = w.contexts := by
  rw [settle_eq]
  apply foldl_giveUp_eq (·.contexts)
  intro e _ w'
  unfold giveUp
  repeat' split
  all_goals rfl

/-- A change leaves the stack of contexts alone. It adds an environment, makes a step of one record,
or leaves all environments as they are. -/
theorem Change.scopes_cases [Embedding σ] {L : Licence} {w w' : World σ} (h : Change L w w') :
    w'.contexts = w.contexts ∧
      (w'.scopes = w.scopes ∨ (∃ record outer, w' = (w.addScope record outer).2) ∨
        ∃ s record, (w.scope s).record.Step record ∧ w' = w.setRecord s record) := by
  cases h with
  | addScope record outer => exact ⟨rfl, .inr (.inl ⟨record, outer, rfl⟩)⟩
  | setRecord s hstep => exact ⟨rfl, .inr (.inr ⟨s, _, hstep, rfl⟩)⟩
  | settle => exact ⟨w.contexts_settle, .inl w.survives_settle.scopes⟩
  | define o key update =>
      rw [define_eq]
      exact ⟨rfl, .inl rfl⟩
  | delete o key =>
      rw [delete_eq]
      exact ⟨rfl, .inl rfl⟩
  | detach o =>
      unfold detachBuffer
      split <;> exact ⟨rfl, .inl rfl⟩
  | fill o =>
      unfold fillBuffer
      split <;> exact ⟨rfl, .inl rfl⟩
  | reserve h =>
      obtain ⟨_, _, _, rfl⟩ := reserve_eq_ok h
      exact ⟨rfl, .inl rfl⟩
  | moveReservation h =>
      rcases moveReservation_eq_ok h with ⟨_, rfl⟩ | ⟨_, _, _, _, rfl⟩ <;> exact ⟨rfl, .inl rfl⟩
  | dropReservation r =>
      unfold World.dropReservation
      split <;> exact ⟨rfl, .inl rfl⟩
  | _ => exact ⟨rfl, .inl rfl⟩

/-! ## Environments after a run -/

/-- The environments of a world are still there, around the same ones, and their records relate to
what they were. -/
structure RecordsKeep (Q : Record → Record → Prop) (w w' : World σ) : Prop where
  size : w.scopes.size ≤ w'.scopes.size
  outer : ∀ s : ScopeId, s.index < w.scopes.size → (w'.scope s).outer = (w.scope s).outer
  record : ∀ s : ScopeId, s.index < w.scopes.size → Q (w.scope s).record (w'.scope s).record

variable {Q : Record → Record → Prop}

theorem recordsKeep_of_scopes (hrefl : ∀ r, Q r r) {w w' : World σ} (h : w'.scopes = w.scopes) :
    w.RecordsKeep Q w' := by
  have hscope (s : ScopeId) : w'.scope s = w.scope s := by rw [scope, scope, h]
  refine ⟨Nat.le_of_eq (by rw [h]), fun s _ => by rw [hscope], fun s _ => ?_⟩
  rw [hscope]
  exact hrefl _

theorem recordsKeep_change [Embedding σ] (hrefl : ∀ r, Q r r)
    (hstep : ∀ r r' : Record, r.Step r' → Q r r') {L : Licence} {w w' : World σ}
    (h : Change L w w') : w.RecordsKeep Q w' := by
  rcases h.scopes_cases.2 with hscopes | ⟨record, outer, rfl⟩ | ⟨s, record, hrecord, rfl⟩
  · exact recordsKeep_of_scopes hrefl hscopes
  · have hold (s : ScopeId) (hlt : s.index < w.scopes.size) :
        (w.addScope record outer).2.scope s = w.scope s := by
      rw [scope_addScope, if_neg (Nat.ne_of_lt hlt)]
    refine ⟨by simp, fun s hlt => by rw [hold s hlt], fun s hlt => ?_⟩
    rw [hold s hlt]
    exact hrefl _
  · refine ⟨by simp, fun other _ => w.outer_setRecord s other record, fun other _ => ?_⟩
    rw [scope_setRecord]
    split
    · next heq =>
      rw [← heq.1]
      exact hstep _ _ hrecord
    · exact hrefl _

/-- A preorder on records that every step respects is respected by every run. -/
theorem recordsKeep_guarantee [Embedding σ] (hrefl : ∀ r, Q r r)
    (htrans : ∀ {r r' r'' : Record}, Q r r' → Q r' r'' → Q r r'')
    (hstep : ∀ r r' : Record, r.Step r' → Q r r') (L : Licence) :
    RunGuarantee L (RecordsKeep (σ := σ) Q) where
  refl _ := recordsKeep_of_scopes hrefl rfl
  trans h h' :=
    have hlt {s : ScopeId} (hs : s.index < _) := Nat.lt_of_lt_of_le hs h.size
    { size := Nat.le_trans h.size h'.size
      outer := fun s hs => (h'.outer s (hlt hs)).trans (h.outer s hs)
      record := fun s hs => htrans (h.record s hs) (h'.record s (hlt hs)) }
  change h := recordsKeep_change hrefl hstep h
  contexts _ _ := recordsKeep_of_scopes hrefl rfl

end EcmaCore.World

namespace EcmaCore.Engine

variable {σ : Type}

/-- Updating the slots of an environment replaces its record, or it fails and changes nothing. -/
theorem updateSlots_eq (s : ScopeId) (f : Bindings → Except Error Bindings) (w : World σ) :
    updateSlots s f w =
      match f (w.scope s).record.slots with
      | .ok slots => .ok () (w.setRecord s ((w.scope s).record.withSlots slots))
      | .error e => .error (.thrown e) w := by
  cases hf : f (w.scope s).record.slots with
  | ok slots =>
      refine Action.attempt_ok ?_
      simp only [hf]
      rfl
  | error e =>
      refine Action.attempt_error ?_
      simp only [hf]
      rfl

end EcmaCore.Engine
