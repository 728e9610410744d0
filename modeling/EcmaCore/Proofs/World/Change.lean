import EcmaCore.Request

/-!
# Changes of a world

Everything that an operation does to a world is a sequence of single changes,
and this module lists the changes there are. It is the one place that says what
running code can do: an invariant of worlds that every change keeps is kept by
every run, whatever user code takes part in it.

The stack of contexts is not on the list, since only calls and the embedding
program move it. Two of the changes need a `Licence`: a redefinition of a
property that is not *coherent*, that is, honours fields of another kind of
property than it carries, and a buffer that is not charged to the ledger.

## Main results

* `object_modifyObject`, `object_addObject`: how the objects of a world answer
  after a change.
* `define_eq`, `delete_eq`: defining and deleting as changes of one object.
* `reserve_eq_ok`, `moveReservation_eq_ok`: what became of a reservation.
* `settle_induction`: what giving up one entity keeps, settling keeps.
-/

namespace EcmaCore

/-! ## Coherent redefinitions -/

/-- The fields that a redefinition honours belong to the kind of property that it carries. -/
def PropertyUpdate.Coherent (u : PropertyUpdate) : Prop :=
  match u.carried with
  | .data .. => u.honoursGetter = false ∧ u.honoursSetter = false
  | .accessor .. => u.honoursValue = false ∧ u.honoursWritable = false

instance (u : PropertyUpdate) : Decidable u.Coherent := by
  unfold PropertyUpdate.Coherent
  split <;> infer_instance

namespace PropertyUpdate

@[simp] theorem coherent_full (p : Property) : (full p).Coherent := by
  cases p <;> exact ⟨rfl, rfl⟩

@[simp] theorem coherent_ordinary (v : Value) : (ordinary v).Coherent :=
  coherent_full _

@[simp] theorem coherent_valueOnly (v : Value) : (valueOnly v).Coherent :=
  ⟨rfl, rfl⟩

@[simp] theorem coherent_freeze : freeze.Coherent :=
  ⟨rfl, rfl⟩

end PropertyUpdate

/-! ## Licences -/

/-- What user code may do apart from what every program may: redefine properties incoherently, and
create buffers that are not charged to the ledger. -/
structure Licence where
  incoherent : Prop
  uncharged : Prop

/-- The licence to everything. -/
def Licence.all : Licence := ⟨True, True⟩

/-- The licence to everything but incoherent redefinitions. -/
def Licence.coherent : Licence := ⟨False, True⟩

/-- The licence to everything but buffers that are not charged. -/
def Licence.charged : Licence := ⟨True, False⟩

/-! ## New objects -/

namespace Object

/-- Defining a property leaves the prototype and the nature of an object alone. -/
theorem define_frame {o changed : Object} {key : PropertyKey} {update : PropertyUpdate}
    (h : o.define key update = some changed) :
    changed.prototype = o.prototype ∧ changed.nature = o.nature ∧
      changed.extensible = o.extensible := by
  unfold define at h
  split at h
  · split at h
    · cases h
      exact ⟨rfl, rfl, rfl⟩
    · cases h
  · split at h
    · cases h
      exact ⟨rfl, rfl, rfl⟩
    · split at h
      · cases h
        exact ⟨rfl, rfl, rfl⟩
      · cases h

@[simp] theorem nature_defineQuietly (o : Object) (key : PropertyKey) (update : PropertyUpdate) :
    (o.defineQuietly key update).nature = o.nature := by
  unfold defineQuietly
  cases h : o.define key update with
  | none => rfl
  | some changed => exact (define_frame h).2.1

@[simp] theorem buffer?_defineQuietly (o : Object) (key : PropertyKey) (update : PropertyUpdate) :
    (o.defineQuietly key update).buffer? = o.buffer? := by
  rw [buffer?, nature_defineQuietly, ← buffer?]

@[simp] theorem nature_delete (o : Object) (key : PropertyKey) :
    ((o.delete key).getD o).nature = o.nature := by
  unfold delete
  split
  · rfl
  · split <;> rfl

@[simp] theorem buffer?_delete (o : Object) (key : PropertyKey) :
    ((o.delete key).getD o).buffer? = o.buffer? := by
  rw [buffer?, nature_delete, ← buffer?]

@[simp] theorem buffer?_ofNative (prototype : Option ObjectId) (key : PropertyKey) (arity : UInt32)
    (call : Behaviour) (construct : Option Behaviour) :
    (ofNative prototype key arity call construct).buffer? = none := by
  simp only [ofNative, setFunctionName, setFunctionLength, buffer?_defineQuietly]
  rfl

@[simp] theorem buffer?_ofOrdinary (prototype : ObjectId) (name : String) (length : UInt32)
    (f : OrdinaryFunction) : (ofOrdinary prototype name length f).buffer? = none := by
  simp only [ofOrdinary, setFunctionName, setFunctionLength, buffer?_defineQuietly]
  rfl

@[simp] theorem buffer?_thrower (functionPrototype : ObjectId) :
    (thrower functionPrototype).buffer? = none := by
  have hframe (o : Object) : o.preventExtensions.buffer? = o.buffer? := rfl
  simp only [thrower, hframe, buffer?_defineQuietly, buffer?_ofNative]

end Object

/-! ## Steps of an environment record -/

/-- What one operation on an environment does to its record. -/
inductive Record.Step (r : Record) : Record → Prop
  | create (name : String) (mutable deletable strict : Bool) :
      Step r (r.withSlots (r.slots.create name mutable deletable strict))
  | init {name : String} {v : Value} {slots : Bindings} (h : r.slots.init name v = .ok slots) :
      Step r (r.withSlots slots)
  | assign {name : String} {v : Value} {strict : Bool} {slots : Bindings}
      (h : r.slots.assign name v strict = .ok slots) : Step r (r.withSlots slots)
  | delete {name : String} {slots : Bindings} (h : r.slots.delete name = some slots) :
      Step r (r.withSlots slots)
  | bindThis {v : Value} {bound : Record} (h : r.bindThis v = .ok bound) : Step r bound
  | addVarName (name : String) : Step r (r.addVarName name)
  | removeVarName (name : String) : Step r (r.removeVarName name)
  | addImport {name : String} {target : Import} {extended : Record}
      (h : r.addImport name target = .ok extended) : Step r extended

/-! ## Changes -/

/-- A charged buffer of zeros, as an object with the given prototype. -/
def Object.charged (prototype : ObjectId) (length : UInt64) (maximum : Option UInt64) : Object :=
  .new (some prototype) (.buffer { Buffer.zeros length maximum false with reserved := some length })

/-- The single changes of a world under a licence. -/
inductive World.Change {σ : Type} [Embedding σ] (L : Licence) (w : World σ) : World σ → Prop
  -- what only bookkeeping sees
  | hold (entities : List Entity) : Change L w { w with held := entities }
  | host (f : σ → σ) : Change L w { w with host := f w.host }
  | countSymbol : Change L w { w with symbolCount := w.symbolCount + 1 }
  | keepRealm (r : Realm) : Change L w { w with otherRealms := r :: w.otherRealms }
  | settle : Change L w w.settle
  -- objects
  | define (o : ObjectId) (key : PropertyKey) (update : PropertyUpdate)
      (h : update.Coherent ∨ L.incoherent) : Change L w (w.define o key update).2
  | delete (o : ObjectId) (key : PropertyKey) : Change L w (w.delete o key).2
  | preventExtensions (o : ObjectId) : Change L w (w.modifyObject o Object.preventExtensions)
  | addObject (new : Object) (h : new.buffer? = none) : Change L w (w.addObject new).2
  -- environments and modules
  | addScope (record : Record) (outer : Option ScopeId) :
      Change L w (w.addScope record outer).2
  | setRecord (s : ScopeId) {record : Record} (h : (w.scope s).record.Step record) :
      Change L w (w.setRecord s record)
  | addModule (source : ModuleSource) : Change L w (w.addModule source).2
  -- buffers and their memory
  | askMemory : Change L w { w with memory := w.memory.advance }
  | addUncharged (prototype : Option ObjectId) (length : UInt64) (maximum : Option UInt64)
      (shared : Bool) (h : L.uncharged) :
      Change L w (w.addObject (.new prototype (.buffer (.zeros length maximum shared)))).2
  | addBuffer (prototype : ObjectId) (maximum : Option UInt64) {length : UInt64} {ledger : Ledger}
      (h : w.ledger.charge length = .ok ledger) :
      Change L w
        ({ w with ledger, memory := w.memory.advance }.addObject
          (.charged prototype length maximum)).2
  | failBuffer {length : UInt64} {ledger : Ledger} (h : w.ledger.charge length = .ok ledger) :
      Change L w { w with ledger := ledger.release length, memory := w.memory.advance }
  | resize (o : ObjectId) {b : Buffer} (length : UInt64) (h : w.buffer? o = some b) :
      Change L w
        { w.setBuffer o (b.resize length w.ledger w.memory).2.1 with
          ledger := (b.resize length w.ledger w.memory).2.2.1
          memory := (b.resize length w.ledger w.memory).2.2.2 }
  | detach (o : ObjectId) : Change L w (w.detachBuffer o).2
  | fill (o : ObjectId) (position : Nat) (source : List UInt8) :
      Change L w (w.fillBuffer o position source)
  | reserve {bytes : UInt64} {r : ReservationId} {reserved : World σ}
      (h : w.reserve bytes = .ok (r, reserved)) : Change L w reserved
  | moveReservation {r : ReservationId} {bytes : UInt64} {moved : World σ}
      (h : w.moveReservation r bytes = .ok moved) : Change L w moved
  | dropReservation (r : ReservationId) : Change L w (w.dropReservation r)

/-! ## How the objects of a world answer after a change -/

namespace World

variable {σ : Type}

theorem object_modifyObject (w : World σ) (o other : ObjectId) (f : Object → Object) :
    (w.modifyObject o f).object other =
      if o = other ∧ o.index < w.objects.size then f (w.object other) else w.object other := by
  obtain ⟨i⟩ := o
  obtain ⟨j⟩ := other
  simp only [modifyObject, object, Array.getD_eq_getD_getElem?, Array.getElem?_modify,
    ObjectId.mk.injEq]
  by_cases hij : i = j
  · subst hij
    by_cases hlt : i < w.objects.size
    · simp [hlt]
    · simp [hlt]
  · simp [hij]

theorem object_addObject (w : World σ) (new : Object) (o : ObjectId) :
    (w.addObject new).2.object o =
      if o.index = w.objects.size then new else w.object o := by
  simp only [addObject, object, Array.getD_eq_getD_getElem?, Array.getElem?_push]
  split <;> rfl

theorem object_addObject_self (w : World σ) (new : Object) :
    (w.addObject new).2.object (w.addObject new).1 = new := by
  rw [object_addObject]
  exact if_pos rfl

/-- An object beyond the last one reads as a new object without properties. -/
theorem object_of_size_le (w : World σ) {o : ObjectId} (h : w.objects.size ≤ o.index) :
    w.object o = default := by
  simp [object, Array.getD_eq_getD_getElem?, Array.getElem?_eq_none h]

/-- An object that has a buffer is one of the objects of the world. -/
theorem index_lt_of_buffer {w : World σ} {o : ObjectId} {b : Buffer} (h : w.buffer? o = some b) :
    o.index < w.objects.size := by
  refine Nat.lt_of_not_le fun hle => ?_
  rw [buffer?, object_of_size_le w hle] at h
  cases h

theorem object_eq_getElem (w : World σ) {o : ObjectId} (h : o.index < w.objects.size) :
    w.object o = w.objects[o.index] := by
  simp [object, Array.getD_eq_getD_getElem?, h]

theorem buffer?_of_nature {w : World σ} {o : ObjectId} {b : Buffer}
    (h : (w.object o).nature = .buffer b) : w.buffer? o = some b := by
  rw [buffer?, Object.buffer?, h]

/-- A change of one object depends on what it makes of that object only. -/
theorem modifyObject_congr (w : World σ) (o : ObjectId) {f g : Object → Object}
    (h : f (w.object o) = g (w.object o)) : w.modifyObject o f = w.modifyObject o g := by
  have hobjects : w.objects.modify o.index f = w.objects.modify o.index g := by
    refine Array.ext (by simp) fun i hi _ => ?_
    rw [Array.getElem_modify, Array.getElem_modify]
    split
    · next heq =>
      subst heq
      have hlt : o.index < w.objects.size := by simpa using hi
      simpa [object, Array.getD_eq_getD_getElem?, hlt] using h
    · rfl
  rw [modifyObject, modifyObject, hobjects]

theorem modifyObject_id (w : World σ) (o : ObjectId) : w.modifyObject o id = w := by
  have hobjects : w.objects.modify o.index id = w.objects := by
    refine Array.ext (by simp) fun i hi _ => ?_
    rw [Array.getElem_modify]
    split <;> rfl
  rw [modifyObject, hobjects]

/-- Giving an object the buffer that it has changes nothing. -/
theorem setBuffer_self {w : World σ} {o : ObjectId} {b : Buffer} (h : w.buffer? o = some b) :
    w.setBuffer o b = w := by
  have hnature : (w.object o).nature = .buffer b := by
    rw [buffer?, Object.buffer?] at h
    split at h
    · next hbuffer =>
      cases h
      exact hbuffer
    · cases h
  rw [setBuffer, w.modifyObject_congr o (g := id), modifyObject_id]
  cases hobject : w.object o
  rw [hobject] at hnature
  cases hnature
  rfl

theorem buffer?_setBuffer {w : World σ} {o : ObjectId} {b : Buffer} (h : w.buffer? o = some b)
    (new : Buffer) : (w.setBuffer o new).buffer? o = some new := by
  rw [buffer?, setBuffer, object_modifyObject, if_pos ⟨rfl, index_lt_of_buffer h⟩]
  rfl

theorem object_setBuffer_of_ne {o x : ObjectId} (h : x ≠ o) (w : World σ) (new : Buffer) :
    (w.setBuffer o new).object x = w.object x := by
  rw [setBuffer, object_modifyObject, if_neg fun heq => h heq.1.symm]

/-- Defining a property changes one object, or nothing where the object does not admit it. -/
theorem define_eq (w : World σ) (o : ObjectId) (key : PropertyKey) (update : PropertyUpdate) :
    (w.define o key update).2 = w.modifyObject o (·.defineQuietly key update) := by
  unfold define
  cases h : (w.object o).define key update with
  | some changed =>
      exact w.modifyObject_congr o (by simp [Object.defineQuietly, h])
  | none =>
      rw [w.modifyObject_congr o (g := id) (by simp [Object.defineQuietly, h]), modifyObject_id]

/-- Deleting a property changes one object, or nothing where the object does not admit it. -/
theorem delete_eq (w : World σ) (o : ObjectId) (key : PropertyKey) :
    (w.delete o key).2 = w.modifyObject o fun x => (x.delete key).getD x := by
  unfold delete
  cases h : (w.object o).delete key with
  | some changed =>
      exact w.modifyObject_congr o (by simp [h])
  | none =>
      rw [w.modifyObject_congr o (g := id) (by simp [h]), modifyObject_id]

/-- Giving a function a property is a definition, and nothing for an object that is none. -/
theorem modifyFunction_eq (w : World σ) (o : ObjectId) (key : PropertyKey)
    (update : PropertyUpdate) :
    w.modifyFunction o (·.defineQuietly key update) =
      if (w.object o).function?.isSome then (w.define o key update).2 else w := by
  unfold modifyFunction
  split
  · next hfunction =>
    rw [define_eq]
    exact w.modifyObject_congr o (if_pos hfunction)
  · next hfunction =>
    rw [w.modifyObject_congr o (g := id) (by simp [hfunction]), modifyObject_id]

/-! ## Reservations -/

/-- A reservation that was made is charged to the ledger and listed. -/
theorem reserve_eq_ok {w reserved : World σ} {bytes : UInt64} {r : ReservationId}
    (h : w.reserve bytes = .ok (r, reserved)) :
    ∃ ledger, w.ledger.charge bytes = .ok ledger ∧ r = ⟨w.reservations.size⟩ ∧
      reserved = { w with ledger, reservations := w.reservations.push (some bytes) } := by
  unfold reserve at h
  cases hcharge : w.ledger.charge bytes with
  | error e =>
      rw [hcharge] at h
      cases h
  | ok ledger =>
      rw [hcharge] at h
      cases h
      exact ⟨ledger, rfl, rfl, rfl⟩

/-- A reservation that was moved is charged for the difference, unless it was given back. -/
theorem moveReservation_eq_ok {w moved : World σ} {r : ReservationId} {bytes : UInt64}
    (h : w.moveReservation r bytes = .ok moved) :
    w.reservation r = none ∧ moved = w ∨
      ∃ held ledger, w.reservation r = some held ∧ w.ledger.move held bytes = .ok ledger ∧
        moved =
          { w with ledger, reservations := w.reservations.setIfInBounds r.index (some bytes) } := by
  unfold moveReservation at h
  cases hheld : w.reservation r with
  | none =>
      rw [hheld] at h
      cases h
      exact .inl ⟨rfl, rfl⟩
  | some held =>
      rw [hheld] at h
      cases hmove : w.ledger.move held bytes with
      | error e =>
          dsimp only at h
          rw [hmove] at h
          cases h
      | ok ledger =>
          dsimp only at h
          rw [hmove] at h
          cases h
          exact .inr ⟨held, ledger, rfl, hmove, rfl⟩

/-! ## Settling -/

/-- What stays true when one entity is given up is true when the world is settled. -/
theorem settle_induction [Embedding σ] {motive : World σ → Prop} {w : World σ} (h : motive w)
    (hstep : ∀ w e, motive w → motive (w.giveUp e)) : motive w.settle := by
  have hfold (es : List Entity) (w : World σ) (h : motive w) : motive (es.foldl giveUp w) := by
    induction es generalizing w with
    | nil => exact h
    | cons e es ih => exact ih _ (hstep w e h)
  unfold settle collect
  split
  · exact hfold _ w h
  · exact h

end World

end EcmaCore
