import EcmaCore.Realm

/-!
# Extents

Objects are numbered in the order of creation, so what a list of entities names can be measured:
its *extent* is one more than the greatest number of an object in it, and a world with so many
objects has all of them. This module measures what properties, objects and environment records
name, and shows that an operation on one of them leaves nothing that was not named there or by
its arguments.

## Main results

* `Object.extent_defineQuietly_le`, `Object.extent_delete_le`: operations on properties.
* `Bindings.extent_init_le`, `Bindings.extent_assign_le`, `Record.extent_bindThis_le`: operations
  on environment records.
* `Record.extent_this_le`, `Record.backing_lt`: what is read off a record.
-/

namespace EcmaCore

/-! ## Extents -/

/-- One more than the number of the object that an entity is, and zero for other entities. -/
def Entity.extent : Entity → Nat
  | .object o => o.index + 1
  | .scope _ | .module _ => 0

/-- One more than the greatest number of an object in a list. -/
def extent : List Entity → Nat
  | [] => 0
  | e :: es => max e.extent (extent es)

section Extent

variable {n : Nat}

theorem extent_le_iff {l : List Entity} : extent l ≤ n ↔ ∀ e ∈ l, e.extent ≤ n := by
  induction l with
  | nil => simp [extent]
  | cons e l ih => rw [extent, Nat.max_le, ih, List.forall_mem_cons]

theorem extent_append_le_iff {l l' : List Entity} :
    extent (l ++ l') ≤ n ↔ extent l ≤ n ∧ extent l' ≤ n := by
  simp only [extent_le_iff, List.forall_mem_append]

theorem extent_flatMap_le_iff {α : Type} {f : α → List Entity} {l : List α} :
    extent (l.flatMap f) ≤ n ↔ ∀ a ∈ l, extent (f a) ≤ n := by
  induction l with
  | nil => simp [extent]
  | cons a l ih => rw [List.flatMap_cons, extent_append_le_iff, ih, List.forall_mem_cons]

theorem extent_object_cons_le_iff {o : ObjectId} {l : List Entity} :
    extent (.object o :: l) ≤ n ↔ o.index < n ∧ extent l ≤ n := by
  rw [extent, Nat.max_le, Entity.extent, Nat.succ_le_iff]

theorem extent_object_le_iff {o : ObjectId} : extent [.object o] ≤ n ↔ o.index < n := by
  rw [extent_object_cons_le_iff]
  exact and_iff_left (Nat.zero_le n)

theorem extent_objects_le_iff {l : List ObjectId} :
    extent (l.map .object) ≤ n ↔ ∀ o ∈ l, o.index < n := by
  rw [extent_le_iff, List.forall_mem_map]
  rfl

theorem extent_option_le_iff {o : Option ObjectId} :
    extent (o.toList.map .object) ≤ n ↔ ∀ p, o = some p → p.index < n := by
  rw [extent_objects_le_iff]
  simp only [Option.mem_toList]

/-- Looking up an argument gives one of them or undefined. -/
theorem extent_getD_le {vs : List Value} (h : extent (vs.flatMap Value.entities) ≤ n) (i : Nat) :
    extent (vs.getD i .undefined).entities ≤ n := by
  rw [extent_flatMap_le_iff] at h
  rw [List.getD_eq_getElem?_getD]
  cases hv : vs[i]? with
  | none => exact Nat.zero_le n
  | some v => exact h v (List.mem_of_getElem? hv)

theorem extent_drop_le {vs : List Value} (h : extent (vs.flatMap Value.entities) ≤ n) (k : Nat) :
    extent ((vs.drop k).flatMap Value.entities) ≤ n := by
  rw [extent_flatMap_le_iff] at h ⊢
  exact fun v hv => h v (List.mem_of_mem_drop hv)

end Extent

/-! ## Tables -/

namespace Table

variable {κ α : Type} [DecidableEq κ]

theorem mem_of_get? {t : Table κ α} {key : κ} {entry : α} (h : t.get? key = some entry) :
    (key, entry) ∈ t.entries := by
  obtain ⟨entries⟩ := t
  change find key entries = some entry at h
  show (key, entry) ∈ entries
  induction entries with
  | nil => cases h
  | cons head rest ih =>
      obtain ⟨k, other⟩ := head
      rw [find] at h
      split at h
      · next heq =>
        cases heq
        cases h
        exact List.mem_cons_self
      · exact List.mem_cons_of_mem _ (ih h)

/-- What a table has after an insertion is new or was there. -/
theorem mem_insert {t : Table κ α} {key : κ} {entry : α} {x : κ × α}
    (h : x ∈ (t.insert key entry).entries) : x = (key, entry) ∨ x ∈ t.entries := by
  obtain ⟨entries⟩ := t
  change x ∈ put key entry entries at h
  show x = (key, entry) ∨ x ∈ entries
  induction entries with
  | nil => exact .inl (List.mem_singleton.1 h)
  | cons head rest ih =>
      rw [put] at h
      split at h
      · rcases List.mem_cons.1 h with rfl | hrest
        · exact .inl rfl
        · exact .inr (List.mem_cons_of_mem _ hrest)
      · rcases List.mem_cons.1 h with rfl | hrest
        · exact .inr List.mem_cons_self
        · exact (ih hrest).imp_right (List.mem_cons_of_mem _)

theorem mem_of_mem_erase {t : Table κ α} {key : κ} {x : κ × α} (h : x ∈ (t.erase key).entries) :
    x ∈ t.entries :=
  (List.mem_filter.1 h).1

end Table

/-! ## Properties and objects -/

section Objects

variable {n : Nat}

/-- A property names its value, its getter and its setter. -/
theorem Property.extent_le_iff {p : Property} :
    extent p.entities ≤ n ↔
      extent p.value.entities ≤ n ∧ (∀ f, p.getter = some f → f.index < n) ∧
        ∀ f, p.setter = some f → f.index < n := by
  cases p with
  | data v writable enumerable configurable => simp [Property.entities, value, getter, setter]
  | accessor g s enumerable configurable =>
      rw [Property.entities, extent_objects_le_iff]
      simp only [List.mem_append, Option.mem_toList, value, getter, setter]
      constructor
      · exact fun h => ⟨Nat.zero_le n, fun f hf => h f (.inl hf), fun f hf => h f (.inr hf)⟩
      · exact fun h f hf => hf.elim (h.2.1 f) (h.2.2 f)

/-- A redefinition leaves what it carries and what was there. -/
theorem PropertyUpdate.extent_applyTo_le {u : PropertyUpdate} {current : Option Property}
    (hu : extent u.carried.entities ≤ n)
    (hcurrent : ∀ p, current = some p → extent p.entities ≤ n) :
    extent (u.applyTo current).entities ≤ n := by
  rw [Property.extent_le_iff] at hu
  have hkept (p : Property) (hp : current = some p) := Property.extent_le_iff.1 (hcurrent p hp)
  unfold applyTo
  extract_lets enumerable configurable wantsAccessor
  split
  · rw [Property.extent_le_iff]
    refine ⟨Nat.zero_le n, fun f hf => ?_, fun f hf => ?_⟩
    · change (if u.honoursGetter then u.carried.getter else current.bind Property.getter) = some f
        at hf
      split at hf
      · exact hu.2.1 f hf
      · obtain ⟨p, hp, hgetter⟩ := Option.bind_eq_some_iff.1 hf
        exact (hkept p hp).2.1 f hgetter
    · change (if u.honoursSetter then u.carried.setter else current.bind Property.setter) = some f
        at hf
      split at hf
      · exact hu.2.2 f hf
      · obtain ⟨p, hp, hsetter⟩ := Option.bind_eq_some_iff.1 hf
        exact (hkept p hp).2.2 f hsetter
  · show extent (Value.entities (if u.honoursValue then u.carried.value
      else (current.map Property.value).getD .undefined)) ≤ n
    split
    · exact hu.1
    · cases hc : current with
      | none => exact Nat.zero_le n
      | some p => exact (hkept p hc).1

/-- An object names its prototype, what its properties name and what it names as a function. -/
theorem Object.extent_le_iff {o : Object} :
    extent o.entities ≤ n ↔
      (∀ p, o.prototype = some p → p.index < n) ∧
        (∀ x ∈ o.properties.entries, extent x.2.entities ≤ n) ∧
          ∀ f, o.function? = some f → extent f.entities ≤ n := by
  rw [Object.entities, extent_append_le_iff, extent_append_le_iff, extent_option_le_iff,
    extent_flatMap_le_iff, and_assoc]
  refine and_congr_right fun _ => and_congr_right fun _ => ?_
  cases o.function? with
  | none => simp [extent]
  | some f => simp

theorem Object.extent_default_le : extent (default : Object).entities ≤ n :=
  Nat.zero_le n

/-- The entities that an object refers to as what it is. -/
def Nature.entities : Nature → List Entity
  | .function f => f.entities
  | .plain | .buffer _ => []

/-- A new object names its prototype and what it names as a function. -/
theorem Object.extent_new_le {prototype : Option ObjectId} {nature : Nature}
    (hprototype : extent (prototype.toList.map .object) ≤ n)
    (hnature : extent nature.entities ≤ n) :
    extent (Object.new prototype nature).entities ≤ n := by
  refine extent_append_le_iff.2 ⟨extent_append_le_iff.2 ⟨hprototype, Nat.zero_le n⟩, ?_⟩
  cases nature with
  | function f => exact hnature
  | plain | buffer => exact Nat.zero_le n

theorem Object.extent_insert_le {o : Object} {key : PropertyKey} {p : Property}
    (ho : extent o.entities ≤ n) (hp : extent p.entities ≤ n) :
    extent { o with properties := o.properties.insert key p : Object }.entities ≤ n := by
  rw [Object.extent_le_iff] at ho ⊢
  refine ⟨ho.1, fun x hx => ?_, ho.2.2⟩
  rcases Table.mem_insert hx with rfl | hold
  · exact hp
  · exact ho.2.1 x hold

theorem Object.extent_own_le {o : Object} {key : PropertyKey} {p : Property}
    (ho : extent o.entities ≤ n) (hp : o.own key = some p) : extent p.entities ≤ n :=
  (Object.extent_le_iff.1 ho).2.1 (key, p) (Table.mem_of_get? hp)

/-- Defining a property adds what the redefinition carries. -/
theorem Object.extent_defineQuietly_le {o : Object} {key : PropertyKey} {update : PropertyUpdate}
    (ho : extent o.entities ≤ n) (hupdate : extent update.carried.entities ≤ n) :
    extent (o.defineQuietly key update).entities ≤ n := by
  unfold defineQuietly define
  split
  · split
    · refine extent_insert_le ho (PropertyUpdate.extent_applyTo_le hupdate fun p hp => ?_)
      cases hp
    · exact ho
  · next current hcurrent =>
    split
    · exact ho
    · split
      · refine extent_insert_le ho (PropertyUpdate.extent_applyTo_le hupdate ?_)
        rintro p ⟨⟩
        exact extent_own_le ho hcurrent
      · exact ho

theorem Object.extent_delete_le {o : Object} {key : PropertyKey} (ho : extent o.entities ≤ n) :
    extent ((o.delete key).getD o).entities ≤ n := by
  unfold delete
  split
  · exact ho
  · split
    · rw [Object.extent_le_iff] at ho ⊢
      exact ⟨ho.1, fun x hx => ho.2.1 x (Table.mem_of_mem_erase hx), ho.2.2⟩
    · exact ho

theorem Object.extent_setFunctionLength_le {o : Object} (length : Number)
    (ho : extent o.entities ≤ n) : extent (o.setFunctionLength length).entities ≤ n :=
  Object.extent_defineQuietly_le ho (Nat.zero_le n)

theorem Object.extent_setFunctionName_le {o : Object} (key : PropertyKey)
    (qualifier : Option String) (ho : extent o.entities ≤ n) :
    extent (o.setFunctionName key qualifier).entities ≤ n :=
  Object.extent_defineQuietly_le ho (Nat.zero_le n)

theorem Object.extent_ofNative_le {prototype : Option ObjectId}
    (hprototype : extent (prototype.toList.map .object) ≤ n) (key : PropertyKey) (arity : UInt32)
    (call : Behaviour) (construct : Option Behaviour) :
    extent (Object.ofNative prototype key arity call construct).entities ≤ n :=
  extent_setFunctionName_le _ _
    (extent_setFunctionLength_le _ (extent_new_le hprototype (Nat.zero_le n)))

theorem Object.extent_ofOrdinary_le {prototype : ObjectId} (hprototype : prototype.index < n)
    (name : String) (length : UInt32) (f : OrdinaryFunction) :
    extent (Object.ofOrdinary prototype name length f).entities ≤ n :=
  extent_setFunctionName_le _ _ (extent_setFunctionLength_le _
    (extent_new_le (extent_object_le_iff.2 hprototype) (Nat.zero_le n)))

theorem Object.extent_thrower_le {functionPrototype : ObjectId}
    (h : functionPrototype.index < n) : extent (Object.thrower functionPrototype).entities ≤ n := by
  have hnative : extent
      (ofNative (some functionPrototype) "" 0 (.builtin .throwTypeError) none).entities ≤ n :=
    extent_ofNative_le (extent_object_le_iff.2 h) ..
  have hfrozen (o : Object) (key : PropertyKey) (ho : extent o.entities ≤ n) :
      extent (o.defineQuietly key .freeze).entities ≤ n :=
    extent_defineQuietly_le ho (Nat.zero_le n)
  exact hfrozen _ _ (hfrozen _ _ hnative)

/-- A buffer names its prototype and what its properties name. -/
theorem Object.extent_setNature_buffer_le {o : Object} (b : Buffer)
    (ho : extent o.entities ≤ n) :
    extent { o with nature := .buffer b : Object }.entities ≤ n := by
  rw [Object.extent_le_iff] at ho ⊢
  exact ⟨ho.1, ho.2.1, fun f hf => by cases hf⟩

end Objects

/-! ## Environment records -/

section Records

variable {n : Nat}

/-- Bindings name their values. -/
theorem Bindings.extent_le_iff {bs : Bindings} :
    extent bs.entities ≤ n ↔
      ∀ x ∈ bs.entries, ∀ v, x.2.value = some v → extent v.entities ≤ n := by
  rw [Bindings.entities, extent_flatMap_le_iff]
  refine forall_congr' fun x => forall_congr' fun _ => ?_
  obtain ⟨_, value, _, _, _⟩ := x
  cases value with
  | none => simp [extent]
  | some v => simp

theorem Bindings.extent_insert_le {bs : Bindings} {name : String} {b : Binding}
    (hbs : extent bs.entities ≤ n) (hb : ∀ v, b.value = some v → extent v.entities ≤ n) :
    extent (Bindings.entities (bs.insert name b)) ≤ n := by
  rw [Bindings.extent_le_iff] at hbs ⊢
  intro x hx
  rcases Table.mem_insert hx with rfl | hold
  · exact hb
  · exact hbs x hold

theorem Bindings.extent_create_le {bs : Bindings} (name : String) (mutable deletable strict : Bool)
    (hbs : extent bs.entities ≤ n) :
    extent (bs.create name mutable deletable strict).entities ≤ n := by
  unfold create
  split
  · exact hbs
  · exact extent_insert_le hbs fun v hv => by cases hv

/-- The first value of a binding is all that it adds. -/
theorem Bindings.extent_init_le {bs slots : Bindings} {name : String} {v : Value}
    (hbs : extent bs.entities ≤ n) (hv : extent v.entities ≤ n)
    (h : bs.init name v = .ok slots) : extent slots.entities ≤ n := by
  unfold init at h
  split at h
  · cases h
  · cases h
    exact extent_insert_le hbs fun v' hv' => by cases hv'; exact hv

/-- So is the value of an assignment. -/
theorem Bindings.extent_assign_le {bs slots : Bindings} {name : String} {v : Value}
    {strict : Bool} (hbs : extent bs.entities ≤ n) (hv : extent v.entities ≤ n)
    (h : bs.assign name v strict = .ok slots) : extent slots.entities ≤ n := by
  unfold assign at h
  split at h
  · split at h
    · cases h
    · exact extent_init_le (extent_create_le name true true false hbs) hv h
  · split at h
    · cases h
    · split at h
      · cases h
        exact extent_insert_le hbs fun v' hv' => by cases hv'; exact hv
      · split at h
        · cases h
        · cases h
          exact hbs

theorem Bindings.extent_delete_le {bs slots : Bindings} {name : String}
    (hbs : extent bs.entities ≤ n) (h : bs.delete name = some slots) :
    extent slots.entities ≤ n := by
  unfold delete at h
  split at h
  · cases h
    exact hbs
  · split at h
    · cases h
      rw [Bindings.extent_le_iff] at hbs ⊢
      exact fun x hx => hbs x (Table.mem_of_mem_erase hx)
    · cases h

theorem Bindings.extent_probe_le {bs : Bindings} {name : String} {b : Binding} {v : Value}
    (hbs : extent bs.entities ≤ n) (h : bs.probe name = some (b, v)) :
    b.value = some v ∧ extent v.entities ≤ n := by
  unfold probe at h
  split at h
  · cases h
  · next found hfound =>
    obtain ⟨v', hv', heq⟩ := Option.map_eq_some_iff.1 h
    cases heq
    exact ⟨hv', Bindings.extent_le_iff.1 hbs _ (Table.mem_of_get? hfound) v hv'⟩

theorem Bindings.extent_read_le {bs : Bindings} {name : String} {v : Value}
    (hbs : extent bs.entities ≤ n) (h : bs.read name = .ok v) : extent v.entities ≤ n := by
  unfold read at h
  split at h
  · cases h
  · next b hb =>
    split at h
    · cases h
    · next v' hv' =>
      cases h
      exact Bindings.extent_le_iff.1 hbs _ (Table.mem_of_get? hb) _ hv'

theorem Record.extent_slots_le {r : Record} (hr : extent r.entities ≤ n) :
    extent r.slots.entities ≤ n :=
  (extent_append_le_iff.1 hr).1

theorem Record.extent_withSlots_le {r : Record} {slots : Bindings} (hr : extent r.entities ≤ n)
    (hslots : extent slots.entities ≤ n) : extent (r.withSlots slots).entities ≤ n := by
  have hrest := (extent_append_le_iff.1 hr).2
  cases r with
  | object => exact hr
  | declarative | function | global | module => exact extent_append_le_iff.2 ⟨hslots, hrest⟩

/-- The backing object of a record is named by it. -/
theorem Record.backing_lt {r : Record} {backing : ObjectId} {isWith : Bool}
    (hr : extent r.entities ≤ n) (h : r.backing? = some (backing, isWith)) :
    backing.index < n := by
  have hrest := (extent_append_le_iff.1 hr).2
  cases r with
  | object => cases h; exact extent_object_le_iff.1 hrest
  | global slots info =>
      cases h
      exact (extent_object_cons_le_iff.1 hrest).1
  | declarative | function | module => cases h

/-- What a record knows as its `this` is named by it. -/
theorem Record.extent_this_le {r : Record} {v : Value} (hr : extent r.entities ≤ n)
    (h : r.this = .ok v) : extent v.entities ≤ n := by
  have hrest := (extent_append_le_iff.1 hr).2
  unfold this at h
  split at h
  · next slots info =>
    split at h
    · cases h
    · split at h
      · cases h
      · next v' hv' =>
        cases h
        have hthis := (extent_append_le_iff.1 hrest).2
        rw [hv'] at hthis
        exact hthis
  · cases h
    exact (extent_object_cons_le_iff.1 hrest).2
  · cases h
    exact Nat.zero_le n
  · cases h
  · cases h

theorem Record.extent_bindThis_le {r bound : Record} {v : Value} (hr : extent r.entities ≤ n)
    (hv : extent v.entities ≤ n) (h : r.bindThis v = .ok bound) : extent bound.entities ≤ n := by
  unfold bindThis at h
  split at h
  · next slots info =>
    split at h
    · cases h
    · split at h
      · cases h
      · cases h
        obtain ⟨hslots, hrest⟩ := extent_append_le_iff.1 hr
        exact extent_append_le_iff.2
          ⟨hslots, extent_append_le_iff.2 ⟨(extent_append_le_iff.1 hrest).1, hv⟩⟩
  · cases h

theorem Record.entities_addVarName (r : Record) (name : String) :
    (r.addVarName name).entities = r.entities := by
  unfold addVarName
  split
  · split <;> rfl
  · rfl

theorem Record.entities_removeVarName (r : Record) (name : String) :
    (r.removeVarName name).entities = r.entities := by
  unfold removeVarName
  split <;> rfl

theorem Record.extent_addImport_le {r extended : Record} {name : String} {target : Import}
    (hr : extent r.entities ≤ n) (h : r.addImport name target = .ok extended) :
    extent extended.entities ≤ n := by
  unfold addImport at h
  split at h
  · next slots imports =>
    have hcreated := Bindings.extent_create_le name false false true (Record.extent_slots_le hr)
    cases hinit : (slots.create name false false true).init name .undefined with
    | error e =>
        rw [hinit] at h
        cases h
    | ok slots' =>
        rw [hinit] at h
        cases h
        exact extent_append_le_iff.2
          ⟨Bindings.extent_init_le (v := .undefined) hcreated (Nat.zero_le n) hinit, Nat.zero_le n⟩
  · cases h
    exact hr

end Records

end EcmaCore
