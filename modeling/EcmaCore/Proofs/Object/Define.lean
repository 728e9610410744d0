import EcmaCore.Proofs.Object.Keeps

/-!
# What defining a property does

An object admits a redefinition or it does not. If it does, the property that the
redefinition leaves behind is put into its table; if it does not, nothing happens. So
defining a property is `Object.put`, or its world-level form `World.putOwn`, behind one
question to the object.

`World.DiffersAtProperty` says of two worlds that they differ at most in one property of
one object. It is the frame of everything that writes a property.

## Main results

* `Object.define_eq`: defining a property of an object is one question and one insertion.
* `World.define_eq_putOwn`: so is defining a property in a world.
* `World.own_putOwn`: the own properties afterwards.
* `World.differsAtProperty_putOwn`, `World.differsAtProperty_define`: nothing else changes.
-/

namespace EcmaCore

/-- A redefinition that means nothing leaves a property as it is. -/
theorem PropertyUpdate.applyTo_of_isEmpty {u : PropertyUpdate} (h : u.isEmpty = true)
    (p : Property) : u.applyTo (some p) = p := by
  simp only [isEmpty, Bool.and_eq_true, Bool.not_eq_true'] at h
  obtain ⟨⟨⟨⟨⟨hconfigurable, henumerable⟩, hgetter⟩, hsetter⟩, hvalue⟩, hwritable⟩ := h
  cases p <;>
    simp [applyTo, isGeneric, hconfigurable, henumerable, hgetter, hsetter, hvalue, hwritable,
      Property.isAccessor, Property.enumerable, Property.configurable, Property.value,
      Property.writable, Property.getter, Property.setter]

/-! ## Sameness of properties -/

namespace Property

/-- Properties are the same if they agree in all fields, in the value by sameness of values. -/
theorem same_iff (p q : Property) :
    p.same q = true ↔
      p.isAccessor = q.isAccessor ∧ p.value.sameValue q.value = true ∧ p.writable = q.writable ∧
        p.getter = q.getter ∧ p.setter = q.setter ∧ p.enumerable = q.enumerable ∧
        p.configurable = q.configurable := by
  cases p <;> cases q <;>
    simp [same, isAccessor, value, writable, getter, setter, enumerable, configurable, and_assoc]

@[simp] theorem same_refl (p : Property) : p.same p = true := by
  simp [same_iff]

theorem same_symm {p q : Property} (h : p.same q = true) : q.same p = true := by
  obtain ⟨hkind, hvalue, hwritable, hgetter, hsetter, henumerable, hconfigurable⟩ :=
    (same_iff p q).1 h
  rw [Value.sameValue_comm] at hvalue
  exact (same_iff q p).2 ⟨hkind.symm, hvalue, hwritable.symm, hgetter.symm, hsetter.symm,
    henumerable.symm, hconfigurable.symm⟩

end Property

/-! ## Objects -/

namespace Object

/-- Whether an object admits a redefinition: of a new property if it is extensible, and of one
that is there as `PropertyUpdate.allowedOn` says. -/
def admits (o : Object) (key : PropertyKey) (u : PropertyUpdate) : Bool :=
  (o.own key).elim o.extensible u.allowedOn

/-- An object with one property put into its table. -/
def put (o : Object) (key : PropertyKey) (p : Property) : Object :=
  { o with properties := o.properties.insert key p }

theorem own_put (o : Object) (key other : PropertyKey) (p : Property) :
    (o.put key p).own other = if key = other then some p else o.own other :=
  o.properties.get?_insert key other p

theorem put_of_own {o : Object} {key : PropertyKey} {p : Property} (h : o.own key = some p) :
    o.put key p = o := by
  rw [put, Table.insert_of_get? h]

/-- Defining a property asks whether the object admits it, and then puts in what the redefinition
leaves behind. -/
theorem define_eq (o : Object) (key : PropertyKey) (u : PropertyUpdate) :
    o.define key u =
      if o.admits key u then some (o.put key (u.applyTo (o.own key))) else none := by
  unfold define
  cases hown : o.own key with
  | none =>
      rw [admits, hown]
      rfl
  | some current =>
      have hadmits : o.admits key u = u.allowedOn current := by
        rw [admits, hown]
        rfl
      rw [hadmits]
      dsimp only
      by_cases hempty : u.isEmpty = true
      · have hallowed : u.allowedOn current = true := by simp [PropertyUpdate.allowedOn, hempty]
        rw [if_pos hempty, if_pos hallowed, PropertyUpdate.applyTo_of_isEmpty hempty,
          put_of_own hown]
      · rw [if_neg hempty]
        rfl

theorem isSome_define (o : Object) (key : PropertyKey) (u : PropertyUpdate) :
    (o.define key u).isSome = o.admits key u := by
  rw [define_eq]
  cases o.admits key u <;> rfl

end Object

/-! ## Worlds -/

namespace World

variable {σ : Type}

/-- A world with one property put into the table of an object. -/
def putOwn (w : World σ) (o : ObjectId) (key : PropertyKey) (p : Property) : World σ :=
  w.modifyObject o (·.put key p)

/-- Two worlds differ at most in the property `key` of the object `o`. -/
structure DiffersAtProperty (w : World σ) (o : ObjectId) (key : PropertyKey) (w' : World σ) :
    Prop where
  rest : w' = { w with objects := w'.objects }
  size : w'.objects.size = w.objects.size
  object : ∀ x, x ≠ o → w'.object x = w.object x
  own : ∀ k, k ≠ key → w'.own o k = w.own o k
  prototype : (w'.object o).prototype = (w.object o).prototype
  extensible : (w'.object o).extensible = (w.object o).extensible
  nature : (w'.object o).nature = (w.object o).nature

theorem DiffersAtProperty.refl (w : World σ) (o : ObjectId) (key : PropertyKey) :
    w.DiffersAtProperty o key w :=
  ⟨rfl, rfl, fun _ _ => rfl, fun _ _ => rfl, rfl, rfl, rfl⟩

/-- Putting a property into an object that is not there changes nothing. -/
theorem putOwn_of_size_le {w : World σ} {o : ObjectId} (h : w.objects.size ≤ o.index)
    (key : PropertyKey) (p : Property) : w.putOwn o key p = w := by
  have hobjects : w.objects.modify o.index (·.put key p) = w.objects := by
    refine Array.ext (by simp) fun i hi _ => ?_
    rw [Array.getElem_modify, if_neg]
    have hlt : i < w.objects.size := by simpa using hi
    omega
  rw [putOwn, modifyObject, hobjects]

/-- Putting in the property that an object has changes nothing. -/
theorem putOwn_of_own {w : World σ} {o : ObjectId} {key : PropertyKey} {p : Property}
    (h : w.own o key = some p) : w.putOwn o key p = w := by
  rw [putOwn, w.modifyObject_congr o (g := id), modifyObject_id]
  exact Object.put_of_own h

theorem object_putOwn (w : World σ) (o x : ObjectId) (key : PropertyKey) (p : Property) :
    (w.putOwn o key p).object x =
      if o = x ∧ o.index < w.objects.size then (w.object x).put key p else w.object x :=
  w.object_modifyObject o x _

/-- Putting a property into an object changes this property and no other. -/
theorem own_putOwn {w : World σ} {o : ObjectId} (h : o.index < w.objects.size) (x : ObjectId)
    (key other : PropertyKey) (p : Property) :
    (w.putOwn o key p).own x other =
      if o = x ∧ key = other then some p else w.own x other := by
  rw [own, object_putOwn]
  by_cases hx : o = x
  · subst hx
    rw [if_pos ⟨rfl, h⟩, Object.own_put]
    simp only [true_and]
    rfl
  · rw [if_neg (fun heq => hx heq.1), if_neg (fun heq => hx heq.1)]
    rfl

theorem own_putOwn_self {w : World σ} {o : ObjectId} (h : o.index < w.objects.size)
    (key : PropertyKey) (p : Property) : (w.putOwn o key p).own o key = some p := by
  rw [own_putOwn h, if_pos ⟨rfl, rfl⟩]

theorem differsAtProperty_putOwn (w : World σ) (o : ObjectId) (key : PropertyKey) (p : Property) :
    w.DiffersAtProperty o key (w.putOwn o key p) where
  rest := rfl
  size := by simp [putOwn, modifyObject]
  object x hx := by
    rw [object_putOwn, if_neg (fun heq => hx heq.1.symm)]
  own k hk := by
    rw [own, object_putOwn]
    split
    · rw [Object.own_put, if_neg hk.symm]
      rfl
    · rfl
  prototype := by
    rw [object_putOwn]
    split <;> rfl
  extensible := by
    rw [object_putOwn]
    split <;> rfl
  nature := by
    rw [object_putOwn]
    split <;> rfl

/-- Defining a property in a world asks the object, and then puts the property into its table. -/
theorem define_eq_putOwn (w : World σ) (o : ObjectId) (key : PropertyKey) (u : PropertyUpdate) :
    w.define o key u =
      if (w.object o).admits key u then (true, w.putOwn o key (u.applyTo (w.own o key)))
      else (false, w) := by
  rw [define, Object.define_eq]
  by_cases hadmits : (w.object o).admits key u = true
  · rw [if_pos hadmits, if_pos hadmits]
    refine Prod.ext rfl ?_
    exact w.modifyObject_congr o rfl
  · rw [if_neg hadmits, if_neg hadmits]

theorem differsAtProperty_define (w : World σ) (o : ObjectId) (key : PropertyKey)
    (u : PropertyUpdate) : w.DiffersAtProperty o key (w.define o key u).2 := by
  rw [define_eq_putOwn]
  split
  · exact w.differsAtProperty_putOwn o key _
  · exact .refl w o key

end World

end EcmaCore
