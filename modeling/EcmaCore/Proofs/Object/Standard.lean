import EcmaCore.Proofs.Object.Define

/-!
# The standard's algorithm for redefinitions

ECMAScript gives the rules for redefining a property as a list of steps on a partial
property, each of whose fields is there or absent: `PartialProperty.validateAndApply`
follows it step by step, and says in one go whether the redefinition is accepted and
which property it leaves.

A `PropertyUpdate` checks and merges separately, and in another shape. Where its honoured
fields belong to the kind of property that it carries, both come to the same.

## Main results

* `PropertyUpdate.create_honoured`, `PropertyUpdate.replace_honoured`: what the standard
  makes of the honoured fields is what `applyTo` computes.
* `PropertyUpdate.validateAndApply_honoured`: the standard accepts what is admitted, and
  leaves the same property.
* `World.define_follows_standard`: defining a property is the standard's algorithm.
-/

namespace EcmaCore

/-- A property of which each field is there or absent. A getter or setter that is there may be
empty. -/
structure PartialProperty where
  value : Option Value
  writable : Option Bool
  getter : Option (Option ObjectId)
  setter : Option (Option ObjectId)
  enumerable : Option Bool
  configurable : Option Bool
  deriving DecidableEq

namespace PartialProperty

/-- Whether no field is there. -/
def isEmpty (d : PartialProperty) : Bool :=
  d.value.isNone && d.writable.isNone && d.getter.isNone && d.setter.isNone &&
    d.enumerable.isNone && d.configurable.isNone

/-- Whether a field of accessor properties is there. -/
def isAccessor (d : PartialProperty) : Bool := d.getter.isSome || d.setter.isSome

/-- Whether a field of data properties is there. -/
def isData (d : PartialProperty) : Bool := d.value.isSome || d.writable.isSome

/-- Whether no field that belongs to one kind of property is there. -/
def isGeneric (d : PartialProperty) : Bool := !d.isAccessor && !d.isData

/-- An accessor property with the fields that are there, defaults for its slots and the given
flags. -/
def toAccessor (d : PartialProperty) (enumerable configurable : Bool) : Property :=
  .accessor (d.getter.getD none) (d.setter.getD none) (d.enumerable.getD enumerable)
    (d.configurable.getD configurable)

/-- A data property with the fields that are there, defaults for its content and the given
flags. -/
def toData (d : PartialProperty) (enumerable configurable : Bool) : Property :=
  .data (d.value.getD .undefined) (d.writable.getD false) (d.enumerable.getD enumerable)
    (d.configurable.getD configurable)

/-- The new property that results where there was none. -/
def create (d : PartialProperty) : Property :=
  if d.isAccessor then d.toAccessor false false else d.toData false false

/-- The property that results on top of an existing one. A change of kind starts from defaults but
keeps both flags; otherwise the fields that are there replace those of the property. -/
def replace (d : PartialProperty) (current : Property) : Property :=
  if !current.isAccessor && d.isAccessor then d.toAccessor current.enumerable current.configurable
  else if current.isAccessor && d.isData then d.toData current.enumerable current.configurable
  else
    match current with
    | .data value writable enumerable configurable =>
        .data (d.value.getD value) (d.writable.getD writable) (d.enumerable.getD enumerable)
          (d.configurable.getD configurable)
    | .accessor getter setter enumerable configurable =>
        .accessor (d.getter.getD getter) (d.setter.getD setter) (d.enumerable.getD enumerable)
          (d.configurable.getD configurable)

/-- The property that results on top of one that is not configurable, as far as its content goes:
slots of an accessor property may only be repeated, and a read-only property may neither become
writable nor change its value, which it keeps when the value is repeated. -/
def replaceFixed (d : PartialProperty) (current : Property) : Option Property :=
  match current with
  | .accessor getter setter _ _ =>
      if d.getter.any (· != getter) then none
      else if d.setter.any (· != setter) then none
      else some (d.replace current)
  | .data value writable _ _ =>
      if writable then some (d.replace current)
      else if d.writable == some true then none
      else
        match d.value with
        | some v => if v.sameValue value then some current else none
        | none => some (d.replace current)

/-- ValidateAndApplyPropertyDescriptor: the property that results, or nothing if the redefinition
is rejected. -/
def validateAndApply (d : PartialProperty) (extensible : Bool) : Option Property → Option Property
  | none => if extensible then some d.create else none
  | some current =>
      if d.isEmpty then some current
      else if current.configurable then some (d.replace current)
      else if d.configurable == some true then none
      else if d.enumerable.any (· != current.enumerable) then none
      else if !d.isGeneric && d.isAccessor != current.isAccessor then none
      else d.replaceFixed current

end PartialProperty

/-- What a read-only property can become is the same as it. -/
theorem Property.Retained.same_of_readonly {v : Value} {enumerable configurable : Bool}
    {q : Property} (h : (Property.data v false enumerable configurable).Retained q) :
    q.same (.data v false enumerable configurable) = true := by
  cases h with
  | readonly _ hsame =>
      rw [Value.sameValue_comm] at hsame
      simp [Property.same, hsame]

namespace PropertyUpdate

variable {u : PropertyUpdate}

/-- The fields that a redefinition honours. -/
def honoured (u : PropertyUpdate) : PartialProperty where
  value := if u.honoursValue then some u.carried.value else none
  writable := if u.honoursWritable then some u.carried.writable else none
  getter := if u.honoursGetter then some u.carried.getter else none
  setter := if u.honoursSetter then some u.carried.setter else none
  enumerable := if u.honoursEnumerable then some u.carried.enumerable else none
  configurable := if u.honoursConfigurable then some u.carried.configurable else none

/-! ## Questions about the honoured fields -/

theorem isSome_field {α : Type} (honours : Bool) (a : α) :
    (if honours then some a else none).isSome = honours := by
  cases honours <;> rfl

theorem getD_field {α : Type} (honours : Bool) (a default : α) :
    (if honours then some a else none).getD default = if honours then a else default := by
  cases honours <;> rfl

theorem any_field {α : Type} (honours : Bool) (a : α) (p : α → Bool) :
    (if honours then some a else none).any p = (honours && p a) := by
  cases honours <;> rfl

theorem beq_true_field (honours flag : Bool) :
    ((if honours then some flag else none) == some true) = (honours && flag) := by
  cases honours <;> cases flag <;> rfl

@[simp] theorem isAccessor_honoured (u : PropertyUpdate) :
    u.honoured.isAccessor = u.isAccessor := by
  simp only [PartialProperty.isAccessor, honoured, isSome_field, isAccessor]

@[simp] theorem isData_honoured (u : PropertyUpdate) :
    u.honoured.isData = (u.honoursValue || u.honoursWritable) := by
  simp only [PartialProperty.isData, honoured, isSome_field]

@[simp] theorem isGeneric_honoured (u : PropertyUpdate) : u.honoured.isGeneric = u.isGeneric := by
  rw [PartialProperty.isGeneric, isAccessor_honoured, isData_honoured, isGeneric_eq]

@[simp] theorem isEmpty_honoured (u : PropertyUpdate) : u.honoured.isEmpty = u.isEmpty := by
  simp only [PartialProperty.isEmpty, honoured, ← Option.not_isSome, isSome_field, isEmpty]
  ac_rfl

/-! ## The property that results -/

/-- What the standard creates is what a redefinition leaves behind as a new property. -/
theorem create_honoured (u : PropertyUpdate) : u.honoured.create = u.applyTo none := by
  have hwants : (if u.isGeneric then none.any Property.isAccessor else u.isAccessor) =
      u.isAccessor := by
    split
    · next hgeneric => rw [isAccessor_of_isGeneric hgeneric, Option.any_none]
    · rfl
  unfold applyTo PartialProperty.create
  dsimp only
  rw [hwants, isAccessor_honoured]
  simp only [PartialProperty.toAccessor, PartialProperty.toData, honoured, getD_field]
  rfl

/-- A coherent redefinition that honours fields of data properties honours none of accessor
properties. -/
theorem Coherent.isAccessor_eq_false (hu : u.Coherent)
    (hdata : (u.honoursValue || u.honoursWritable) = true) : u.isAccessor = false := by
  unfold Coherent at hu
  cases hcarried : u.carried with
  | data =>
      rw [hcarried] at hu
      simp [isAccessor, hu.1, hu.2]
  | accessor =>
      rw [hcarried] at hu
      simp [hu.1, hu.2] at hdata

/-- What the standard makes of an existing property is what a redefinition leaves behind on top of
it. -/
theorem replace_honoured (hu : u.Coherent) (p : Property) :
    u.honoured.replace p = u.applyTo (some p) := by
  have hkind := u.isAccessor_applyTo (some p)
  rw [isGeneric_eq] at hkind
  unfold PartialProperty.replace
  rw [isAccessor_honoured, isData_honoured]
  cases p with
  | data v writable enumerable configurable =>
      cases hacc : u.isAccessor with
      | true =>
          rw [hacc] at hkind
          rw [applyTo_of_accessor hkind, enumerable_applyTo, configurable_applyTo]
          simp only [PartialProperty.toAccessor, honoured, getD_field]
          rfl
      | false =>
          rw [hacc] at hkind
          rw [applyTo_of_data (hkind.trans (ite_self _)), enumerable_applyTo, configurable_applyTo]
          simp only [honoured, getD_field]
          rfl
  | accessor getter setter enumerable configurable =>
      cases hdata : u.honoursValue || u.honoursWritable with
      | true =>
          rw [hdata, hu.isAccessor_eq_false hdata] at hkind
          rw [applyTo_of_data hkind, enumerable_applyTo, configurable_applyTo]
          simp only [PartialProperty.toData, honoured, getD_field]
          rfl
      | false =>
          have hacc :
              (u.applyTo (some (.accessor getter setter enumerable configurable))).isAccessor =
                true := by
            rw [hkind, hdata]
            cases u.isAccessor <;> rfl
          rw [applyTo_of_accessor hacc, enumerable_applyTo, configurable_applyTo]
          simp only [honoured, getD_field]
          rfl

/-! ## The verdict -/

/-- An outcome of the standard is that of a redefinition of `current`: both reject it, or both
accept it and leave the same property. That is one and the same, except that the standard may leave
the current property where the redefinition leaves one that is the same as it. -/
def Follows (u : PropertyUpdate) (current : Option Property) (admitted : Bool) :
    Option Property → Prop
  | none => admitted = false
  | some p =>
      admitted = true ∧ (u.applyTo current = p ∨ current = some p) ∧
        (u.applyTo current).same p = true

theorem Follows.of_eq {current : Option Property} {p : Property} (h : u.applyTo current = p) :
    u.Follows current true (some p) :=
  ⟨rfl, .inl h, by rw [h, Property.same_refl]⟩

/-- The standard's verdict on the content of a read-only property. -/
theorem follows_readonly (hu : u.Coherent) {v : Value} {enumerable : Bool}
    (hempty : u.isEmpty = false)
    (hallowed : u.allowedOn (.data v false enumerable false) =
      u.repeatsContent (.data v false enumerable false)) :
    u.Follows (some (.data v false enumerable false))
      (u.repeatsContent (.data v false enumerable false))
      (u.honoured.replaceFixed (.data v false enumerable false)) := by
  have hwritable : (u.honoured.writable == some true) =
      (u.honoursWritable && u.carried.writable) := beq_true_field _ _
  have hretained (h : u.allowedOn (.data v false enumerable false) = true) :
      (u.applyTo (some (.data v false enumerable false))).same (.data v false enumerable false) =
        true :=
    (retained_applyTo hu rfl hempty h).same_of_readonly
  rw [hallowed, repeatsContent] at hretained
  rw [repeatsContent, PartialProperty.replaceFixed, hwritable]
  cases hw : u.honoursWritable && u.carried.writable with
  | true => rfl
  | false =>
      cases hv : u.honoursValue with
      | false =>
          rw [show u.honoured.value = none from if_neg (by simp [hv])]
          exact .of_eq (replace_honoured hu _).symm
      | true =>
          rw [show u.honoured.value = some u.carried.value from if_pos hv]
          dsimp only
          rw [Value.sameValue_comm v]
          cases hsame : u.carried.value.sameValue v with
          | false => rfl
          | true =>
              rw [Value.sameValue_comm] at hsame
              exact ⟨rfl, .inr rfl, hretained (by rw [hw, hv, hsame]; rfl)⟩

/-- The standard's verdict on the content of a property that is not configurable. -/
theorem follows_replaceFixed (hu : u.Coherent) {p : Property} (hp : p.configurable = false)
    (hempty : u.isEmpty = false) (hallowed : u.allowedOn p = u.repeatsContent p) :
    u.Follows (some p) (u.repeatsContent p) (u.honoured.replaceFixed p) := by
  have hreplace := Follows.of_eq (replace_honoured hu p).symm
  cases p with
  | accessor getter setter enumerable configurable =>
      have hgetter : u.honoured.getter.any (· != getter) =
          (u.honoursGetter && getter != u.carried.getter) := by
        rw [bne_comm]
        exact any_field _ _ _
      have hsetter : u.honoured.setter.any (· != setter) =
          (u.honoursSetter && setter != u.carried.setter) := by
        rw [bne_comm]
        exact any_field _ _ _
      rw [repeatsContent, PartialProperty.replaceFixed, hgetter, hsetter]
      cases u.honoursGetter && getter != u.carried.getter with
      | true => rfl
      | false =>
          cases u.honoursSetter && setter != u.carried.setter with
          | true => rfl
          | false => exact hreplace
  | data v writable enumerable configurable =>
      cases hp
      cases writable with
      | true => exact hreplace
      | false => exact follows_readonly hu hempty hallowed

/-- The standard's verdict on a property that is not configurable. -/
theorem follows_of_fixed (hu : u.Coherent) {p : Property} (hp : p.configurable = false)
    (hempty : u.isEmpty = false) (extensible : Bool) :
    u.Follows (some p) (u.allowedOn p) (u.honoured.validateAndApply extensible (some p)) := by
  have hallowed := u.allowedOn_of_fixed hp hempty
  rw [hu.contentAllowedOn_eq] at hallowed
  have hconfigurable : (u.honoured.configurable == some true) =
      (u.honoursConfigurable && u.carried.configurable) := beq_true_field _ _
  have henumerable : u.honoured.enumerable.any (· != p.enumerable) =
      (u.honoursEnumerable && u.carried.enumerable != p.enumerable) := any_field _ _ _
  have hkind : (!u.honoured.isGeneric && u.honoured.isAccessor != p.isAccessor) =
      !(u.isGeneric || u.isAccessor == p.isAccessor) := by
    rw [isGeneric_honoured, isAccessor_honoured, Bool.not_or]
    rfl
  rw [PartialProperty.validateAndApply, isEmpty_honoured, hempty, hp, hconfigurable, henumerable,
    hkind]
  -- the checks are made in the same order, and one that fails decides
  cases hc : u.honoursConfigurable && u.carried.configurable with
  | true =>
      rw [hallowed, hc]
      rfl
  | false =>
  cases he : u.honoursEnumerable && u.carried.enumerable != p.enumerable with
  | true =>
      rw [hallowed, hc, he]
      rfl
  | false =>
  cases hk : u.isGeneric || u.isAccessor == p.isAccessor with
  | false =>
      rw [hallowed, hc, he, hk]
      rfl
  | true =>
      rw [hc, he, hk] at hallowed
      have hcontent : u.allowedOn p = u.repeatsContent p := hallowed.trans (Bool.true_and _)
      rw [hcontent]
      exact follows_replaceFixed hu hp hempty hcontent

/-- The standard accepts what is admitted, and leaves the same property. -/
theorem validateAndApply_honoured (hu : u.Coherent) (extensible : Bool)
    (current : Option Property) :
    u.Follows current (current.elim extensible u.allowedOn)
      (u.honoured.validateAndApply extensible current) := by
  cases current with
  | none =>
      cases extensible with
      | false => rfl
      | true => exact .of_eq u.create_honoured.symm
  | some p =>
      rw [Option.elim_some]
      cases hempty : u.isEmpty with
      | true =>
          have hallowed : u.allowedOn p = true := by simp [allowedOn, hempty]
          rw [hallowed, PartialProperty.validateAndApply, isEmpty_honoured, if_pos hempty]
          exact .of_eq (applyTo_of_isEmpty hempty p)
      | false =>
          cases hp : p.configurable with
          | false => exact follows_of_fixed hu hp hempty extensible
          | true =>
              have hallowed : u.allowedOn p = true := by simp [allowedOn, hp]
              rw [hallowed, PartialProperty.validateAndApply, isEmpty_honoured, hempty, hp]
              exact .of_eq (replace_honoured hu p).symm

end PropertyUpdate

/-! ## Worlds -/

namespace World

variable {σ : Type}

/-- **Defining a property is the standard's algorithm.** Let the honoured fields of a redefinition
belong to the kind of property that it carries. Then it is accepted exactly if the standard
accepts these fields for the current property and the extensibility of the object. The property
that is there afterwards is the one that the standard leaves, where it leaves the current one at
least in all fields and up to sameness of the value. Nothing but this property changes, and
nothing at all if the redefinition is rejected. -/
theorem define_follows_standard (w : World σ) {o : ObjectId} (ho : o.index < w.objects.size)
    (key : PropertyKey) {u : PropertyUpdate} (hu : u.Coherent) :
    let standard := u.honoured.validateAndApply (w.object o).extensible (w.own o key)
    let w' := (w.define o key u).2
    ((w.define o key u).1 = true ↔ standard.isSome = true) ∧
      (∀ p, standard = some p → ∃ q, w'.own o key = some q ∧
        (q = p ∨ w.own o key = some p) ∧ q.same p = true) ∧
      w.DiffersAtProperty o key w' ∧
      ((w.define o key u).1 = false → w' = w) := by
  intro standard w'
  have hfollows : u.Follows (w.own o key) ((w.object o).admits key u) standard :=
    PropertyUpdate.validateAndApply_honoured hu _ _
  have hframe : w.DiffersAtProperty o key w' := w.differsAtProperty_define o key u
  have hdefine := w.define_eq_putOwn o key u
  clear_value standard
  cases standard with
  | none =>
      have hrejected : w.define o key u = (false, w) := by
        rw [hdefine, show (w.object o).admits key u = false from hfollows]
        rfl
      refine ⟨?_, ?_, hframe, fun _ => ?_⟩
      · simp [hrejected]
      · intro p hp
        cases hp
      · show (w.define o key u).2 = w
        rw [hrejected]
  | some p =>
      obtain ⟨hadmits, hresult, hsame⟩ := hfollows
      have haccepted : w.define o key u = (true, w.putOwn o key (u.applyTo (w.own o key))) := by
        rw [hdefine, if_pos hadmits]
      refine ⟨?_, ?_, hframe, ?_⟩
      · simp [haccepted]
      · rintro _ ⟨⟩
        refine ⟨_, ?_, hresult, hsame⟩
        show (w.define o key u).2.own o key = _
        rw [haccepted, own_putOwn_self ho]
      · rw [haccepted]
        nofun

/-- A property that is not configurable gets a last value and becomes read-only, on an object that
is not extensible. -/
theorem define_follows_standard_freezing :
    let u : PropertyUpdate := { PropertyUpdate.valueOnly .null with honoursWritable := true }
    let w : World Unit :=
      { World.empty none (.below 0) () with
        objects := #[⟨none, false,
          Table.empty.insert "x" (.data .undefined true true false), .plain⟩] }
    (w.define ⟨0⟩ "x" u).1 = true ∧
      ∃ q, (w.define ⟨0⟩ "x" u).2.own ⟨0⟩ "x" = some q ∧
        q.same (.data .null false true false) = true := by
  intro u w
  have hstandard : u.honoured.validateAndApply (w.object ⟨0⟩).extensible (w.own ⟨0⟩ "x") =
      some (.data .null false true false) := by decide +kernel
  have hu : u.Coherent := ⟨rfl, rfl⟩
  obtain ⟨haccepted, hresult, -, -⟩ := w.define_follows_standard (Nat.zero_lt_one) "x" hu
  rw [hstandard] at haccepted hresult
  obtain ⟨q, hown, -, hsame⟩ := hresult _ rfl
  exact ⟨haccepted.2 rfl, q, hown, hsame⟩

end World

end EcmaCore
