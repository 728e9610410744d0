import EcmaCore.Proofs.Value
import EcmaCore.Proofs.World.Change

/-!
# What objects keep

A property that is not configurable, and an object that is not extensible, make
a promise to whoever reads the object: `Property.Retained` says what the property
can still become, and `Object.Keeps` what the object can still become. Defining,
deleting and forbidding extensions keep the promise.

The promise holds for coherent redefinitions. One that honours the value of a data
property but carries an accessor property is not compared with the value that is
there, so it would overwrite a read-only one.

## Main results

* `PropertyUpdate.retained_applyTo`: an admitted redefinition of a non-configurable
  property retains it.
* `Object.keeps_define`, `Object.keeps_delete`: what an object keeps when one of its
  properties is defined or deleted.
-/

namespace EcmaCore

/-! ## Properties -/

/-- What a non-configurable property can become. An accessor property stays as it is, a read-only
data property keeps its value, and a writable one may get another value or become read-only. -/
inductive Property.Retained : Property → Property → Prop
  | accessor (getter setter : Option ObjectId) (enumerable : Bool) :
      Retained (.accessor getter setter enumerable false) (.accessor getter setter enumerable false)
  | readonly {v v' : Value} (enumerable : Bool) (h : v.sameValue v' = true) :
      Retained (.data v false enumerable false) (.data v' false enumerable false)
  | writable (v v' : Value) (writable enumerable : Bool) :
      Retained (.data v true enumerable false) (.data v' writable enumerable false)

namespace Property.Retained

theorem refl {p : Property} (h : p.configurable = false) : p.Retained p := by
  cases p with
  | accessor getter setter enumerable configurable =>
      cases h
      exact .accessor getter setter enumerable
  | data v writable enumerable configurable =>
      cases h
      cases writable with
      | false => exact .readonly enumerable (Value.sameValue_refl v)
      | true => exact .writable v v true enumerable

theorem configurable_eq {p q : Property} (h : p.Retained q) : q.configurable = false := by
  cases h <;> rfl

theorem trans {p q r : Property} (hpq : p.Retained q) (hqr : q.Retained r) : p.Retained r := by
  cases hpq with
  | accessor getter setter enumerable => exact hqr
  | readonly enumerable h =>
      cases hqr with
      | readonly _ h' => exact .readonly enumerable (Value.sameValue_trans h h')
  | writable v v' writable enumerable =>
      cases hqr with
      | readonly _ h' => exact .writable v _ false enumerable
      | writable _ v'' writable' _ => exact .writable v v'' writable' enumerable

end Property.Retained

namespace PropertyUpdate

variable {u : PropertyUpdate}

theorem enumerable_applyTo (u : PropertyUpdate) (current : Option Property) :
    (u.applyTo current).enumerable =
      if u.honoursEnumerable then u.carried.enumerable else current.any Property.enumerable := by
  unfold applyTo
  dsimp only
  split <;> split <;> rfl

theorem configurable_applyTo (u : PropertyUpdate) (current : Option Property) :
    (u.applyTo current).configurable =
      if u.honoursConfigurable then u.carried.configurable
      else current.any Property.configurable := by
  unfold applyTo
  dsimp only
  split <;> split <;> rfl

theorem isAccessor_applyTo (u : PropertyUpdate) (current : Option Property) :
    (u.applyTo current).isAccessor =
      if u.isGeneric then current.any Property.isAccessor else u.isAccessor := by
  unfold applyTo
  dsimp only
  generalize (if u.isGeneric then current.any Property.isAccessor else u.isAccessor) = wants
  cases wants <;> rfl

/-- The slots of an accessor property that a redefinition leaves behind. -/
theorem applyTo_of_accessor {current : Option Property}
    (h : (u.applyTo current).isAccessor = true) :
    u.applyTo current = .accessor
      (if u.honoursGetter then u.carried.getter else current.bind Property.getter)
      (if u.honoursSetter then u.carried.setter else current.bind Property.setter)
      (u.applyTo current).enumerable (u.applyTo current).configurable := by
  rw [isAccessor_applyTo] at h
  unfold applyTo
  dsimp only
  rw [if_pos h]
  rfl

/-- The content of a data property that a redefinition leaves behind. -/
theorem applyTo_of_data {current : Option Property} (h : (u.applyTo current).isAccessor = false) :
    u.applyTo current = .data
      (if u.honoursValue then u.carried.value else (current.map Property.value).getD .undefined)
      (if u.honoursWritable then u.carried.writable else current.any Property.writable)
      (u.applyTo current).enumerable (u.applyTo current).configurable := by
  rw [isAccessor_applyTo] at h
  unfold applyTo
  dsimp only
  rw [if_neg (by rw [h]; exact Bool.false_ne_true)]
  rfl

theorem isGeneric_eq (u : PropertyUpdate) :
    u.isGeneric = (!u.isAccessor && !(u.honoursValue || u.honoursWritable)) := by
  simp only [isGeneric, isAccessor, Bool.not_or, Bool.and_assoc]

theorem isGeneric_of_isAccessor (h : u.isAccessor = true) : u.isGeneric = false := by
  simp [isGeneric_eq, h]

theorem isAccessor_of_isGeneric (h : u.isGeneric = true) : u.isAccessor = false := by
  rw [isGeneric_eq, Bool.and_eq_true, Bool.not_eq_true'] at h
  exact h.1

/-- The check of a redefinition of a non-configurable property. -/
theorem allowedOn_of_fixed (u : PropertyUpdate) {p : Property} (hp : p.configurable = false)
    (hempty : u.isEmpty = false) :
    u.allowedOn p =
      (!(u.honoursConfigurable && u.carried.configurable) &&
        !(u.honoursEnumerable && u.carried.enumerable != p.enumerable) &&
        (u.isGeneric || u.isAccessor == p.isAccessor) && u.contentAllowedOn p) := by
  rw [allowedOn, hempty, hp, Bool.false_or, Bool.false_or]

/-- What the check of a redefinition of a non-configurable property comes to. -/
theorem allowedOn_iff {p : Property} (hp : p.configurable = false) (hempty : u.isEmpty = false) :
    u.allowedOn p = true ↔
      (u.honoursConfigurable = true → u.carried.configurable = false) ∧
        (u.honoursEnumerable = true → u.carried.enumerable = p.enumerable) ∧
        (u.isGeneric = true ∨ u.isAccessor = p.isAccessor) ∧ u.contentAllowedOn p = true := by
  simp only [u.allowedOn_of_fixed hp hempty, Bool.and_eq_true, Bool.not_eq_true',
    Bool.and_eq_false_imp, bne_eq_false_iff_eq, Bool.or_eq_true, beq_iff_eq, and_assoc]

/-- An admitted redefinition of a non-configurable property leaves both flags and the kind of the
property alone. -/
theorem shape_applyTo {p : Property} (hp : p.configurable = false) (hempty : u.isEmpty = false)
    (hallowed : u.allowedOn p = true) :
    (u.applyTo (some p)).configurable = false ∧ (u.applyTo (some p)).enumerable = p.enumerable ∧
      (u.applyTo (some p)).isAccessor = p.isAccessor := by
  obtain ⟨hconfigurable, henumerable, hkind, -⟩ := (allowedOn_iff hp hempty).1 hallowed
  rw [configurable_applyTo, enumerable_applyTo, isAccessor_applyTo]
  refine ⟨?_, ?_, ?_⟩
  · split
    · next h => exact hconfigurable h
    · exact hp
  · split
    · next h => exact henumerable h
    · rfl
  · split
    · rfl
    · next h => exact hkind.resolve_left h

/-- Whether the content that a redefinition puts into a non-configurable property is what may be
there: the same accessor slots, or, in a read-only property, the same value and no writable flag. -/
def repeatsContent (u : PropertyUpdate) : Property → Bool
  | .accessor getter setter _ _ =>
      !(u.honoursGetter && getter != u.carried.getter) &&
        !(u.honoursSetter && setter != u.carried.setter)
  | .data v false _ _ =>
      !(u.honoursWritable && u.carried.writable) &&
        !(u.honoursValue && !v.sameValue u.carried.value)
  | .data _ true _ _ => true

/-- The check of a coherent redefinition looks at the content that it puts in. -/
theorem Coherent.contentAllowedOn_eq (hcoherent : u.Coherent) (p : Property) :
    u.contentAllowedOn p = u.repeatsContent p := by
  unfold Coherent at hcoherent
  unfold contentAllowedOn repeatsContent
  cases hcarried : u.carried with
  | data =>
      rw [hcarried] at hcoherent
      cases p with
      | data v writable => cases writable <;> rfl
      | accessor => simp [hcoherent.1, hcoherent.2]
  | accessor =>
      rw [hcarried] at hcoherent
      cases p with
      | data v writable => cases writable <;> simp [hcoherent.1, hcoherent.2]
      | accessor => rfl

/-- An admitted redefinition of a non-configurable property that repeats its content retains the
property. -/
theorem retained_of_repeatsContent {p : Property} (hp : p.configurable = false)
    (hempty : u.isEmpty = false) (hallowed : u.allowedOn p = true)
    (hrepeats : u.repeatsContent p = true) : p.Retained (u.applyTo (some p)) := by
  obtain ⟨hconfigurable, henumerable, hkind⟩ := shape_applyTo hp hempty hallowed
  cases p with
  | accessor getter setter enumerable configurable =>
      cases hp
      simp only [repeatsContent, Bool.and_eq_true, Bool.not_eq_true', Bool.and_eq_false_imp,
        bne_eq_false_iff_eq] at hrepeats
      rw [applyTo_of_accessor hkind, hconfigurable, henumerable]
      have hsameGetter : (if u.honoursGetter then u.carried.getter else getter) = getter := by
        split
        · next h => exact (hrepeats.1 h).symm
        · rfl
      have hsameSetter : (if u.honoursSetter then u.carried.setter else setter) = setter := by
        split
        · next h => exact (hrepeats.2 h).symm
        · rfl
      show Property.Retained _ (.accessor (if u.honoursGetter then u.carried.getter else getter)
        (if u.honoursSetter then u.carried.setter else setter) enumerable false)
      rw [hsameGetter, hsameSetter]
      exact .accessor getter setter enumerable
  | data v writable enumerable configurable =>
      cases hp
      rw [applyTo_of_data hkind, hconfigurable, henumerable]
      cases writable with
      | true => exact .writable v _ _ enumerable
      | false =>
          simp only [repeatsContent, Bool.and_eq_true, Bool.not_eq_true', Bool.and_eq_false_imp,
            Bool.not_eq_false'] at hrepeats
          have hreadonly : (if u.honoursWritable then u.carried.writable else false) = false := by
            split
            · next h => exact hrepeats.1 h
            · rfl
          have hsame :
              v.sameValue (if u.honoursValue then u.carried.value else v) = true := by
            split
            · next h => exact hrepeats.2 h
            · exact Value.sameValue_refl v
          show Property.Retained _ (.data (if u.honoursValue then u.carried.value else v)
            (if u.honoursWritable then u.carried.writable else false) enumerable false)
          rw [hreadonly]
          exact .readonly enumerable hsame

/-- An admitted coherent redefinition of a non-configurable property retains it. -/
theorem retained_applyTo {p : Property} (hcoherent : u.Coherent) (hp : p.configurable = false)
    (hempty : u.isEmpty = false) (hallowed : u.allowedOn p = true) :
    p.Retained (u.applyTo (some p)) := by
  obtain ⟨-, -, -, hcontent⟩ := (allowedOn_iff hp hempty).1 hallowed
  rw [hcoherent.contentAllowedOn_eq] at hcontent
  exact retained_of_repeatsContent hp hempty hallowed hcontent

end PropertyUpdate

/-! ## Objects -/

/-- What an object keeps while it changes: its non-configurable properties are retained, and once
it is not extensible it stays so and gains no property. -/
structure Object.Keeps (o o' : Object) : Prop where
  retains : ∀ {key p}, o.own key = some p → p.configurable = false →
    ∃ q, o'.own key = some q ∧ p.Retained q
  extensible : o.extensible = false → o'.extensible = false
  own_none : o.extensible = false → ∀ {key}, o.own key = none → o'.own key = none

namespace Object

variable {o o' o'' : Object}

theorem Keeps.refl (o : Object) : o.Keeps o :=
  ⟨fun hown hp => ⟨_, hown, .refl hp⟩, id, fun _ _ => id⟩

theorem Keeps.trans (h : o.Keeps o') (h' : o'.Keeps o'') : o.Keeps o'' where
  retains hown hp := by
    obtain ⟨q, hown', hretained⟩ := h.retains hown hp
    obtain ⟨r, hown'', hretained'⟩ := h'.retains hown' hretained.configurable_eq
    exact ⟨r, hown'', hretained.trans hretained'⟩
  extensible hext := h'.extensible (h.extensible hext)
  own_none hext _ hown := h'.own_none (h.extensible hext) (h.own_none hext hown)

/-- An object without properties that is extensible has nothing to keep. -/
theorem keeps_of_default (o : Object) : (default : Object).Keeps o := by
  refine ⟨?_, ?_, ?_⟩
  · intro key p hown
    cases hown
  · intro hext
    cases hext
  · intro hext
    cases hext

/-- What looks at neither the properties nor the extensibility is free to change. -/
theorem keeps_of_same (hproperties : o'.properties = o.properties)
    (hextensible : o'.extensible = o.extensible) : o.Keeps o' := by
  have hown (key : PropertyKey) : o'.own key = o.own key := by rw [own, own, hproperties]
  refine ⟨?_, ?_, ?_⟩
  · intro key p hp hconfigurable
    exact ⟨p, (hown key).trans hp, .refl hconfigurable⟩
  · intro hext
    rw [hextensible, hext]
  · intro _ key hnone
    rw [hown, hnone]

/-- A property may be inserted where it is retained, and where there is none only if the object is
extensible. -/
theorem keeps_insert {key : PropertyKey} {new : Property}
    (hretained : ∀ p, o.own key = some p → p.configurable = false → p.Retained new)
    (hadded : o.own key = none → o.extensible = true) :
    o.Keeps { o with properties := o.properties.insert key new } where
  retains {other p} hown hp := by
    by_cases heq : key = other
    · subst heq
      exact ⟨new, Table.get?_insert_self _ _ _, hretained p hown hp⟩
    · exact ⟨p, (Table.get?_insert_of_ne _ _ heq).trans hown, .refl hp⟩
  extensible := id
  own_none hext other hown := by
    have hne : key ≠ other := by
      rintro rfl
      rw [hadded hown] at hext
      cases hext
    exact (Table.get?_insert_of_ne _ _ hne).trans hown

theorem keeps_define {key : PropertyKey} {update : PropertyUpdate} (hcoherent : update.Coherent)
    (h : o.define key update = some o') : o.Keeps o' := by
  unfold define at h
  split at h
  · next hnone =>
    split at h
    · next hextensible =>
      cases h
      refine keeps_insert (fun p hp => ?_) fun _ => hextensible
      rw [hnone] at hp
      cases hp
    · cases h
  · next current hown =>
    split at h
    · cases h
      exact .refl o
    · next hempty =>
      split at h
      · next hallowed =>
        cases h
        refine keeps_insert (fun p hp hconfigurable => ?_) fun hnone => ?_
        · cases hown.symm.trans hp
          exact PropertyUpdate.retained_applyTo hcoherent hconfigurable
            ((Bool.not_eq_true _).mp hempty) hallowed
        · cases hown.symm.trans hnone
      · cases h

theorem keeps_defineQuietly (o : Object) (key : PropertyKey) {update : PropertyUpdate}
    (hcoherent : update.Coherent) : o.Keeps (o.defineQuietly key update) := by
  unfold defineQuietly
  cases h : o.define key update with
  | none => exact .refl o
  | some changed => exact keeps_define hcoherent h

theorem keeps_delete {key : PropertyKey} (h : o.delete key = some o') : o.Keeps o' := by
  unfold delete at h
  split at h
  · cases h
    exact .refl o
  · next current hown =>
    split at h
    · next hconfigurable =>
      cases h
      refine ⟨?_, id, ?_⟩
      · intro other p hp hfixed
        have hne : key ≠ other := by
          rintro rfl
          cases hown.symm.trans hp
          rw [hconfigurable] at hfixed
          cases hfixed
        exact ⟨p, (Table.get?_erase_of_ne _ hne).trans hp, .refl hfixed⟩
      · intro _ other hnone
        show (o.properties.erase key).get? other = none
        rw [Table.get?_erase]
        split
        · rfl
        · exact hnone
    · cases h

theorem keeps_preventExtensions (o : Object) : o.Keeps o.preventExtensions :=
  ⟨fun hown hp => ⟨_, hown, .refl hp⟩, fun _ => rfl, fun _ _ => id⟩

end Object

end EcmaCore
