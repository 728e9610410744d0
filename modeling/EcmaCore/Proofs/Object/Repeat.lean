import EcmaCore.Proofs.Object.Define

/-!
# Defining a property once more

What a redefinition leaves behind has every field that the redefinition honours, in whichever
way it came about: as a new property, in place of one that could be redefined freely, or past
the check of one that could not. `PropertyUpdate.Describes` says so of a property. A property
that a redefinition describes is left as it is by it, and passes its check. So defining a
property once more is always admitted and changes nothing, even if the first time took the flags
of the property away, or if the object has stopped admitting new properties since.

## Main results

* `PropertyUpdate.describes_applyTo`: what a redefinition leaves behind, it describes.
* `PropertyUpdate.Describes.applyTo_eq`, `PropertyUpdate.Describes.allowedOn`: what it describes,
  it leaves as it is, and it is allowed there.
* `World.define_again`: repeating a definition is accepted and changes nothing.
-/

namespace EcmaCore

namespace PropertyUpdate

variable {u : PropertyUpdate} {p : Property}

/-- A property is of the kind that a redefinition asks for and has all fields that it honours. -/
structure Describes (u : PropertyUpdate) (p : Property) : Prop where
  kind : u.isGeneric = false → p.isAccessor = u.isAccessor
  value : p.isAccessor = false → u.honoursValue = true → p.value = u.carried.value
  writable : p.isAccessor = false → u.honoursWritable = true → p.writable = u.carried.writable
  getter : u.honoursGetter = true → p.getter = u.carried.getter
  setter : u.honoursSetter = true → p.setter = u.carried.setter
  enumerable : u.honoursEnumerable = true → p.enumerable = u.carried.enumerable
  configurable : u.honoursConfigurable = true → p.configurable = u.carried.configurable

/-! ## What is left behind -/

/-- **What a redefinition leaves behind, it describes.** -/
theorem describes_applyTo (u : PropertyUpdate) (current : Option Property) :
    u.Describes (u.applyTo current) := by
  have hkind : u.isGeneric = false → (u.applyTo current).isAccessor = u.isAccessor := by
    intro hgeneric
    rw [isAccessor_applyTo, hgeneric, if_neg Bool.false_ne_true]
  have haccessor : u.isAccessor = true → (u.applyTo current).isAccessor = true := by
    intro h
    rw [hkind (isGeneric_of_isAccessor h), h]
  refine ⟨hkind, ?_, ?_, ?_, ?_, ?_, ?_⟩
  · intro hdata hhonours
    rw [applyTo_of_data hdata, if_pos hhonours]
    rfl
  · intro hdata hhonours
    rw [applyTo_of_data hdata, if_pos hhonours]
    rfl
  · intro hhonours
    rw [applyTo_of_accessor (haccessor (by simp [isAccessor, hhonours])), if_pos hhonours]
    rfl
  · intro hhonours
    rw [applyTo_of_accessor (haccessor (by simp [isAccessor, hhonours])), if_pos hhonours]
    rfl
  · intro hhonours
    rw [enumerable_applyTo, if_pos hhonours]
  · intro hhonours
    rw [configurable_applyTo, if_pos hhonours]

/-- A field that is already as it is asked for stays. -/
theorem field_eq {α : Type} {honours : Bool} {own carried : α}
    (h : honours = true → own = carried) : (if honours then carried else own) = own := by
  cases honours with
  | true => exact (h rfl).symm
  | false => rfl

namespace Describes

/-- **A redefinition leaves what it describes as it is.** -/
theorem applyTo_eq (h : u.Describes p) : u.applyTo (some p) = p := by
  have hkind : (u.applyTo (some p)).isAccessor = p.isAccessor := by
    rw [isAccessor_applyTo]
    split
    · rfl
    · next hgeneric => exact (h.kind (eq_false_of_ne_true hgeneric)).symm
  have henumerable : (u.applyTo (some p)).enumerable = p.enumerable :=
    (u.enumerable_applyTo (some p)).trans (field_eq h.enumerable)
  have hconfigurable : (u.applyTo (some p)).configurable = p.configurable :=
    (u.configurable_applyTo (some p)).trans (field_eq h.configurable)
  cases p with
  | data v writable enumerable configurable =>
      have hvalue := field_eq (h.value rfl)
      have hwritable := field_eq (h.writable rfl)
      rw [applyTo_of_data hkind, henumerable, hconfigurable]
      exact (Property.data.injEq ..).mpr ⟨hvalue, hwritable, rfl, rfl⟩
  | accessor getter setter enumerable configurable =>
      have hgetter := field_eq h.getter
      have hsetter := field_eq h.setter
      rw [applyTo_of_accessor hkind, henumerable, hconfigurable]
      exact (Property.accessor.injEq ..).mpr ⟨hgetter, hsetter, rfl, rfl⟩

/-- The content that a redefinition describes passes its check. -/
theorem contentAllowedOn (h : u.Describes p) : u.contentAllowedOn p = true := by
  unfold PropertyUpdate.contentAllowedOn
  split
  · next getter setter _ _ _ _ _ _ hcarried =>
    have hgetter := h.getter
    have hsetter := h.setter
    rw [hcarried] at hgetter hsetter
    simp only [Property.getter, Property.setter] at hgetter hsetter
    simp only [Bool.and_eq_true, Bool.not_eq_true', Bool.and_eq_false_imp, bne_eq_false_iff_eq]
    exact ⟨hgetter, hsetter⟩
  · next hcarried =>
    have hvalue := h.value rfl
    have hwritable := h.writable rfl
    rw [hcarried] at hvalue hwritable
    simp only [Property.value, Property.writable] at hvalue hwritable
    simp only [Bool.and_eq_true, Bool.not_eq_true', Bool.and_eq_false_imp, Bool.not_eq_false']
    refine ⟨fun hhonours => (hwritable hhonours).symm, fun hhonours => ?_⟩
    rw [hvalue hhonours]
    exact Value.sameValue_refl _
  · rfl

/-- **A redefinition is allowed on what it describes.** -/
theorem allowedOn (h : u.Describes p) : u.allowedOn p = true := by
  cases hempty : u.isEmpty with
  | true => simp [PropertyUpdate.allowedOn, hempty]
  | false =>
      cases hp : p.configurable with
      | true => simp [PropertyUpdate.allowedOn, hp]
      | false =>
          refine (allowedOn_iff hp hempty).2 ⟨?_, ?_, ?_, h.contentAllowedOn⟩
          · intro hhonours
            rw [← h.configurable hhonours, hp]
          · intro hhonours
            exact (h.enumerable hhonours).symm
          · cases hgeneric : u.isGeneric with
            | true => exact .inl rfl
            | false => exact .inr (h.kind hgeneric).symm

end Describes

end PropertyUpdate

namespace World

variable {σ : Type}

/-- Where a redefinition describes what is there, it is accepted and changes nothing. -/
theorem define_of_describes {w : World σ} {o : ObjectId} {key : PropertyKey} {p : Property}
    {u : PropertyUpdate} (hown : w.own o key = some p) (h : u.Describes p) :
    w.define o key u = (true, w) := by
  have hadmits : (w.object o).admits key u = true := by
    rw [Object.admits, show (w.object o).own key = some p from hown]
    exact h.allowedOn
  rw [define_eq_putOwn, if_pos hadmits, hown, h.applyTo_eq, putOwn_of_own hown]

/-- **Defining a property once more.** If a definition is accepted, the object has the property
that the redefinition leaves behind on top of the one before. In whatever way the world has
changed since, the object being extensible or not, as long as the object still has this property
the same definition is accepted, and it leaves the property and everything else as it is. So
does the redefinition alone, on top of anything that it left behind. -/
theorem define_again {w later : World σ} {o : ObjectId} {key : PropertyKey} {u : PropertyUpdate}
    (ho : o.index < w.objects.size) (haccepted : (w.define o key u).1 = true)
    (hlater : later.own o key = (w.define o key u).2.own o key) :
    (w.define o key u).2.own o key = some (u.applyTo (w.own o key)) ∧
      later.define o key u = (true, later) ∧
      ∀ current, u.applyTo (some (u.applyTo current)) = u.applyTo current := by
  have hstored : (w.define o key u).2.own o key = some (u.applyTo (w.own o key)) := by
    rw [define_eq_putOwn] at haccepted ⊢
    split at haccepted
    · next hadmits =>
      rw [if_pos hadmits]
      exact own_putOwn_self ho key _
    · cases haccepted
  exact ⟨hstored, define_of_describes (hlater.trans hstored) (u.describes_applyTo _),
    fun current => (u.describes_applyTo current).applyTo_eq⟩

/-- An accessor property becomes a read-only data property with the value not-a-number on an
object that stops being extensible; redefining it so once more is accepted. -/
theorem define_again_on_fixed :
    let u : PropertyUpdate := .full (.data (.ofDouble .nan) false true false)
    let w : World Unit :=
      { World.empty none (.below 0) () with
        objects := #[⟨none, true,
          Table.empty.insert "x" (.accessor none none false true), .plain⟩] }
    let later := (w.define ⟨0⟩ "x" u).2.modifyObject ⟨0⟩ Object.preventExtensions
    (w.define ⟨0⟩ "x" u).1 = true ∧
      (w.define ⟨0⟩ "x" u).2.own ⟨0⟩ "x" = some (.data (.ofDouble .nan) false true false) ∧
      later.define ⟨0⟩ "x" u = (true, later) := by
  intro u w later
  have haccepted : (w.define ⟨0⟩ "x" u).1 = true := by decide +kernel
  have hlater : later.own ⟨0⟩ "x" = (w.define ⟨0⟩ "x" u).2.own ⟨0⟩ "x" := by decide +kernel
  obtain ⟨hstored, hagain, -⟩ := define_again Nat.zero_lt_one haccepted hlater
  exact ⟨haccepted, hstored, hagain⟩

end World

end EcmaCore
